import PermanentIP.Lib.Decimal
import PermanentIP.Common.Types

/-!
# The utility functions (`Common/Utils.h`)

The address codec: `IntToIPString` and `IPStringToInt`, with as much of
`std::string`, `snprintf` and `atoi` as they and their callers use.

`IPStringToInt` is a loop over a string it eats from the front, and nothing in
its text bounds either the number of rounds or the shift count. The model
keeps both visible: the loop runs on fuel, answers `none` if the fuel runs
out, and records the count of every shift it performs. A shift of an `int` by
32 or more is undefined in C++; the value given to it here is that of the x86
instruction, which reads the count modulo 32 as Lean's own shift does.
-/

namespace PermanentIP

open Lib

/-! ## `std::string` -/

namespace Str

/-- `s.find(c)`, with `none` for `npos` -/
def find (s : Bytes) (c : UInt8) : Option Nat := s.findIdx? (· == c)

/-- `s.find(c) + 1`: the largest `size_t`, `npos`, wraps to zero. -/
def next : Option Nat → Nat
  | none => 0
  | some i => i + 1

/-- `s.substr(0, i)`: everything, when `i` is `npos` -/
def upTo (s : Bytes) : Option Nat → Bytes
  | none => s
  | some i => s.take i

/-- `s.substr(i)` -/
def substr (s : Bytes) (i : Nat) : Bytes := s.drop i

theorem find_eq_none {s : Bytes} {c : UInt8} : find s c = none ↔ c ∉ s := by
  rw [find, List.findIdx?_eq_none_iff]
  constructor
  · intro h hc
    simpa using h c hc
  · intro h x hx
    have hne : x ≠ c := fun he => h (he ▸ hx)
    simpa using hne

theorem find_append {a : Bytes} {c : UInt8} (ha : c ∉ a) (b : Bytes) :
    find (a ++ c :: b) c = some a.length := by
  have hnone : a.findIdx? (· == c) = none := find_eq_none.mpr ha
  rw [find, List.findIdx?_append, hnone]
  simp [List.findIdx?_cons]

theorem upTo_find_append {a : Bytes} {c : UInt8} (ha : c ∉ a) (b : Bytes) :
    upTo (a ++ c :: b) (find (a ++ c :: b) c) = a := by
  rw [find_append ha]
  simp [upTo]

theorem substr_find_append {a : Bytes} {c : UInt8} (ha : c ∉ a) (b : Bytes) :
    substr (a ++ c :: b) (next (find (a ++ c :: b) c)) = b := by
  rw [find_append ha]
  simp [substr, next, List.drop_append]

end Str

/-! ## `<cstdio>` and `<cstdlib>` -/

def percentD (n : Int32) : Bytes :=
  if n.toInt < 0 then ascii "-" ++ decimal n.toInt.natAbs
  else decimal n.toInt.natAbs

/-- The string `snprintf(buffer, size, ..)` leaves in the buffer when the
expansion is `text`: at most `size - 1` bytes of it, and a NUL. -/
def snprintf (size : Nat) (text : Bytes) : Bytes := text.take (size - 1)

def isSpace (c : UInt8) : Bool := c == 32 || (9 ≤ c.toNat && c.toNat ≤ 13)

/-- `strtol(s, NULL, 10)`: white space, a sign, digits, and the value clamped
to a 64-bit `long`. A NUL is no digit, so it ends the number as it should. -/
def strtol (s : Bytes) : Int :=
  let s := s.dropWhile isSpace
  if s.head? = some 45 then
    max (-(2 ^ 63)) (-(digitsValue ((s.drop 1).takeWhile isDigit) : Int))
  else if s.head? = some 43 then
    min (2 ^ 63 - 1) (digitsValue ((s.drop 1).takeWhile isDigit) : Int)
  else min (2 ^ 63 - 1) (digitsValue (s.takeWhile isDigit) : Int)

/-- `atoi` is `strtol` cast to `int`. -/
def atoi (s : Bytes) : Int32 := Int32.ofInt (strtol s)

/-! ## The address codec -/

def dot : UInt8 := 46

def intToIPString (physicalAddress : Int32) : PhysicalAddress :=
  let lowOrder := physicalAddress &&& 255
  let lowMiddleOrder := (physicalAddress >>> 8) &&& 255
  let highMiddleOrder := (physicalAddress >>> 16) &&& 255
  let highOrder := (physicalAddress >>> 24) &&& 255
  snprintf 100 (percentD lowOrder ++ dot :: (percentD lowMiddleOrder ++
    dot :: (percentD highMiddleOrder ++ dot :: percentD highOrder)))

/-- The `do .. while` loop of `IPStringToInt`: the sum it leaves in `address`
and the counts it shifted by, in order. -/
def ipStringToIntLoop : Nat → PhysicalAddress → Nat → UInt32 →
    Option (UInt32 × List Nat)
  | 0, _, _, _ => none
  | fuel + 1, physicalAddress, offset, address =>
      let address :=
        address + (atoi physicalAddress).toUInt32 <<< UInt32.ofNat offset
      let physicalAddress :=
        Str.substr physicalAddress (Str.next (Str.find physicalAddress dot))
      if Str.find physicalAddress dot = none then some (address, [offset])
      else
        (ipStringToIntLoop fuel physicalAddress (offset + 8) address).map
          fun r => (r.1, offset :: r.2)

/-- The whole of `IPStringToInt`, with the sentinel dot appended: every round
eats a byte, so one unit of fuel for each byte is enough. -/
def ipStringToIntRun (physicalAddress : PhysicalAddress) :
    Option (UInt32 × List Nat) :=
  ipStringToIntLoop (physicalAddress.length + 1) (physicalAddress ++ [dot]) 0 0

def ipStringToInt (physicalAddress : PhysicalAddress) : Int32 :=
  match ipStringToIntRun physicalAddress with
  | some r => r.1.toInt32
  | none => 0

end PermanentIP

import PermanentIP.Common.Utils

/-!
# `Trim` (`Common/Utils.h`)

`Trim` works in place on a `char` array, and what makes it worth a model is
which indices it touches and with which integers. The array is all there is of
the memory: an access outside it is `none`. The loop counts in an `unsigned
int` against a `size_t`, and the last index is a `size_t` squeezed into an
`int`; both are kept, so a text too long for them shows.

The loop has no bound in its text either and runs on fuel.
-/

namespace PermanentIP

/-! ## A `char` array -/

/-- `strlen(word)`, on an array with a NUL in it -/
def strlen (word : Bytes) : Nat := (cstr word).length

/-- `word[i]` -/
def charAt (word : Bytes) (i : Int) : Option UInt8 :=
  if 0 ≤ i then word[i.toNat]? else none

/-- `word[i] = '\0'` -/
def putNul (word : Bytes) (i : Int) : Option Bytes :=
  if 0 ≤ i ∧ i < word.length then some (word.set i.toNat 0) else none

/-! ## The function -/

/-- `isspace(word[i]) && isspace(word[i + 1])`, the index an `unsigned int` -/
def spacesAt (word : Bytes) (i : UInt32) : Option Bool :=
  match charAt word i.toNat with
  | none => none
  | some c =>
      if isSpace c then (charAt word (i + 1).toNat).map isSpace else some false

/-- The loop of `Trim`, which stops at the first two adjacent spaces. The text
is not empty there, so `strlen(word) - 1` does not wrap. -/
def trimLoop : Nat → Bytes → UInt32 → Option Bytes
  | 0, _, _ => none
  | fuel + 1, word, i =>
      if i.toNat < strlen word - 1 then
        match spacesAt word i with
        | none => none
        | some true => putNul word i.toNat
        | some false => trimLoop fuel word (i + 1)
      else some word

/-- What follows the loop: the last character goes, if it is a space. -/
def trimEnd (word : Bytes) : Option Bytes :=
  let last := (Int32.ofInt ((strlen word : Int) - 1)).toInt
  match charAt word last with
  | none => none
  | some c => if isSpace c then putNul word last else some word

/-- `Trim(word)`: the array as it leaves it, `some none` for `NULL`. -/
def trim (fuel : Nat) (word : Option Bytes) : Option (Option Bytes) :=
  match word with
  | none => some none
  | some word =>
      match charAt word 0 with
      | none => none
      | some c =>
          if c = 0 then some none
          else ((trimLoop fuel word 0).bind trimEnd).map some

end PermanentIP

import PermanentIP.Lib.OrdSet
import Mathlib.Data.List.TakeWhile
import Mathlib.Data.Prod.Lex

/-!
# The types and constants shared by every program (`Common/Types.h`)

Addresses and messages are `std::string`s, so sequences of bytes with the
byte order of `char_traits<char>`; a datagram's payload is one too. An address
as the kernel holds it is a `sockaddr_in`, whose address and port stay in
network byte order wherever the programs carry them around.

What only the socket calls are configured with (`domain_`,
`transport_layer_`, `protocol_`) is one value for each in the whole program
and nothing below reads it back, but for the address family.
-/

namespace PermanentIP

/-- The bytes of a `std::string`, of a C buffer or of a datagram. -/
abbrev Bytes := List UInt8

abbrev LogicalAddress := Bytes

abbrev PhysicalAddress := Bytes

abbrev NetworkMsg := Bytes

def ascii (s : String) : Bytes := s.toList.map fun c => c.toNat.toUInt8

/-- `MAX_ATTEMPTS` -/
def maxAttempts : Nat := 10

/-- `GLOB_LOOKUP_PORT` -/
def globLookupPort : UInt16 := 16000

/-- `NETv4`, the value of `GLOB_DOM` -/
def netV4 : UInt16 := 2

/-- `htons` on the little-endian machines the project targets. -/
def htons (port : UInt16) : UInt16 := (port >>> 8) ||| (port <<< 8)

/-- The three members of `sockaddr_in` that anything reads. -/
structure SockAddr where
  sinFamily : UInt16
  sinPort : UInt16
  sinAddr : UInt32
deriving DecidableEq, Inhabited, Repr

/-- A `sockaddr_in` after `memset(&s, 0, sizeof(s))`. -/
def SockAddr.zero : SockAddr := ⟨0, 0, 0⟩

/-! ## C strings -/

/-- What `string(buffer)` reads from a buffer: the bytes up to the first NUL.
The programs zero a buffer of 4096 bytes before every receive, so for every
datagram short of that the NUL is inside it. -/
def cstr (buffer : Bytes) : Bytes := buffer.takeWhile (· ≠ 0)

/-- A string no byte of which is NUL: what a `const char*` can carry. -/
def NulFree (s : Bytes) : Prop := (0 : UInt8) ∉ s

instance (s : Bytes) : Decidable (NulFree s) :=
  inferInstanceAs (Decidable ((0 : UInt8) ∉ s))

/-- Cutting at the first NUL keeps a NUL-free string whole, whatever follows
the NUL that ends it. -/
theorem cstr_append_nul {s : Bytes} (hs : NulFree s) (rest : Bytes) :
    cstr (s ++ 0 :: rest) = s := by
  unfold cstr
  rw [List.takeWhile_append_of_pos]
  · simp
  · intro c hc
    have hne : c ≠ 0 := fun h => hs (h ▸ hc)
    simpa using hne

theorem cstr_eq_self {s : Bytes} (hs : NulFree s) : cstr s = s := by
  unfold cstr
  rw [List.takeWhile_eq_self_iff]
  intro c hc
  have hne : c ≠ 0 := fun h => hs (h ▸ hc)
  simpa using hne

theorem nulFree_cstr (s : Bytes) : NulFree (cstr s) := by
  intro h
  simpa using List.mem_takeWhile_imp h

theorem NulFree.take {s : Bytes} (hs : NulFree s) (n : Nat) :
    NulFree (s.take n) := fun h => hs (List.mem_of_mem_take h)

theorem nulFree_append {s t : Bytes} :
    NulFree (s ++ t) ↔ NulFree s ∧ NulFree t := by
  simp only [NulFree, List.mem_append, not_or]

/-! ## The orders `std::set` sorts by

Strings compare byte by byte, the bytes as unsigned numbers, and a proper
prefix comes first; a pair compares its first member first. -/

instance linearOrderUInt8 : LinearOrder UInt8 where
  le_refl := UInt8.le_refl
  le_trans _ _ _ := UInt8.le_trans
  lt_iff_le_not_ge a b := by
    rw [UInt8.lt_iff_toNat_lt, UInt8.le_iff_toNat_le, UInt8.le_iff_toNat_le]
    omega
  le_antisymm _ _ := UInt8.le_antisymm
  le_total := UInt8.le_total
  toDecidableLE := inferInstance

instance linearOrderUInt16 : LinearOrder UInt16 where
  le_refl := UInt16.le_refl
  le_trans _ _ _ := UInt16.le_trans
  lt_iff_le_not_ge a b := by
    rw [UInt16.lt_iff_toNat_lt, UInt16.le_iff_toNat_le, UInt16.le_iff_toNat_le]
    omega
  le_antisymm _ _ := UInt16.le_antisymm
  le_total := UInt16.le_total
  toDecidableLE := inferInstance

/-- `pair<LogicalAddress, unsigned short>`: who subscribed, and from which
port, the port as it stood in the request's `sin_port`. -/
structure Subscriber where
  name : LogicalAddress
  port : UInt16
deriving DecidableEq

instance linearOrderSubscriber : LinearOrder Subscriber :=
  LinearOrder.lift' (fun s => toLex (s.name, s.port)) (by
    rintro ⟨n, p⟩ ⟨m, q⟩ h
    simpa using h)

end PermanentIP

import PermanentIP.Lib.SlotTable
import PermanentIP.Common.Socket

/-!
# File descriptors

The descriptor table of a process, as far as the programs use it: sockets that
`socket` opens in the lowest free slot and `close` gives back, and the status
flags `fcntl` reads and sets. A negative descriptor, such as the one a failed
`socket` returns, names nothing, and a call on it fails.
-/

namespace PermanentIP

open Lib

/-- An open socket and its file status flags. -/
structure File where
  flags : UInt32
  socket : Socket
deriving DecidableEq

/-- A socket as `socket` opens it: `O_RDWR`, nothing received. -/
def File.fresh : File := ⟨2, ⟨[], none⟩⟩

/-- `O_NONBLOCK` -/
def oNonblock : UInt32 := 2048

def File.nonblocking (file : File) : Bool := file.flags &&& oNonblock != 0

abbrev Descriptors := SlotTable File

namespace Descriptors

def file? (fds : Descriptors) (fd : Int) : Option File :=
  if fd < 0 then none else fds.get? fd.toNat

def IsOpen (fds : Descriptors) (fd : Int) : Prop := (fds.file? fd).isSome

instance (fds : Descriptors) (fd : Int) : Decidable (fds.IsOpen fd) :=
  inferInstanceAs (Decidable (_ = true))

/-- `socket(domain_, transport_layer_, protocol_)` -/
def socket (fds : Descriptors) : Int × Descriptors :=
  match fds.allocate .fresh with
  | some (i, fds) => (i, fds)
  | none => (-1, fds)

/-- Replaces the socket and the flags behind an open descriptor. -/
def put (fds : Descriptors) (fd : Int) (file : File) : Descriptors :=
  if fd < 0 then fds else SlotTable.put fds fd.toNat file

def close (fds : Descriptors) (fd : Int) : Descriptors :=
  if fd < 0 then fds else fds.release fd.toNat

/-- `fcntl(fd, F_GETFL)`; `none` is its failure. -/
def getfl (fds : Descriptors) (fd : Int) : Option UInt32 :=
  (fds.file? fd).map File.flags

/-- `fcntl(fd, F_SETFL, flags)` -/
def setfl (fds : Descriptors) (fd : Int) (flags : UInt32) :
    Option Descriptors :=
  (fds.file? fd).map fun file => fds.put fd { file with flags := flags }

/-- The receive queue behind a descriptor. -/
def socketAt (fds : Descriptors) (fd : Int) : Socket :=
  ((fds.file? fd).map File.socket).getD ⟨[], none⟩

def setSocket (fds : Descriptors) (fd : Int) (socket : Socket) : Descriptors :=
  match fds.file? fd with
  | some file => fds.put fd { file with socket := socket }
  | none => fds

variable {fds : Descriptors} {fd fd' : Int} {file file' : File}

/-- With a free slot `socket` opens a fresh descriptor; without one it fails. -/
theorem socket_cases (fds : Descriptors) :
    (∃ (i : Nat) (fds' : Descriptors), fds.socket = ((i : Int), fds') ∧
      SlotTable.Allocated fds .fresh i fds') ∨
    (fds.free = 0 ∧ fds.socket = (-1, fds)) := by
  rw [socket]
  split
  · next i fds' h => exact Or.inl ⟨i, fds', rfl, SlotTable.allocate_spec h⟩
  · next h => exact Or.inr ⟨SlotTable.allocate_eq_none.mp h, rfl⟩

theorem file?_natCast (fds : Descriptors) (i : Nat) :
    fds.file? (i : Int) = fds.get? i := by
  rw [file?, if_neg (by omega), Int.toNat_natCast]

theorem nonneg_of_file? (h : fds.file? fd = some file) : 0 ≤ fd := by
  by_contra hneg
  rw [file?, if_pos (by omega)] at h
  cases h

theorem file?_put_self (h : fds.file? fd = some file) :
    (fds.put fd file').file? fd = some file' := by
  have hfd : ¬ fd < 0 := by
    have := nonneg_of_file? h
    omega
  rw [file?, if_neg hfd] at h ⊢
  rw [put, if_neg hfd]
  exact SlotTable.get?_put_self h

theorem file?_put_ne (h : fd' ≠ fd) :
    (fds.put fd file).file? fd' = fds.file? fd' := by
  rw [put]
  split
  · rfl
  · next hfd =>
      rw [file?, file?]
      split
      · rfl
      · exact SlotTable.get?_put_ne (by omega)

theorem put_put : (fds.put fd file).put fd file' = fds.put fd file' := by
  simp only [put]
  split
  · rfl
  · exact SlotTable.put_put

theorem close_put : (fds.put fd file).close fd = fds.close fd := by
  rw [put, close, close]
  split
  · rfl
  · exact SlotTable.release_put

theorem file?_close_self (fds : Descriptors) (fd : Int) :
    (fds.close fd).file? fd = none := by
  rw [file?, close]
  split
  · rfl
  · exact SlotTable.get?_release_self

theorem file?_close_ne (h : fd' ≠ fd) :
    (fds.close fd).file? fd' = fds.file? fd' := by
  rw [close]
  split
  · rfl
  · next hfd =>
      rw [file?, file?]
      split
      · rfl
      · exact SlotTable.get?_release_ne (by omega)

end Descriptors

end PermanentIP

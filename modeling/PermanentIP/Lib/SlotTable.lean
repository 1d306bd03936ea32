import Mathlib.Data.List.Basic

/-!
# A table of slots, the lowest free one first

A finite table of a fixed number of slots: an allocation takes the lowest slot
that is free and fails where none is, and a slot is free again once it is
released. This is what a process's descriptor table is, and more generally any
pool that hands out small numbers.

`allocate_spec` says all an allocation does: where it put the value, what it
left alone, and that there is one free slot less. Whether it succeeds depends on
the number of free slots alone (`allocate_isSome`), so a user that takes slots
and does not give them back can be held to a count.
-/

namespace PermanentIP.Lib

structure SlotTable (α : Type*) where
  slots : List (Option α)
deriving DecidableEq

namespace SlotTable

variable {α : Type*}

/-- What is in slot `i`; nothing if it is free, or not a slot at all. -/
def get? (t : SlotTable α) (i : Nat) : Option α := t.slots[i]?.join

def free (t : SlotTable α) : Nat := t.slots.countP Option.isNone

/-- Puts `a` into the lowest free slot. -/
def allocate (t : SlotTable α) (a : α) : Option (Nat × SlotTable α) :=
  (t.slots.findIdx? Option.isNone).map fun i => (i, ⟨t.slots.set i (some a)⟩)

/-- Replaces what is in slot `i`. -/
def put (t : SlotTable α) (i : Nat) (a : α) : SlotTable α :=
  ⟨t.slots.set i (some a)⟩

def release (t : SlotTable α) (i : Nat) : SlotTable α := ⟨t.slots.set i none⟩

variable {t t' : SlotTable α} {i j : Nat} {a b : α}

theorem allocate_isSome : (t.allocate a).isSome ↔ 0 < t.free := by
  rw [allocate, Option.isSome_map, List.findIdx?_isSome, List.any_eq_true, free,
    List.countP_pos_iff]

theorem allocate_eq_none : t.allocate a = none ↔ t.free = 0 := by
  rw [← Option.not_isSome_iff_eq_none, allocate_isSome, Nat.not_lt,
    Nat.le_zero]

/-- What an allocation that succeeds does. -/
structure Allocated (t : SlotTable α) (a : α) (i : Nat) (t' : SlotTable α) :
    Prop where
  wasFree : t.get? i = none
  holds : t'.get? i = some a
  frame : ∀ j, j ≠ i → t'.get? j = t.get? j
  free : t'.free + 1 = t.free
  release : t'.release i = t

theorem allocate_spec (h : t.allocate a = some (i, t')) : Allocated t a i t' := by
  rw [allocate, Option.map_eq_some_iff] at h
  obtain ⟨k, hk, heq⟩ := h
  rw [Prod.mk.injEq] at heq
  obtain ⟨rfl, rfl⟩ := heq
  obtain ⟨hlt, hnone, _⟩ := List.findIdx?_eq_some_iff_getElem.mp hk
  rw [Option.isNone_iff_eq_none] at hnone
  refine ⟨?_, ?_, ?_, ?_, ?_⟩
  · rw [get?, List.getElem?_eq_getElem hlt, hnone]
    rfl
  · rw [get?, List.getElem?_set_self hlt]
    rfl
  · intro j hj
    rw [get?, get?, List.getElem?_set_ne (Ne.symm hj)]
  · have hpos : 0 < t.slots.countP Option.isNone :=
      List.countP_pos_iff.mpr ⟨t.slots[k], List.getElem_mem hlt, by rw [hnone]; rfl⟩
    rw [SlotTable.free, SlotTable.free, List.countP_set hlt, hnone]
    simp
    omega
  · rw [SlotTable.release, List.set_set]
    rw [← hnone, List.set_getElem_self]

/-! ## Reading after a write -/

theorem lt_of_get? (h : t.get? i = some a) : i < t.slots.length := by
  by_contra hge
  rw [get?, List.getElem?_eq_none (Nat.le_of_not_lt hge)] at h
  cases h

theorem get?_put_self (h : t.get? i = some b) : (t.put i a).get? i = some a := by
  rw [get?, put, List.getElem?_set_self (lt_of_get? h)]
  rfl

theorem get?_put_ne (h : j ≠ i) : (t.put i a).get? j = t.get? j := by
  rw [get?, put, List.getElem?_set_ne (Ne.symm h), get?]

theorem put_put : (t.put i a).put i b = t.put i b := by
  rw [put, put, List.set_set, put]

theorem release_put : (t.put i a).release i = t.release i := by
  rw [put, release, List.set_set, release]

theorem get?_release_self : (t.release i).get? i = none := by
  rw [get?, release, List.getElem?_set_self']
  cases t.slots[i]? <;> rfl

theorem get?_release_ne (h : j ≠ i) : (t.release i).get? j = t.get? j := by
  rw [get?, release, List.getElem?_set_ne (Ne.symm h), get?]

end SlotTable

end PermanentIP.Lib

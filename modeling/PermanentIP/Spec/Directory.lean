import PermanentIP.Lib.LastWrite
import Mathlib.Data.Set.SymmDiff
import Mathlib.Order.ConditionallyCompleteLattice.Basic

/-!
# What a rendezvous server is for

A directory, over any names, addresses and ports: where each name is, as far
as it has said, and who wants to be told when it moves. Registering a name
moves it; asking for a name that has a location switches the asker's
subscription. When a name moves, its watchers are told, each at the location
it has registered itself, on the port it asked from.

A watcher without a location cannot be told, and `told` leaves it out. That is
the one place where the directory and a server that keeps text in maps can
part, and what the refinement proof has to look at.
-/

namespace PermanentIP.Spec

open Lib

variable {Name Addr Port : Type*}

structure Directory (Name Addr Port : Type*) where
  loc : Name → Option Addr
  watchers : Name → Set (Name × Port)

inductive Op (Name Addr Port : Type*) where
  | register (n : Name) (a : Addr)
  | ask (who : Name × Port) (n : Name)

def Op.write? : Op Name Addr Port → Option (Name × Addr)
  | .register n a => some (n, a)
  | .ask _ _ => none

namespace Directory

def empty : Directory Name Addr Port := ⟨fun _ => none, fun _ => ∅⟩

/-- Where a move of `n` is announced. -/
def told (d : Directory Name Addr Port) (n : Name) : Set (Addr × Port) :=
  {x | ∃ who ∈ d.watchers n, d.loc who.1 = some x.1 ∧ who.2 = x.2}

variable [DecidableEq Name]

def apply (d : Directory Name Addr Port) :
    Op Name Addr Port → Directory Name Addr Port
  | .register n a => { d with loc := Function.update d.loc n (some a) }
  | .ask who n =>
      if (d.loc n).isSome then
        { d with watchers :=
            Function.update d.watchers n (symmDiff (d.watchers n) {who}) }
      else d

def run (d : Directory Name Addr Port) (ops : List (Op Name Addr Port)) :
    Directory Name Addr Port := ops.foldl apply d

variable {d : Directory Name Addr Port} {n m : Name} {a : Addr}
  {who : Name × Port} {ops : List (Op Name Addr Port)} {x : Addr × Port}

/-! ## One operation -/

theorem loc_register_self : (d.apply (.register n a)).loc n = some a :=
  Function.update_self n _ _

theorem loc_register_ne (h : m ≠ n) :
    (d.apply (.register n a)).loc m = d.loc m :=
  Function.update_of_ne h _ _

theorem loc_ask : (d.apply (.ask who n)).loc = d.loc := by
  rw [apply]
  split <;> rfl

theorem watchers_ask_ne (h : m ≠ n) :
    (d.apply (.ask who n)).watchers m = d.watchers m := by
  rw [apply]
  split
  · exact Function.update_of_ne h _ _
  · rfl

theorem mem_watchers_ask_self (h : (d.loc n).isSome) {w : Name × Port} :
    w ∈ (d.apply (.ask who n)).watchers n ↔
      (w = who ∧ who ∉ d.watchers n) ∨ (w ≠ who ∧ w ∈ d.watchers n) := by
  rw [apply]
  rw [if_pos h]
  show w ∈ Function.update d.watchers n _ n ↔ _
  rw [Function.update_self, Set.mem_symmDiff, Set.mem_singleton_iff]
  constructor
  · intro hw
    rcases hw with ⟨hmem, hne⟩ | ⟨heq, hmem⟩
    · exact Or.inr ⟨hne, hmem⟩
    · exact Or.inl ⟨heq, heq ▸ hmem⟩
  · intro hw
    rcases hw with ⟨heq, hmem⟩ | ⟨hne, hmem⟩
    · exact Or.inr ⟨heq, heq ▸ hmem⟩
    · exact Or.inl ⟨hmem, hne⟩

theorem ask_of_none (h : d.loc n = none) : d.apply (.ask who n) = d := by
  rw [apply]
  rw [if_neg (by rw [h]; simp)]

/-! ## A run -/

theorem run_snoc (op : Op Name Addr Port) :
    d.run (ops ++ [op]) = (d.run ops).apply op := List.foldl_append

theorem loc_run :
    ((empty : Directory Name Addr Port).run ops).loc n =
      lastWrite Op.write? n ops := by
  induction ops using List.reverseRecOn with
  | nil => rfl
  | append_singleton ops op ih =>
      rw [run_snoc]
      cases op with
      | register m a =>
          have hw : (Op.register m a : Op Name Addr Port).write? = some (m, a) :=
            rfl
          rcases eq_or_ne n m with rfl | hne
          · rw [loc_register_self, lastWrite_snoc_self hw]
          · rw [loc_register_ne hne, ih, lastWrite_snoc_ne hw (Ne.symm hne)]
      | ask who m => rw [loc_ask, ih, lastWrite_snoc_none rfl]

theorem registered_of_told
    (h : x ∈ ((empty : Directory Name Addr Port).run ops).told n) :
    ∃ who ∈ ((empty : Directory Name Addr Port).run ops).watchers n,
      Op.register who.1 x.1 ∈ ops := by
  obtain ⟨who, hwho, hloc, _⟩ := h
  rw [loc_run] at hloc
  obtain ⟨op, hop, hw⟩ := exists_write_of_lastWrite hloc
  refine ⟨who, hwho, ?_⟩
  cases op with
  | register m a =>
      simp only [Op.write?, Option.some.injEq, Prod.mk.injEq] at hw
      obtain ⟨hm, ha⟩ := hw
      rw [← hm, ← ha]
      exact hop
  | ask who' m => cases hw

end Directory

end PermanentIP.Spec

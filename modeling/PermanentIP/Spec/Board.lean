import PermanentIP.Spec.Directory
import PermanentIP.Lib.Run

/-!
# The directory a rendezvous server keeps

`Directory` is what a rendezvous server is for. A board is what one comes to
that looks up, in one table, where a name is and whom to tell: it knows the
names that registered, and also those it has had to tell of a move, registered
or not; and the names it knows are the ones that can be watched. Where a name is
and who is told is as in the directory.

What is on a board has been put there by the operations: who watches a name has
asked for it (`asked_of_watching`), and a name it knows has registered or
belongs to somebody who asked (`named_of_known`). So a board is never larger
than what was asked of it.
-/

namespace PermanentIP.Spec

open Lib

variable {Name Addr Port : Type*}

structure Board (Name Addr Port : Type*) extends Directory Name Addr Port where
  known : Set Name

namespace Board

def empty : Board Name Addr Port := ⟨Directory.empty, ∅⟩

variable [DecidableEq Name]

open Classical in
/-- One operation: a registration makes the name known and all who are told of
it; asking for a known name switches the asker. -/
noncomputable def apply (b : Board Name Addr Port) :
    Op Name Addr Port → Board Name Addr Port
  | .register n a =>
      { toDirectory := b.toDirectory.apply (.register n a)
        known := {m | m = n ∨ m ∈ b.known ∨ ∃ w ∈ b.watchers n, w.1 = m} }
  | .ask who n =>
      if n ∈ b.known then
        { b with watchers :=
            Function.update b.watchers n (symmDiff (b.watchers n) {who}) }
      else b

noncomputable def run (b : Board Name Addr Port) (ops : List (Op Name Addr Port)) :
    Board Name Addr Port := ops.foldl apply b

variable {b : Board Name Addr Port} {n m : Name} {a : Addr} {who w : Name × Port}
  {ops : List (Op Name Addr Port)} {op : Op Name Addr Port}

theorem run_snoc (op : Op Name Addr Port) :
    b.run (ops ++ [op]) = (b.run ops).apply op := List.foldl_append

/-! ## One operation -/

theorem mem_known_register : m ∈ (b.apply (.register n a)).known ↔
    m = n ∨ m ∈ b.known ∨ ∃ w ∈ b.watchers n, w.1 = m :=
  Iff.rfl

theorem ask_of_unknown (h : n ∉ b.known) : b.apply (.ask who n) = b := by
  rw [apply, if_neg h]

theorem known_ask : (b.apply (.ask who n)).known = b.known := by
  rw [apply]
  split <;> rfl

theorem loc_ask : (b.apply (.ask who n)).loc = b.loc := by
  rw [apply]
  split <;> rfl

theorem watchers_ask_ne (h : m ≠ n) :
    (b.apply (.ask who n)).watchers m = b.watchers m := by
  rw [apply]
  split
  · exact Function.update_of_ne h _ _
  · rfl

theorem mem_watchers_ask_self (h : n ∈ b.known) :
    who ∈ (b.apply (.ask who n)).watchers n ↔ who ∉ b.watchers n := by
  rw [apply, if_pos h]
  show who ∈ Function.update b.watchers n _ n ↔ _
  rw [Function.update_self, Set.mem_symmDiff]
  simp

theorem mem_watchers_ask_ne (h : w ≠ who) :
    w ∈ (b.apply (.ask who n)).watchers m ↔ w ∈ b.watchers m := by
  rcases eq_or_ne m n with rfl | hm
  · rw [apply]
    split
    · show w ∈ Function.update b.watchers m _ m ↔ _
      rw [Function.update_self, Set.mem_symmDiff]
      simp [h]
    · rfl
  · rw [watchers_ask_ne hm]

/-! ## A run -/

theorem watching_apply (h : w ∈ (b.apply op).watchers n) :
    w ∈ b.watchers n ∨ op = .ask w n := by
  cases op with
  | register m a => exact Or.inl h
  | ask who m =>
      rcases eq_or_ne w who with rfl | hw
      · rcases eq_or_ne n m with rfl | hn
        · exact Or.inr rfl
        · rw [watchers_ask_ne hn] at h
          exact Or.inl h
      · exact Or.inl ((mem_watchers_ask_ne hw).mp h)

theorem asked_of_watching
    (h : w ∈ ((empty : Board Name Addr Port).run ops).watchers n) :
    Op.ask w n ∈ ops := by
  obtain ⟨op, hop, rfl⟩ := exists_of_foldl
    (fun b : Board Name Addr Port => w ∈ b.watchers n) (· = .ask w n)
    (Set.notMem_empty w) (fun _ _ h => watching_apply h) h
  exact hop

theorem loc_apply (h : (b.apply op).loc n = some a) :
    b.loc n = some a ∨ op = .register n a := by
  cases op with
  | register m c =>
      rcases eq_or_ne n m with rfl | hn
      · cases h.symm.trans Directory.loc_register_self
        exact Or.inr rfl
      · exact Or.inl ((Directory.loc_register_ne hn).symm.trans h)
  | ask who m =>
      rw [loc_ask] at h
      exact Or.inl h

theorem registered_of_loc
    (h : ((empty : Board Name Addr Port).run ops).loc n = some a) :
    Op.register n a ∈ ops := by
  have h0 : ¬ (empty : Board Name Addr Port).loc n = some a := fun h => nomatch h
  obtain ⟨op, hop, rfl⟩ := exists_of_foldl
    (fun b : Board Name Addr Port => b.loc n = some a) (· = .register n a) h0
    (fun _ _ h => loc_apply h) h
  exact hop

/-- The name is known or watches something. -/
def Named (n : Name) (b : Board Name Addr Port) : Prop :=
  n ∈ b.known ∨ ∃ p m, (n, p) ∈ b.watchers m

/-- The operation is about the name, or its owner's. -/
def Names (n : Name) (op : Op Name Addr Port) : Prop :=
  (∃ a, op = .register n a) ∨ ∃ p m, op = .ask (n, p) m

theorem named_apply (h : Named n (b.apply op)) : Named n b ∨ Names n op := by
  rcases h with h | ⟨p, m, h⟩
  · cases op with
    | register m a =>
        rcases mem_known_register.mp h with rfl | hold | ⟨w, hw, rfl⟩
        · exact Or.inr (Or.inl ⟨a, rfl⟩)
        · exact Or.inl (Or.inl hold)
        · exact Or.inl (Or.inr ⟨w.2, m, hw⟩)
    | ask who m =>
        rw [known_ask] at h
        exact Or.inl (Or.inl h)
  · rcases watching_apply h with hold | rfl
    · exact Or.inl (Or.inr ⟨p, m, hold⟩)
    · exact Or.inr (Or.inr ⟨p, m, rfl⟩)

/-- A name on the board registered, or is that of somebody who asked. -/
theorem named_of_known (h : n ∈ ((empty : Board Name Addr Port).run ops).known) :
    ∃ op ∈ ops, Names n op := by
  have h0 : ¬ Named n (empty : Board Name Addr Port) :=
    not_or.mpr ⟨Set.notMem_empty n, fun ⟨p, _, h⟩ => Set.notMem_empty (n, p) h⟩
  exact exists_of_foldl (Named n) (Names n) h0 (fun _ _ h => named_apply h) (Or.inl h)

end Board

end PermanentIP.Spec

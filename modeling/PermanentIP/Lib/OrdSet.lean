import Mathlib.Order.Basic
import Mathlib.Order.Lattice
import Mathlib.Data.List.Lex

/-!
# A set that iterates in increasing order

The finite set of a standard container library: membership, insertion and
erasure on values of a linear order, and one iteration order, the increasing
one. The set is its own iteration, a strictly increasing list, and the
structure carries that as a field, so no set with a duplicate or a misplaced
element can be built and no lemma below has to assume there is none.

The two rules a user rewrites with are `mem_insert` and `mem_erase`; `nodup`
says that one pass over the set visits each member exactly once.
-/

namespace PermanentIP.Lib

variable {α : Type*} [LinearOrder α]

/-- A finite set, kept as the strictly increasing list of its members. -/
structure OrdSet (α : Type*) [LinearOrder α] where
  elems : List α
  sorted : elems.Pairwise (· < ·)
deriving DecidableEq

namespace OrdSet

instance : Membership α (OrdSet α) := ⟨fun s a => a ∈ s.elems⟩

instance : EmptyCollection (OrdSet α) := ⟨⟨[], List.Pairwise.nil⟩⟩

instance : Inhabited (OrdSet α) := ⟨∅⟩

instance (a : α) (s : OrdSet α) : Decidable (a ∈ s) :=
  inferInstanceAs (Decidable (a ∈ s.elems))

@[simp] theorem mem_elems {a : α} {s : OrdSet α} : a ∈ s.elems ↔ a ∈ s :=
  Iff.rfl

@[simp] theorem not_mem_empty (a : α) : a ∉ (∅ : OrdSet α) :=
  List.not_mem_nil

theorem nodup (s : OrdSet α) : s.elems.Nodup :=
  s.sorted.imp fun h => ne_of_lt h

/-- Where `a` goes in an increasing list, if it is not there yet. -/
def insertGo (a : α) : List α → List α
  | [] => [a]
  | b :: l =>
      if a < b then a :: b :: l
      else if a = b then b :: l
      else b :: insertGo a l

theorem mem_insertGo {a x : α} {l : List α} :
    x ∈ insertGo a l ↔ x = a ∨ x ∈ l := by
  induction l with
  | nil => simp [insertGo]
  | cons b l ih =>
      rw [insertGo]
      split
      · exact List.mem_cons
      · split
        · next hab => subst hab; simp
        · rw [List.mem_cons, List.mem_cons, ih]
          tauto

theorem sorted_insertGo {a : α} {l : List α} (h : l.Pairwise (· < ·)) :
    (insertGo a l).Pairwise (· < ·) := by
  induction l with
  | nil => exact List.pairwise_singleton _ a
  | cons b l ih =>
      obtain ⟨hb, hl⟩ := List.pairwise_cons.mp h
      rw [insertGo]
      split
      · next hab =>
          refine List.pairwise_cons.mpr ⟨fun x hx => ?_, h⟩
          rcases List.mem_cons.mp hx with rfl | hx
          · exact hab
          · exact lt_trans hab (hb x hx)
      · next hab =>
          split
          · exact h
          · next hne =>
              refine List.pairwise_cons.mpr ⟨fun x hx => ?_, ih hl⟩
              rcases mem_insertGo.mp hx with rfl | hx
              · exact lt_of_le_of_ne (not_lt.mp hab) (Ne.symm hne)
              · exact hb x hx

def insert (a : α) (s : OrdSet α) : OrdSet α :=
  ⟨insertGo a s.elems, sorted_insertGo s.sorted⟩

def erase (a : α) (s : OrdSet α) : OrdSet α :=
  ⟨s.elems.erase a, s.sorted.sublist List.erase_sublist⟩

@[simp] theorem mem_insert {a x : α} {s : OrdSet α} :
    x ∈ s.insert a ↔ x = a ∨ x ∈ s :=
  mem_insertGo

@[simp] theorem mem_erase {a x : α} {s : OrdSet α} :
    x ∈ s.erase a ↔ x ≠ a ∧ x ∈ s :=
  s.nodup.mem_erase_iff

@[ext] theorem ext {s t : OrdSet α} (h : ∀ a, a ∈ s ↔ a ∈ t) : s = t := by
  have hperm : s.elems.Perm t.elems :=
    (List.perm_ext_iff_of_nodup s.nodup t.nodup).mpr h
  have hasymm : ∀ a b, a ∈ s.elems → b ∈ t.elems → a < b → b < a → a = b :=
    fun a b _ _ hab hba => absurd hab (lt_asymm hba)
  have helems : s.elems = t.elems :=
    hperm.eq_of_pairwise hasymm s.sorted t.sorted
  cases s
  cases t
  simp only at helems
  subst helems
  rfl

theorem filter_elems_eq_singleton {s : OrdSet α} {a : α} {q : α → Bool}
    (h : a ∈ s) (hq : ∀ b ∈ s, q b ↔ b = a) : s.elems.filter q = [a] := by
  have hcongr : s.elems.filter q = s.elems.filter (· = a) := by
    refine List.filter_congr fun b hb => ?_
    rw [Bool.eq_iff_iff, hq b hb, decide_eq_true_eq]
  rw [hcongr, List.filter_eq, s.nodup.count, if_pos (mem_elems.mpr h)]
  rfl

theorem countP_elems {s : OrdSet α} {a : α} {q : α → Bool}
    (hq : ∀ b ∈ s, q b ↔ b = a) : s.elems.countP q = if a ∈ s then 1 else 0 := by
  rw [List.countP_eq_length_filter]
  by_cases ha : a ∈ s
  · rw [filter_elems_eq_singleton ha hq, if_pos ha]
    rfl
  · rw [if_neg ha, List.length_eq_zero_iff, List.filter_eq_nil_iff]
    intro b hb hqb
    exact ha ((hq b hb).mp hqb ▸ hb)

end OrdSet

end PermanentIP.Lib

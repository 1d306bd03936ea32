import Mathlib.Data.List.Basic
import Mathlib.Data.List.Nodup
import Mathlib.Logic.Function.Basic

/-!
# Queues polled in turn

A server with several queues, which it polls in a fixed order over and over,
taking one item at most from each in a pass, while more comes in. `passes` is
what it takes, in the order it takes it, and what it leaves queued.

Whatever comes in and when, each queue is served in its own order and loses
nothing: what was taken from it and what it still holds are together what it
held and what came (`takenFrom_append_passes`). And no queue waits for another:
`k` passes take the first `k` items from every queue that holds so many
(`take_prefix_takenFrom`).
-/

namespace PermanentIP.Lib.Polling

variable {ι α : Type*} [DecidableEq ι]

/-- One pass over the queues in `order`. What came in for a queue by its turn is
appended, and the head is taken. -/
def pass (arrived : ι → List α) :
    List ι → (ι → List α) → List (ι × α) × (ι → List α)
  | [], q => ([], q)
  | i :: order, q =>
      let waiting := q i ++ arrived i
      let r := pass arrived order (Function.update q i waiting.tail)
      (waiting.head?.toList.map (fun x => (i, x)) ++ r.1, r.2)

def passes (order : List ι) :
    List (ι → List α) → (ι → List α) → List (ι × α) × (ι → List α)
  | [], q => ([], q)
  | arrived :: rest, q =>
      let p := pass arrived order q
      let r := passes order rest p.2
      (p.1 ++ r.1, r.2)

/-- What was taken from one of the queues. -/
def takenFrom (i : ι) (taken : List (ι × α)) : List α :=
  taken.filterMap fun t => if t.1 = i then some t.2 else none

/-- All that came in for one of the queues. -/
def arrivedAt (i : ι) (rounds : List (ι → List α)) : List α :=
  rounds.flatMap fun arrived => arrived i

variable {i j : ι} {order : List ι} {arrived : ι → List α} {q : ι → List α}
  {rounds before after : List (ι → List α)} {s t : List (ι × α)} {l : List α}

theorem takenFrom_append :
    takenFrom i (s ++ t) = takenFrom i s ++ takenFrom i t :=
  List.filterMap_append

theorem takenFrom_map_self : takenFrom i (l.map fun x => (i, x)) = l := by
  rw [takenFrom, List.filterMap_map]
  simp

theorem takenFrom_map_ne (h : j ≠ i) :
    takenFrom i (l.map fun x => (j, x)) = [] := by
  rw [takenFrom, List.filterMap_map]
  simp [h]

/-! ## One pass -/

theorem pass_of_notMem (arrived : ι → List α) (q : ι → List α) (h : i ∉ order) :
    takenFrom i (pass arrived order q).1 = [] ∧
      (pass arrived order q).2 i = q i := by
  induction order generalizing q with
  | nil => exact ⟨rfl, rfl⟩
  | cons j order ih =>
      rw [List.mem_cons, not_or] at h
      obtain ⟨htaken, hleft⟩ := ih (Function.update q j (q j ++ arrived j).tail) h.2
      rw [pass]
      refine ⟨?_, ?_⟩
      · rw [takenFrom_append, takenFrom_map_ne (Ne.symm h.1), htaken,
          List.append_nil]
      · rw [hleft, Function.update_of_ne h.1]

/-- A pass takes the head of each queue it polls. -/
theorem pass_of_mem (arrived : ι → List α) (q : ι → List α)
    (hnodup : order.Nodup) (h : i ∈ order) :
    takenFrom i (pass arrived order q).1 = (q i ++ arrived i).head?.toList ∧
      (pass arrived order q).2 i = (q i ++ arrived i).tail := by
  induction order generalizing q with
  | nil => cases h
  | cons j order ih =>
      rw [List.nodup_cons] at hnodup
      rw [pass]
      rcases eq_or_ne i j with rfl | hne
      · obtain ⟨htaken, hleft⟩ := pass_of_notMem arrived
          (Function.update q i (q i ++ arrived i).tail) hnodup.1
        refine ⟨?_, ?_⟩
        · rw [takenFrom_append, takenFrom_map_self, htaken, List.append_nil]
        · rw [hleft, Function.update_self]
      · have hmem := (List.mem_cons.mp h).resolve_left hne
        obtain ⟨htaken, hleft⟩ := ih
          (Function.update q j (q j ++ arrived j).tail) hnodup.2 hmem
        rw [Function.update_of_ne hne] at htaken hleft
        refine ⟨?_, hleft⟩
        rw [takenFrom_append, takenFrom_map_ne (Ne.symm hne), htaken,
          List.nil_append]

/-! ## Pass after pass -/

theorem passes_append :
    passes order (before ++ after) q =
      ((passes order before q).1 ++
        (passes order after (passes order before q).2).1,
      (passes order after (passes order before q).2).2) := by
  induction before generalizing q with
  | nil => rfl
  | cons arrived before ih =>
      rw [List.cons_append, passes, passes, ih, List.append_assoc]

theorem head?_toList_append_tail (l : List α) : l.head?.toList ++ l.tail = l := by
  cases l <;> rfl

/-- Each queue is served in order, and nothing of it is lost. -/
theorem takenFrom_append_passes (rounds : List (ι → List α)) (q : ι → List α)
    (hnodup : order.Nodup) (h : i ∈ order) :
    takenFrom i (passes order rounds q).1 ++ (passes order rounds q).2 i =
      q i ++ arrivedAt i rounds := by
  induction rounds generalizing q with
  | nil => exact (List.append_nil _).symm
  | cons arrived rest ih =>
      obtain ⟨htaken, hleft⟩ := pass_of_mem arrived q hnodup h
      rw [passes, takenFrom_append, List.append_assoc, ih, htaken, hleft,
        ← List.append_assoc, head?_toList_append_tail, List.append_assoc]
      rfl

/-- Every pass takes one from each queue that is not empty. -/
theorem take_prefix_takenFrom (rounds : List (ι → List α)) (q : ι → List α)
    (hnodup : order.Nodup) (h : i ∈ order) :
    (q i).take rounds.length <+: takenFrom i (passes order rounds q).1 := by
  induction rounds generalizing q with
  | nil => exact List.nil_prefix
  | cons arrived rest ih =>
      obtain ⟨htaken, hleft⟩ := pass_of_mem arrived q hnodup h
      have hrest := ih (pass arrived order q).2
      rw [passes, takenFrom_append, htaken]
      rw [hleft] at hrest
      cases hq : q i with
      | nil =>
          rw [List.take_nil]
          exact List.nil_prefix
      | cons x l =>
          rw [hq, List.cons_append, List.tail_cons] at hrest
          rw [List.cons_append, List.head?_cons, Option.toList_some,
            List.singleton_append, List.length_cons, List.take_succ_cons]
          refine (List.cons_prefix_cons.mpr ⟨rfl, ?_⟩)
          refine List.IsPrefix.trans ?_ hrest
          exact List.prefix_take_iff.mpr
            ⟨(List.take_prefix _ l).trans (List.prefix_append l _),
              List.length_take_le _ l⟩

/-- What is queued after some passes has been taken after as many more. -/
theorem arrivedAt_prefix_takenFrom (before after : List (ι → List α))
    (q : ι → List α) (hnodup : order.Nodup) (h : i ∈ order)
    (hle : ((passes order before q).2 i).length ≤ after.length) :
    q i ++ arrivedAt i before <+:
      takenFrom i (passes order (before ++ after) q).1 := by
  rw [passes_append, takenFrom_append, ← takenFrom_append_passes before q hnodup h,
    List.prefix_append_right_inj]
  have hprompt := take_prefix_takenFrom after (passes order before q).2 hnodup h
  rwa [List.take_of_length_le hle] at hprompt

end PermanentIP.Lib.Polling

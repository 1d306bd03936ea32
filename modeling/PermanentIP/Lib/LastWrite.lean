import Mathlib.Data.List.Induction

/-!
# The last write to a key

A history is a list of inputs, some of which write a value under a key.
`lastWrite f k l` is the value of the last input of `l` that wrote under `k`,
where `f` says which write, if any, an input makes. Every store that keeps the
newest value of each key has this as its specification, and
`lastWrite_snoc` is the one equation its refinement proof needs: what one more
input does.
-/

namespace PermanentIP.Lib

variable {α κ ν : Type*} [DecidableEq κ]

/-- One more input on top of what was last written under `k`. -/
def overwrite (f : α → Option (κ × ν)) (k : κ) (v : Option ν) (x : α) :
    Option ν :=
  match f x with
  | some (k', v') => if k' = k then some v' else v
  | none => v

/-- The value last written under `k`, if any was. -/
def lastWrite (f : α → Option (κ × ν)) (k : κ) (l : List α) : Option ν :=
  l.foldl (overwrite f k) none

variable {f : α → Option (κ × ν)} {k k' : κ} {v : ν} {l : List α} {x : α}

theorem lastWrite_snoc :
    lastWrite f k (l ++ [x]) = overwrite f k (lastWrite f k l) x :=
  List.foldl_append

theorem lastWrite_snoc_self (h : f x = some (k, v)) :
    lastWrite f k (l ++ [x]) = some v := by
  rw [lastWrite_snoc, overwrite, h]
  exact if_pos rfl

theorem lastWrite_snoc_ne (h : f x = some (k', v)) (hk : k' ≠ k) :
    lastWrite f k (l ++ [x]) = lastWrite f k l := by
  rw [lastWrite_snoc, overwrite, h]
  exact if_neg hk

theorem lastWrite_snoc_none (h : f x = none) :
    lastWrite f k (l ++ [x]) = lastWrite f k l := by
  rw [lastWrite_snoc, overwrite, h]

theorem exists_write_of_lastWrite (h : lastWrite f k l = some v) :
    ∃ x ∈ l, f x = some (k, v) := by
  induction l using List.reverseRecOn with
  | nil => cases h
  | append_singleton l x ih =>
      have hkeep : lastWrite f k l = some v →
          ∃ y ∈ l ++ [x], f y = some (k, v) := by
        intro hl
        obtain ⟨y, hy, hfy⟩ := ih hl
        exact ⟨y, List.mem_append_left _ hy, hfy⟩
      rw [lastWrite_snoc, overwrite] at h
      split at h
      · next k' v' hx =>
          split at h
          · next hk =>
              injection h with h
              subst hk h
              exact ⟨x, by simp, hx⟩
          · exact hkeep h
      · exact hkeep h

theorem lastWrite_isSome_of_mem (hx : x ∈ l) (h : f x = some (k, v)) :
    (lastWrite f k l).isSome := by
  induction l using List.reverseRecOn with
  | nil => cases hx
  | append_singleton l y ih =>
      rw [lastWrite_snoc, overwrite]
      rcases List.mem_append.mp hx with hl | hy
      · split
        · split
          · rfl
          · exact ih hl
        · exact ih hl
      · rw [List.mem_singleton] at hy
        subst hy
        rw [h]
        simp

end PermanentIP.Lib

import Mathlib.Data.List.AList

/-!
# An unordered map with an indexing operator that inserts

The associative container of a standard library whose `m[k]`, even where it is
only read, inserts a default value under a key that was not there. `get` is
the value such a read gives and `touch` the map it leaves behind; keeping the
two apart lets a model thread the second through a program that only looked.
Writing `m[k] = v` is `insert`, and `count` is membership. The entries keep
their order, so a loop over the map is a loop over `entries`.

The map itself is Mathlib's `AList`, whose keys are distinct by construction.
-/

namespace PermanentIP.Lib

/-- A map whose keys are distinct, iterated in the order of its entries. -/
abbrev UnorderedMap (κ ν : Type*) := AList (fun _ : κ => ν)

namespace UnorderedMap

variable {κ ν : Type*} [DecidableEq κ] [Inhabited ν]

/-- The value of `m[k]`: the entry, or the default. -/
def get (m : UnorderedMap κ ν) (k : κ) : ν := (m.lookup k).getD default

/-- What a read of `m[k]` leaves behind: the key is there from now on. -/
def touch (m : UnorderedMap κ ν) (k : κ) : UnorderedMap κ ν :=
  if k ∈ m then m else m.insert k default

@[simp] theorem get_insert (m : UnorderedMap κ ν) (k : κ) (v : ν) :
    get (m.insert k v) k = v := by
  rw [get, AList.lookup_insert]
  rfl

theorem get_insert_ne {m : UnorderedMap κ ν} {k k' : κ} {v : ν}
    (h : k' ≠ k) : get (m.insert k v) k' = get m k' := by
  rw [get, AList.lookup_insert_ne h]
  rfl

theorem get_of_lookup {m : UnorderedMap κ ν} {k : κ} {v : ν}
    (h : m.lookup k = some v) : get m k = v := by
  rw [get, h]
  rfl

theorem get_of_notMem {m : UnorderedMap κ ν} {k : κ} (h : k ∉ m) :
    get m k = default := by
  rw [get, AList.lookup_eq_none.mpr h]
  rfl

/-- A read inserts, and what it inserts is what it read. -/
@[simp] theorem get_touch (m : UnorderedMap κ ν) (k k' : κ) :
    get (touch m k) k' = get m k' := by
  unfold touch
  split
  · rfl
  · next hk =>
      rcases eq_or_ne k' k with rfl | hne
      · rw [get_insert, get_of_notMem hk]
      · exact get_insert_ne hne

@[simp] theorem mem_touch {m : UnorderedMap κ ν} {k k' : κ} :
    k' ∈ touch m k ↔ k' = k ∨ k' ∈ m := by
  unfold touch
  split
  · next hk =>
      constructor
      · exact Or.inr
      · rintro (rfl | h)
        · exact hk
        · exact h
  · exact AList.mem_insert m

theorem lookup_touch_of_mem {m : UnorderedMap κ ν} {k k' : κ} (h : k' ∈ m) :
    (touch m k).lookup k' = m.lookup k' := by
  unfold touch
  split
  · rfl
  · next hk =>
      exact AList.lookup_insert_ne (fun he => hk (he ▸ h))

omit [Inhabited ν] in
/-- A loop over a map comes to each key once: where, and what is on either
side. -/
theorem entries_split {m : UnorderedMap κ ν} {k : κ} {v : ν}
    (h : m.lookup k = some v) :
    ∃ post, m.entries = m.entries.takeWhile (·.1 ≠ k) ++ ⟨k, v⟩ :: post ∧
      ∀ e ∈ post, e.1 ≠ k := by
  obtain ⟨pre, post, heq⟩ := List.append_of_mem (AList.mem_lookup_iff.mp h)
  have hkeys := List.NodupKeys.pairwise_ne m.nodupKeys
  rw [heq, List.pairwise_append] at hkeys
  have hpre : ∀ e ∈ pre, decide (e.1 ≠ k) = true := by
    intro e he
    have hne := hkeys.2.2 e he ⟨k, v⟩ List.mem_cons_self
    simpa using hne
  refine ⟨post, ?_, ?_⟩
  · rw [heq, List.takeWhile_append_of_pos hpre]
    simp
  · intro e he
    exact Ne.symm ((List.pairwise_cons.mp hkeys.2.1).1 e he)

omit [Inhabited ν] in
/-- What a loop over a map has behind it when it comes to an entry -/
theorem prefix_entries_iff {m : UnorderedMap κ ν} {pre : List (Sigma fun _ : κ => ν)}
    {e : Sigma fun _ : κ => ν} :
    pre ++ [e] <+: m.entries ↔
      e ∈ m.entries ∧ pre = m.entries.takeWhile (·.1 ≠ e.1) := by
  constructor
  · rintro ⟨post, heq⟩
    rw [List.append_assoc, List.singleton_append] at heq
    have hkeys := List.NodupKeys.pairwise_ne m.nodupKeys
    rw [← heq, List.pairwise_append] at hkeys
    have hpre : ∀ e' ∈ pre, decide (e'.1 ≠ e.1) = true := by
      intro e' he'
      simpa using hkeys.2.2 e' he' e List.mem_cons_self
    refine ⟨heq ▸ List.mem_append_right _ List.mem_cons_self, ?_⟩
    rw [← heq, List.takeWhile_append_of_pos hpre]
    simp
  · rintro ⟨hmem, rfl⟩
    obtain ⟨post, heq, _⟩ := entries_split (AList.mem_lookup_iff.mpr hmem)
    refine ⟨post, ?_⟩
    rw [List.append_assoc, List.singleton_append]
    exact heq.symm

end UnorderedMap

end PermanentIP.Lib

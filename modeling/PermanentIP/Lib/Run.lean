import Mathlib.Algebra.Ring.Parity
import Mathlib.Data.List.Induction

/-!
# Runs of a step function, and what holds along them

Two shapes of system, over arbitrary states and actions.

A *partial* step function, `none` where an action is not enabled, with a
guard: `Run step guard s acts t` says that the actions `acts` lead from `s` to
`t` and that every step was taken in a state where the guard allowed it. The
guard is how a theorem speaks of the runs "all of whose steps meet a
condition"; `Always` is the guard that forbids nothing. `Run.invariant` is the
induction over a run, packaged once, and `exec` replays a list of actions so
that a run on concrete states can be computed; and `Run.simulate` carries a run
over to another system, with what is observed of it. `tally` adds up what the steps of
a run count, and `Run.balance` is the law of a ledger: where every step puts in
and takes out what it counts, so does the run; `Run.tally_le` bounds what a run
counts by a rank, and `Run.latch` says when a flag that is never cleared is set.

A *total* step function, whose runs are folds over a list of inputs. What holds
after one and did not before has an input it comes from (`exists_of_foldl`);
`goesOn` says that every input finds a state in which a condition on it holds. And
there is the question how often an input found the state in a certain shape,
which `hits` counts, and `mem_foldl_iff_odd_hits` is the law of a switch: what every
hit flips and nothing else touches is on exactly after an odd number of hits.
-/

namespace PermanentIP.Lib

variable {σ α : Type*}

/-! ## Partial steps under a guard -/

inductive Run (step : σ → α → Option σ) (guard : σ → α → Prop) (s : σ) :
    List α → σ → Prop
  | nil : Run step guard s [] s
  | snoc {acts : List α} {t u : σ} {a : α} : Run step guard s acts t →
      guard t a → step t a = some u → Run step guard s (acts ++ [a]) u

/-- The guard that forbids nothing. -/
def Always (_ : σ) (_ : α) : Prop := True

instance (s : σ) (a : α) : Decidable (Always s a) :=
  inferInstanceAs (Decidable True)

namespace Run

variable {step : σ → α → Option σ} {guard guard' : σ → α → Prop} {s t u : σ}
  {acts : List α}

theorem invariant {I : σ → Prop} (h : Run step guard s acts t) (h0 : I s)
    (hstep : ∀ t a u, I t → guard t a → step t a = some u → I u) : I t := by
  induction h with
  | nil => exact h0
  | snoc _ hg hs ih => exact hstep _ _ _ ih hg hs

theorem mono (h : Run step guard s acts t)
    (hw : ∀ t a, guard t a → guard' t a) : Run step guard' s acts t := by
  induction h with
  | nil => exact .nil
  | snoc _ hg hs ih => exact ih.snoc (hw _ _ hg) hs

theorem cons {a : α} (hg : guard s a) (hs : step s a = some t)
    (h : Run step guard t acts u) : Run step guard s (a :: acts) u := by
  induction h with
  | nil => exact (Run.nil.snoc hg hs : Run step guard s ([] ++ [a]) t)
  | snoc _ hg' hs' ih => exact ih.snoc hg' hs'

theorem snoc_inv {a : α} (h : Run step guard s (acts ++ [a]) u) :
    ∃ t, Run step guard s acts t ∧ guard t a ∧ step t a = some u := by
  generalize hl : acts ++ [a] = l at h
  cases h with
  | nil => simp at hl
  | snoc h hg hs =>
      obtain ⟨rfl, hlast⟩ := List.append_inj' hl rfl
      injection hlast with hlast _
      subst hlast
      exact ⟨_, h, hg, hs⟩

theorem split {acts' : List α} (h : Run step guard s (acts ++ acts') u) :
    ∃ t, Run step guard s acts t ∧ Run step guard t acts' u := by
  induction acts' using List.reverseRecOn generalizing u with
  | nil =>
      rw [List.append_nil] at h
      exact ⟨u, h, .nil⟩
  | append_singleton acts' a ih =>
      rw [← List.append_assoc] at h
      obtain ⟨v, hv, hg, hs⟩ := h.snoc_inv
      obtain ⟨t, ht, ht'⟩ := ih hv
      exact ⟨t, ht, ht'.snoc hg hs⟩

theorem trans {acts' : List α} (h : Run step guard s acts t)
    (h' : Run step guard t acts' u) : Run step guard s (acts ++ acts') u := by
  induction h' with
  | nil => rwa [List.append_nil]
  | snoc _ hg hs ih =>
      rw [← List.append_assoc]
      exact ih.snoc hg hs

theorem unique (h : Run step guard s acts t) :
    ∀ {u : σ}, Run step guard' s acts u → t = u := by
  induction h with
  | nil =>
      intro u h'
      generalize hl : ([] : List α) = l at h'
      cases h' with
      | nil => rfl
      | snoc h' hg hs => simp at hl
  | snoc _ _ hs ih =>
      intro u h'
      obtain ⟨t', h', _, hs'⟩ := h'.snoc_inv
      rw [← ih h', hs] at hs'
      injection hs'

theorem restrict {pre : List α} (h : Run step guard s acts t)
    (hpre : pre <+: acts) (hr : Run step guard' s pre u) :
    Run step guard s pre u := by
  induction h with
  | nil =>
      obtain rfl := List.prefix_nil.mp hpre
      rw [← (Run.nil : Run step guard s [] s).unique hr]
      exact .nil
  | snoc h hg hs ih =>
      rcases List.prefix_concat_iff.mp hpre with rfl | hpre
      · have hrun := h.snoc hg hs
        rwa [← hrun.unique hr]
      · exact ih hpre

/-- A projection that makes every step a run of the other system, with the same
observed of it, makes every run one. -/
theorem simulate {τ β γ : Type*} {step' : τ → β → Option τ} {guard' : τ → β → Prop}
    (project : σ → τ) (obs : α → Option γ) (obs' : β → Option γ)
    (h : Run step guard s acts t)
    (hstep : ∀ t a u, guard t a → step t a = some u → ∃ bs,
      Run step' guard' (project t) bs (project u) ∧
        bs.filterMap obs' = (obs a).toList) :
    ∃ bs, Run step' guard' (project s) bs (project t) ∧
      bs.filterMap obs' = acts.filterMap obs := by
  induction h with
  | nil => exact ⟨[], .nil, rfl⟩
  | snoc _ hg hs ih =>
      next acts t u a _ =>
      obtain ⟨bs, hrun, hobs⟩ := ih
      obtain ⟨more, hlast, hmore⟩ := hstep _ _ _ hg hs
      refine ⟨bs ++ more, hrun.trans hlast, ?_⟩
      rw [List.filterMap_append, List.filterMap_append, hobs, hmore]
      cases ha : obs a with
      | none => rw [List.filterMap_cons_none ha]; rfl
      | some x => rw [List.filterMap_cons_some ha]; rfl

end Run

def exec (step : σ → α → Option σ) (guard : σ → α → Prop)
    [∀ s a, Decidable (guard s a)] (s : σ) : List α → Option σ
  | [] => some s
  | a :: acts =>
      if guard s a then
        match step s a with
        | some t => exec step guard t acts
        | none => none
      else none

theorem Run.of_exec {step : σ → α → Option σ} {guard : σ → α → Prop}
    [∀ s a, Decidable (guard s a)] {acts : List α} :
    ∀ {s t : σ}, exec step guard s acts = some t → Run step guard s acts t := by
  induction acts with
  | nil =>
      intro s t h
      rw [exec] at h
      injection h with h
      subst h
      exact .nil
  | cons a acts ih =>
      intro s t h
      rw [exec] at h
      split at h
      · next hg =>
          split at h
          · next u hs => exact (ih h).cons hg hs
          · cases h
      · cases h

theorem Run.exists_of_exec {step : σ → α → Option σ} {guard : σ → α → Prop}
    [∀ s a, Decidable (guard s a)] {s : σ} {acts : List α} {P : σ → Prop}
    (hend : ∀ t ∈ exec step guard s acts, P t)
    (hsome : (exec step guard s acts).isSome) :
    ∃ t, exec step guard s acts = some t ∧ Run step guard s acts t ∧ P t := by
  obtain ⟨t, ht⟩ := Option.isSome_iff_exists.mp hsome
  exact ⟨t, ht, .of_exec ht, hend t ht⟩

/-! ## What the steps of a run add up to -/

/-- The sum of what `count` gives each step, in the state it is taken in. -/
def tally (step : σ → α → Option σ) (count : σ → α → Nat) (s : σ) :
    List α → Nat
  | [] => 0
  | a :: acts =>
      match step s a with
      | some t => count s a + tally step count t acts
      | none => 0

section Tally

variable {step : σ → α → Option σ} {guard : σ → α → Prop} {s t : σ}
  {acts : List α}

theorem Run.tally_append (count : σ → α → Nat) (h : Run step guard s acts t)
    (acts' : List α) :
    tally step count s (acts ++ acts') =
      tally step count s acts + tally step count t acts' := by
  induction h generalizing acts' with
  | nil => rw [tally, Nat.zero_add, List.nil_append]
  | snoc _ _ hs ih =>
      rw [List.append_assoc, ih, ih, Nat.add_assoc]
      simp only [List.cons_append, List.nil_append, tally, hs, Nat.add_zero]

theorem Run.tally_snoc (count : σ → α → Nat) (h : Run step guard s acts t) {u : σ}
    {a : α} (hs : step t a = some u) :
    tally step count s (acts ++ [a]) = tally step count s acts + count t a := by
  rw [h.tally_append count [a], tally, hs]
  rfl

theorem Run.tally_eq_zero {I : σ → Prop} {count : σ → α → Nat}
    (h : Run step guard s acts t) (h0 : I s)
    (hstep : ∀ t a u, I t → guard t a → step t a = some u → I u)
    (hcount : ∀ t a, I t → count t a = 0) : tally step count s acts = 0 := by
  induction h with
  | nil => rfl
  | snoc h _ hs ih =>
      rw [h.tally_snoc count hs, ih, hcount _ _ (h.invariant h0 hstep)]

theorem Run.tally_congr {I : σ → Prop} {f g : σ → α → Nat}
    (h : Run step guard s acts t) (h0 : I s)
    (hstep : ∀ t a u, I t → guard t a → step t a = some u → I u)
    (hcount : ∀ t a u, I t → guard t a → step t a = some u → f t a = g t a) :
    tally step f s acts = tally step g s acts := by
  induction h with
  | nil => rfl
  | snoc h hg hs ih =>
      rw [h.tally_snoc f hs, h.tally_snoc g hs, ih,
        hcount _ _ _ (h.invariant h0 hstep) hg hs]

theorem tally_add (f g : σ → α → Nat) :
    tally step (fun s a => f s a + g s a) s acts =
      tally step f s acts + tally step g s acts := by
  induction acts generalizing s with
  | nil => rfl
  | cons a acts ih =>
      cases hs : step s a with
      | none => simp only [tally, hs, Nat.add_zero]
      | some t =>
          simp only [tally, hs, ih]
          omega

/-- A ledger: what is on hand at the end and what was paid out are together what
was on hand at first and what was taken in. -/
theorem Run.balance {I : σ → Prop} (onHand : σ → Nat) (paid taken : σ → α → Nat)
    (h : Run step guard s acts t) (h0 : I s)
    (hstep : ∀ t a u, I t → guard t a → step t a = some u → I u)
    (hbalance : ∀ t a u, I t → guard t a → step t a = some u →
      onHand u + paid t a = onHand t + taken t a) :
    onHand t + tally step paid s acts = onHand s + tally step taken s acts := by
  induction h with
  | nil => rfl
  | snoc h hg hs ih =>
      have hinv := h.invariant h0 hstep
      have hlast := hbalance _ _ _ hinv hg hs
      rw [h.tally_snoc paid hs, h.tally_snoc taken hs]
      omega

/-- A rank that every step lowers by what it counts bounds what a run counts. -/
theorem Run.tally_le {I : σ → Prop} (rank : σ → Nat) (count : σ → α → Nat)
    (h : Run step guard s acts t) (h0 : I s)
    (hstep : ∀ t a u, I t → guard t a → step t a = some u → I u)
    (hrank : ∀ t a u, I t → step t a = some u → rank u + count t a ≤ rank t) :
    rank t + tally step count s acts ≤ rank s := by
  induction h with
  | nil => exact Nat.le_refl _
  | snoc h _ hs ih =>
      have hlast := hrank _ _ _ (h.invariant h0 hstep) hs
      rw [h.tally_snoc count hs]
      omega

/-- A latch: what some steps set and none clears is on at the end if and only if
it was on at first or a step set it. -/
theorem Run.latch {I : σ → Prop} (on : σ → Prop) (sets : σ → α → Nat)
    (h : Run step guard s acts t) (h0 : I s)
    (hstep : ∀ t a u, I t → guard t a → step t a = some u → I u)
    (hset : ∀ t a u, I t → guard t a → step t a = some u →
      (on u ↔ on t ∨ sets t a ≠ 0)) :
    on t ↔ on s ∨ tally step sets s acts ≠ 0 := by
  induction h with
  | nil => exact (or_iff_left fun h => h rfl).symm
  | snoc h hg hs ih =>
      rw [h.tally_snoc sets hs, hset _ _ _ (h.invariant h0 hstep) hg hs, ih, or_assoc]
      refine or_congr_right ?_
      omega

end Tally

/-! ## Total steps: where something comes from, and how often an input hit -/

/-- What holds after a fold and did not hold before was brought about by one of
the inputs. -/
theorem exists_of_foldl {step : σ → α → σ} (holds : σ → Prop) (born : α → Prop)
    {s : σ} (h0 : ¬ holds s) (hstep : ∀ s a, holds (step s a) → holds s ∨ born a)
    {as : List α} (h : holds (as.foldl step s)) : ∃ a ∈ as, born a := by
  induction as using List.reverseRecOn with
  | nil => exact absurd h h0
  | append_singleton as a ih =>
      rw [List.foldl_append] at h
      rcases hstep _ a h with hold | hborn
      · obtain ⟨b, hb, hborn⟩ := ih hold
        exact ⟨b, List.mem_append_left _ hb, hborn⟩
      · exact ⟨a, List.mem_append_right _ (List.mem_singleton_self a), hborn⟩

/-- A condition on the input and all before it, along a longer list of inputs -/
theorem forall_prefix_snoc {P : List α → α → Prop} {as : List α} {a : α} :
    (∀ pre b, pre ++ [b] <+: as ++ [a] → P pre b) ↔
      (∀ pre b, pre ++ [b] <+: as → P pre b) ∧ P as a := by
  constructor
  · intro h
    exact ⟨fun pre b hpre => h pre b (hpre.trans (List.prefix_append as [a])),
      h as a (List.prefix_refl _)⟩
  · rintro ⟨h, hlast⟩ pre b hpre
    rcases List.prefix_concat_iff.mp hpre with heq | hold
    · obtain ⟨rfl, hlist⟩ := List.append_inj' heq rfl
      cases hlist
      exact hlast
    · exact h pre b hold

section GoesOn

variable {goes : σ → α → Prop} {after : σ → α → σ}

/-- Whether every step of a run goes on -/
def goesOn (goes : σ → α → Prop) (after : σ → α → σ) (s : σ) : List α → Prop
  | [] => True
  | a :: as => goes s a ∧ goesOn goes after (after s a) as

theorem goesOn_iff {s : σ} {as : List α} : goesOn goes after s as ↔
    ∀ pre a, pre ++ [a] <+: as → goes (pre.foldl after s) a := by
  induction as generalizing s with
  | nil =>
      refine iff_of_true trivial fun pre a hpre => ?_
      have hnil := List.prefix_nil.mp hpre
      simp at hnil
  | cons a as ih =>
      rw [goesOn, ih]
      constructor
      · rintro ⟨hfirst, hrest⟩ pre b hpre
        cases pre with
        | nil =>
            rw [List.nil_append, List.cons_prefix_cons] at hpre
            rw [hpre.1]
            exact hfirst
        | cons c pre =>
            rw [List.cons_append, List.cons_prefix_cons] at hpre
            obtain ⟨rfl, hpre⟩ := hpre
            exact hrest pre b hpre
      · intro h
        refine ⟨h [] a ⟨as, rfl⟩, fun pre b hpre => ?_⟩
        exact h (a :: pre) b (List.cons_prefix_cons.mpr ⟨rfl, hpre⟩)

theorem goesOn_snoc {s : σ} {as : List α} {a : α} :
    goesOn goes after s (as ++ [a]) ↔ goesOn goes after s as ∧ goes (as.foldl after s) a := by
  rw [goesOn_iff, goesOn_iff, forall_prefix_snoc]

theorem goesOn_append {s : σ} {as bs : List α} :
    goesOn goes after s (as ++ bs) ↔
      goesOn goes after s as ∧ goesOn goes after (as.foldl after s) bs := by
  induction as generalizing s with
  | nil => exact (and_iff_right trivial).symm
  | cons a as ih => rw [List.cons_append, goesOn, goesOn, ih, and_assoc, List.foldl_cons]

theorem goesOn_restrict {s : σ} {pre as : List α} (h : goesOn goes after s as)
    (hpre : pre <+: as) : goesOn goes after s pre :=
  goesOn_iff.mpr fun before a hbefore => goesOn_iff.mp h before a (hbefore.trans hpre)

def decidableGoesOn [∀ s a, Decidable (goes s a)] (s : σ) :
    (as : List α) → Decidable (goesOn goes after s as)
  | [] => isTrue trivial
  | a :: as => @instDecidableAnd _ _ _ (decidableGoesOn (after s a) as)

instance [∀ s a, Decidable (goes s a)] (s : σ) (as : List α) :
    Decidable (goesOn goes after s as) := decidableGoesOn s as

end GoesOn

/-- How many of the inputs found the state where `hit` holds. -/
def hits (step : σ → α → σ) (hit : σ → α → Prop)
    [∀ s a, Decidable (hit s a)] (s : σ) : List α → Nat
  | [] => 0
  | a :: as => (if hit s a then 1 else 0) + hits step hit (step s a) as

variable {step : σ → α → σ} {hit : σ → α → Prop} [∀ s a, Decidable (hit s a)]

theorem hits_append (s : σ) (as bs : List α) :
    hits step hit s (as ++ bs) =
      hits step hit s as + hits step hit (as.foldl step s) bs := by
  induction as generalizing s with
  | nil => simp [hits]
  | cons a as ih =>
      rw [List.cons_append, hits, hits, ih, List.foldl_cons, Nat.add_assoc]

theorem hits_snoc (s : σ) (as : List α) (a : α) :
    hits step hit s (as ++ [a]) =
      hits step hit s as + if hit (as.foldl step s) a then 1 else 0 := by
  rw [hits_append]
  rfl

/-- The law of a switch: what starts off, is flipped by every hit and is left
alone by every other input is on exactly after an odd number of hits. -/
theorem mem_foldl_iff_odd_hits (on : σ → Prop) {s : σ} (h0 : ¬ on s)
    (hflip : ∀ s a, hit s a → (on (step s a) ↔ ¬ on s))
    (hkeep : ∀ s a, ¬ hit s a → (on (step s a) ↔ on s)) (as : List α) :
    on (as.foldl step s) ↔ Odd (hits step hit s as) := by
  induction as using List.reverseRecOn with
  | nil => simpa [hits] using h0
  | append_singleton as a ih =>
      rw [List.foldl_append, List.foldl_cons, List.foldl_nil, hits_snoc]
      by_cases hh : hit (as.foldl step s) a
      · rw [if_pos hh, hflip _ _ hh, ih, Nat.odd_add_one]
      · rw [if_neg hh, hkeep _ _ hh, ih, Nat.add_zero]

end PermanentIP.Lib

import PermanentIP.Lib.Run

/-!
# Calls that put something out and may not come back

A program that sends, writes or logs does so before it is known whether the call
it is in returns at all: what is out stays out. An `Outcome` is what a call has
put out and what it returned, if it did. It is a monad, so a program is written
down statement by statement.

`Does x P out a` is the specification of a call: it returns if and only if `P`,
and then it has put out `out` and returned `a`; otherwise what it has put out is
the beginning of `out`, as far as it got. `out` and `a` are those of the same
program without the statements that may not return, so a fact about that program
holds of this one for as long as it lives. There is one rule for each statement,
and the rules compose along a program (`Does.bind`) and along a run of a step
function (`Does.foldl`).
-/

namespace PermanentIP.Lib

variable {ω ε : Type*} {α β σ : Type}

structure Outcome (ω ε α : Type*) where
  out : List ω
  result : Except ε α

namespace Outcome

protected def pure (a : α) : Outcome ω ε α := ⟨[], .ok a⟩

protected def bind (x : Outcome ω ε α) (next : α → Outcome ω ε β) : Outcome ω ε β :=
  match x.result with
  | .ok a => ⟨x.out ++ (next a).out, (next a).result⟩
  | .error e => ⟨x.out, .error e⟩

instance : Monad (Outcome ω ε) where
  pure := Outcome.pure
  bind := Outcome.bind

/-- Put something out. -/
def put (out : List ω) : Outcome ω ε Unit := ⟨out, .ok ()⟩

/-- A call that puts nothing out -/
def call (result : Except ε α) : Outcome ω ε α := ⟨[], result⟩

def Returns (x : Outcome ω ε α) : Prop := ∃ a, x.result = .ok a

/-- The steps of a run, one after the other -/
def foldl (step : σ → α → Outcome ω ε σ) (s : σ) : List α → Outcome ω ε σ
  | [] => pure s
  | a :: as => do
      let s ← step s a
      foldl step s as

/-- What follows a pass of a loop, which may have left no state: the end, or the rest
of the loop where the state goes on. -/
def andThen (passed : Option σ) (goes : σ → Bool) (failed ended : α)
    (rest : σ → Outcome ω ε α) : Outcome ω ε α :=
  match passed with
  | none => pure failed
  | some s => if goes s then rest s else pure ended

end Outcome

open Outcome

structure Does (x : Outcome ω ε α) (P : Prop) (out : List ω) (a : α) : Prop where
  returns : x.Returns ↔ P
  begins : x.out <+: out
  whole : x.Returns → x = ⟨out, .ok a⟩

variable {x : Outcome ω ε α} {P Q : Prop} {out out' : List ω} {a : α} {b : β}
  {next : α → Outcome ω ε β}

theorem Outcome.returns_mk (out : List ω) (a : α) :
    (⟨out, .ok a⟩ : Outcome ω ε α).Returns := ⟨a, rfl⟩

theorem Does.eq (h : Does x P out a) (hP : P) : x = ⟨out, .ok a⟩ :=
  h.whole (h.returns.mpr hP)

theorem Does.eq_iff (h : Does x P out a) : x = ⟨out, .ok a⟩ ↔ P := by
  constructor
  · intro heq
    rw [← h.returns, heq]
    exact returns_mk out a
  · exact h.eq

theorem Does.congr (h : Does x P out a) (hPQ : P ↔ Q) : Does x Q out a where
  returns := h.returns.trans hPQ
  begins := h.begins
  whole := h.whole

/-! ## One rule for each statement -/

theorem does_pure (a : α) : Does (pure a : Outcome ω ε α) True [] a where
  returns := iff_of_true (returns_mk [] a) trivial
  begins := List.prefix_refl _
  whole _ := rfl

theorem does_put (out : List ω) : Does (put out : Outcome ω ε Unit) True out () where
  returns := iff_of_true (returns_mk out ()) trivial
  begins := List.prefix_refl _
  whole _ := rfl

/-- A call that has no result but that it returned -/
theorem does_call {result : Except ε Unit} (h : (∃ u, result = .ok u) ↔ P) :
    Does (call result : Outcome ω ε Unit) P [] () where
  returns := h
  begins := List.prefix_refl _
  whole := by
    rintro ⟨u, hu⟩
    exact congrArg (Outcome.mk []) hu

theorem Does.bind (h : Does x P out a) (hnext : Does (next a) Q out' b) :
    Does (x >>= next) (P ∧ Q) (out ++ out') b := by
  by_cases hP : P
  · have heq : x >>= next = ⟨out ++ (next a).out, (next a).result⟩ := by
      rw [h.eq hP]
      rfl
    rw [heq]
    refine ⟨?_, ?_, fun hreturns => ?_⟩
    · rw [and_iff_right hP]
      exact hnext.returns
    · exact (List.prefix_append_right_inj out).mpr hnext.begins
    · rw [hnext.whole hreturns]
  · have hx : ¬ x.Returns := h.returns.not.mpr hP
    have heq : (x >>= next).out = x.out ∧ ¬ (x >>= next).Returns := by
      change (Outcome.bind x next).out = x.out ∧ ¬ (Outcome.bind x next).Returns
      rw [Outcome.bind]
      split
      · next a' ha' => exact absurd ⟨a', ha'⟩ hx
      · next e he =>
          refine ⟨rfl, ?_⟩
          rintro ⟨b', hb'⟩
          cases hb'
    refine ⟨iff_of_false heq.2 fun hPQ => hP hPQ.1, ?_, fun hreturns => ?_⟩
    · rw [heq.1]
      exact h.begins.trans (List.prefix_append out out')
    · exact absurd hreturns heq.2

/-- A call with nothing more to do after it -/
theorem Does.bind_pure (h : Does x P out a) (hnext : next a = pure b) :
    Does (x >>= next) P out b := by
  have hlast : Does (next a) True [] b := by
    rw [hnext]
    exact does_pure b
  have hbind : Does (x >>= next) (P ∧ True) (out ++ []) b := h.bind hlast
  rw [List.append_nil] at hbind
  exact hbind.congr (and_iff_left trivial)

theorem Does.map (h : Does x P out a) (f : α → β) :
    Does (x >>= fun a => pure (f a)) P out (f a) := h.bind_pure rfl

/-- Something is put out, and nothing after it. -/
theorem does_put_seq (out : List ω) {y : Outcome ω ε β} (h : Does y Q [] b) :
    Does (put out >>= fun _ => y) Q out b := by
  have hseq : Does (put out >>= fun _ => y) (True ∧ Q) (out ++ []) b := (does_put out).bind h
  rw [List.append_nil] at hseq
  exact hseq.congr (and_iff_right trivial)

/-- A pass of a loop, and what follows it, with what the two put out -/
theorem does_andThen {x : Outcome ω ε (Option σ)} {passed : Option σ} {goes : σ → Bool}
    {failed ended v : α} {rest : σ → Outcome ω ε α} {Q : σ → Prop} {puts : σ → List ω}
    {value : σ → α} (hx : Does x P out passed)
    (hrest : ∀ s, Does (rest s) (Q s) (puts s) (value s))
    (hnone : passed = none → out' = out ∧ v = failed)
    (hend : ∀ s, passed = some s → goes s = false → out' = out ∧ v = ended)
    (hgoes : ∀ s, passed = some s → goes s = true →
      out' = out ++ puts s ∧ v = value s) :
    Does (x >>= fun passed => andThen passed goes failed ended rest)
      (P ∧ ∀ s, passed = some s → goes s = true → Q s) out' v := by
  have hstop (w : α) (hthen : andThen passed goes failed ended rest = pure w)
      (hQ : ∀ s, passed = some s → goes s = true → Q s) (heq : out' = out ∧ v = w) :
      Does (x >>= fun passed => andThen passed goes failed ended rest)
        (P ∧ ∀ s, passed = some s → goes s = true → Q s) out' v := by
    rw [heq.1, heq.2]
    exact (hx.bind_pure hthen).congr (and_iff_left hQ).symm
  cases hpassed : passed with
  | none =>
      subst hpassed
      exact hstop failed rfl (fun s h => nomatch h) (hnone rfl)
  | some s =>
      subst hpassed
      cases hs : goes s with
      | false =>
          refine hstop ended (if_neg (Bool.eq_false_iff.mp hs)) ?_ (hend s rfl hs)
          intro t ht hgo
          cases ht
          rw [hs] at hgo
          cases hgo
      | true =>
          obtain ⟨hout, hv⟩ := hgoes s rfl hs
          have hthen : Does (andThen (some s) goes failed ended rest) (Q s) (puts s)
              (value s) := by
            rw [andThen, if_pos hs]
            exact hrest s
          have hall : Does (x >>= fun passed => andThen passed goes failed ended rest)
            (P ∧ Q s) (out ++ puts s) (value s) := hx.bind hthen
          rw [hout, hv]
          refine hall.congr (and_congr_right fun _ => ?_)
          constructor
          · intro h t ht _
            cases ht
            exact h
          · exact fun h => h s rfl hs

/-! ## Runs -/

section Runs

variable {step : σ → α → Outcome ω ε σ} {goes : σ → α → Prop}
  {puts : σ → α → List ω} {after : σ → α → σ}

/-- All that the steps of a run put out -/
def outs (puts : σ → α → List ω) (after : σ → α → σ) (s : σ) : List α → List ω
  | [] => []
  | a :: as => puts s a ++ outs puts after (after s a) as

theorem Does.foldl (hstep : ∀ s a, Does (step s a) (goes s a) (puts s a) (after s a))
    (s : σ) (as : List α) :
    Does (Outcome.foldl step s as) (goesOn goes after s as) (outs puts after s as)
      (as.foldl after s) := by
  induction as generalizing s with
  | nil => exact does_pure s
  | cons a as ih => exact (hstep s a).bind (ih (after s a))

/-- A record that each step extends by what it puts out is extended by a run by what
that puts out. -/
theorem record_foldl (record : σ → List ω)
    (hrecord : ∀ s a, record (after s a) = record s ++ puts s a) (s : σ) (as : List α) :
    record (as.foldl after s) = record s ++ outs puts after s as := by
  induction as generalizing s with
  | nil => exact (List.append_nil _).symm
  | cons a as ih => rw [List.foldl_cons, ih, hrecord, outs, List.append_assoc]

end Runs

end PermanentIP.Lib

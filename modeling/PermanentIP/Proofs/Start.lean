import PermanentIP.RendezvousServer.Start

/-!
# A server whose listeners could not be opened

`Start` is to return true unless there was an error, `BeginListening` calls
`ShutDown` on every error, and `ShutDown` closes the listeners and tells the
program to exit. `Start` then clears that flag before anything has read it, and
does not look at the two descriptors, so it serves whatever happened
(`outcome_start`, `received_start`): on descriptor 0 in place of a listener
that failed, and where only the second failed also on the first, which
`ShutDown` has closed (`mem_closed_of_lookup_failed`). The server refuses to
serve exactly where there is nothing to refuse (`refuses_iff`).
-/

namespace PermanentIP

namespace SimpleRendezvousServer.Process

variable {p : Process} {calls registration lookup : ListenCalls} {fd : Int}

/-- What `BeginListening` leaves in the member it is assigned to. -/
def listener (calls : ListenCalls) : Int := if calls.ok then calls.socket else 0

theorem beginListening_eq :
    p.beginListening calls =
      if calls.ok then (calls.socket, p) else (0, p.shutDown.2) := by
  rw [beginListening]
  have hok : calls.ok ↔ ¬ calls.socket < 0 ∧ ¬ calls.bind ≠ 0 ∧
      ¬ calls.setsockopt < 0 ∧ ¬ calls.getfl < 0 ∧ ¬ calls.setfl < 0 := by
    simp only [ListenCalls.ok, Bool.and_eq_true, decide_eq_true_eq, beq_iff_eq]
    omega
  by_cases h : calls.ok
  · obtain ⟨hsocket, hbind, hset, hget, hsetfl⟩ := hok.mp h
    rw [if_pos h, if_neg hsocket, if_neg hbind, if_neg hset, if_neg hget,
      if_neg hsetfl]
  · rw [if_neg h]
    split_ifs with hsocket hbind hset hget hsetfl
    · rfl
    · rfl
    · rfl
    · rfl
    · rfl
    · exact absurd (hok.mpr ⟨hsocket, hbind, hset, hget, hsetfl⟩) h

theorem server_beginListening : (p.beginListening calls).2.server = p.server := by
  rw [beginListening_eq]
  split <;> rfl

theorem fst_beginListening : (p.beginListening calls).1 = listener calls := by
  rw [beginListening_eq, listener]
  split <;> rfl

theorem lookupListener_listen :
    (p.listen registration lookup).server.lookupListener = listener lookup :=
  fst_beginListening

theorem registrationListener_listen :
    (p.listen registration lookup).server.registrationListener =
      listener registration := by
  simp only [listen, server_beginListening, fst_beginListening]

/-- The second failure closes what the first call opened. -/
theorem mem_closed_of_lookup_failed (hr : registration.ok) (hl : ¬ lookup.ok) :
    registration.socket ∈ (p.listen registration lookup).closed := by
  simp [listen, beginListening_eq, hr, hl, shutDown, exitProgram]

/-! ## The loop -/

theorem listeners_handleRequests (srv : SimpleRendezvousServer) (fd : Int)
    (lookup : Bool) (s : Socket) (updateSocket : Int) :
    let u := (srv.handleRequests fd lookup s updateSocket).server
    u.registrationListener = srv.registrationListener ∧
      u.lookupListener = srv.lookupListener := by
  simp only [handleRequests]
  split
  · split
    · simp only [changeSubscription]
      split <;> exact ⟨rfl, rfl⟩
    · exact ⟨rfl, rfl⟩
  · exact ⟨rfl, rfl⟩

/-- Every pass receives from the lookup listener, and from nothing but the two
listeners, which it leaves as they are. -/
theorem pass_cases (p : Process) (r : Round) :
    (∃ rest, (p.pass r).received = p.server.lookupListener :: rest) ∧
    (∀ fd ∈ (p.pass r).received,
      fd = p.server.lookupListener ∨ fd = p.server.registrationListener) ∧
    ∀ q, (p.pass r).process = some q →
      q.server.registrationListener = p.server.registrationListener ∧
        q.server.lookupListener = p.server.lookupListener := by
  have hl := listeners_handleRequests p.server p.server.lookupListener true
    (r.lookups p.server.lookupListener) (-1)
  simp only [pass]
  split
  · refine ⟨⟨_, rfl⟩, ?_, ?_⟩
    · intro fd hfd
      rw [List.mem_pair, hl.1] at hfd
      exact hfd
    · intro q hq
      split at hq
      · cases hq
        have hg := listeners_handleRequests
          (p.server.handleRequests p.server.lookupListener true
            (r.lookups p.server.lookupListener) (-1)).server
        exact ⟨(hg _ _ _ _).1.trans hl.1, (hg _ _ _ _).2.trans hl.2⟩
      · cases hq
  · refine ⟨⟨_, rfl⟩, ?_, ?_⟩
    · intro fd hfd
      exact Or.inl (List.mem_singleton.mp hfd)
    · intro q hq
      cases hq

theorem Pass.received_andThen (s : Pass) (next : Process → Served) :
    (∃ rest, (s.andThen next).received = s.received ++ rest) ∧
      ∀ fd ∈ (s.andThen next).received, fd ∈ s.received ∨
        ∃ q, s.process = some q ∧ fd ∈ (next q).received := by
  rw [andThen]
  cases hq : s.process with
  | none => exact ⟨⟨[], (List.append_nil _).symm⟩, fun _ h => Or.inl h⟩
  | some q =>
      simp only
      split
      · refine ⟨⟨_, rfl⟩, fun fd hfd => ?_⟩
        exact (List.mem_append.mp hfd).imp_right fun h => ⟨q, rfl, h⟩
      · exact ⟨⟨[], (List.append_nil _).symm⟩, fun _ h => Or.inl h⟩

/-- The loop returns no failure that what comes after a pass does not. -/
theorem Pass.outcome_andThen {s : Pass} {next : Process → Served}
    (h : ∀ q, (next q).outcome ≠ .returned false) :
    (s.andThen next).outcome ≠ .returned false := by
  rw [andThen]
  cases s.process with
  | none => simp
  | some q =>
      simp only
      split
      · exact h q
      · simp

theorem outcome_loop (p : Process) (r : Round) (rounds : List Round) :
    (p.loop r rounds).outcome ≠ .returned false := by
  induction rounds generalizing p r with
  | nil => exact Pass.outcome_andThen fun _ => by simp
  | cons next rounds ih => exact Pass.outcome_andThen fun q => ih q next

theorem loop_eq (p : Process) (r : Round) (rounds : List Round) :
    ∃ next, p.loop r rounds = (p.pass r).andThen next := by
  cases rounds with
  | nil => exact ⟨_, rfl⟩
  | cons next rounds => exact ⟨_, rfl⟩

theorem head_loop (p : Process) (r : Round) (rounds : List Round) :
    ∃ rest, (p.loop r rounds).received = p.server.lookupListener :: rest := by
  obtain ⟨next, hnext⟩ := loop_eq p r rounds
  obtain ⟨⟨rest, hrest⟩, _⟩ := (p.pass r).received_andThen next
  obtain ⟨⟨first, hfirst⟩, _, _⟩ := pass_cases p r
  exact ⟨first ++ rest, by rw [hnext, hrest, hfirst, List.cons_append]⟩

theorem received_loop (p : Process) (r : Round) (rounds : List Round) :
    ∀ fd ∈ (p.loop r rounds).received,
      fd = p.server.lookupListener ∨ fd = p.server.registrationListener := by
  intro fd hfd
  induction rounds generalizing p r with
  | nil =>
      rcases (Pass.received_andThen _ _).2 fd hfd with hpass | ⟨q, _, hnext⟩
      · exact (pass_cases p r).2.1 fd hpass
      · cases hnext
  | cons next rounds ih =>
      rcases (Pass.received_andThen _ _).2 fd hfd with hpass | ⟨q, hq, hnext⟩
      · exact (pass_cases p r).2.1 fd hpass
      · -- the later passes receive from the listeners this one left
        obtain ⟨hreg, hlook⟩ := (pass_cases p r).2.2 q hq
        rw [← hreg, ← hlook]
        exact ih q next hnext

/-! ## `Start` -/

theorem outcome_start (p : Process) (registration lookup : ListenCalls)
    (first : Round) (rounds : List Round) :
    (p.start registration lookup first rounds).outcome ≠ .returned false :=
  outcome_loop _ _ _

theorem head_start (p : Process) (registration lookup : ListenCalls)
    (first : Round) (rounds : List Round) :
    ∃ rest, (p.start registration lookup first rounds).received =
      listener lookup :: rest := by
  obtain ⟨rest, hrest⟩ := head_loop
    (p.listen registration lookup).restartProgram first rounds
  exact ⟨rest, hrest.trans (by rw [restartProgram, lookupListener_listen])⟩

theorem received_start {p : Process} {first : Round}
    (hfd : fd ∈ (p.start registration lookup first rounds).received) :
    fd = listener lookup ∨ fd = listener registration := by
  have h := received_loop _ _ _ fd hfd
  rw [restartProgram, lookupListener_listen, registrationListener_listen] at h
  exact h

/-- A server whose listeners could not both be opened does not serve, and none
receives from anything but a listener it opened. -/
structure Refuses (registration lookup : ListenCalls) (s : Served) : Prop where
  refused : ¬ (registration.ok ∧ lookup.ok) →
    s.outcome = .returned false ∧ s.received = []
  listeners : ∀ fd ∈ s.received, registration.ok ∧ fd = registration.socket ∨
    lookup.ok ∧ fd = lookup.socket

/-- Whatever the system calls of the two `BeginListening`s return, and whatever
comes in afterwards, the server does as it should on a failure if and only if
there is none. -/
theorem refuses_iff (p : Process) (registration lookup : ListenCalls)
    (first : Round) (rounds : List Round) :
    Refuses registration lookup (p.start registration lookup first rounds) ↔
      registration.ok ∧ lookup.ok := by
  constructor
  · intro h
    by_contra hfailed
    obtain ⟨rest, hrest⟩ := head_start p registration lookup first rounds
    rw [(h.refused hfailed).2] at hrest
    cases hrest
  · rintro ⟨hr, hl⟩
    refine ⟨fun hfailed => absurd ⟨hr, hl⟩ hfailed, fun fd hfd => ?_⟩
    rcases received_start hfd with rfl | rfl
    · exact Or.inr ⟨hl, if_pos hl⟩
    · exact Or.inl ⟨hr, if_pos hr⟩

/-- The lookup port is taken, so `bind` fails, and the first thing the server
does is to receive from descriptor 0, which is no socket. -/
theorem failed_listener_served : ¬ ∀ (p : Process)
    (registration lookup : ListenCalls) (first : Round) (rounds : List Round),
    Refuses registration lookup
      (p.start registration lookup first rounds) := by
  intro h
  have hrefused := (h ⟨new 0 0, false, []⟩ ⟨3, 0, 0, 2, 0⟩ ⟨4, -1, 0, 2, 0⟩
    ⟨fun _ => ⟨[], some (.other 88)⟩, fun _ => ⟨[], some (.other 88)⟩, 5, false⟩
    []).refused (by decide)
  exact absurd hrefused.2 (by decide +kernel)

end SimpleRendezvousServer.Process

end PermanentIP

import PermanentIP.Lib.Polling
import PermanentIP.Proofs.ServerLog
import PermanentIP.Proofs.Start
import PermanentIP.Proofs.SubscriberStream

/-!
# The rendezvous server's loop and its two ports

`Start` polls the lookup port and the registration port in turn, one datagram
from each in a pass, while datagrams come in for both. What the passes find is
what the queues of the two listeners hold, where both could be opened: here the
queues are kept from pass to pass, and only what arrives is given.

Whatever arrives and when, the server handles each datagram once, those of one
port in the order they came, and within as many passes as there are datagrams
before it, however busy the other port is; and all it ever sends is what
`receive` sends on one datagram after the other, up to the first it does not live
through (`serves_in_order`). So a fact about `run` is a fact about the loop.
-/

namespace PermanentIP

open Lib

namespace SimpleRendezvousServer

inductive Port where
  | lookup
  | registration
deriving DecidableEq

/-- The port a datagram comes to, and the datagram. -/
def Event.origin : Event → Port × Packet
  | .lookup p => (.lookup, p)
  | .registration p _ => (.registration, p)

namespace Process

/-- Two listeners that could be opened -/
structure Listeners where
  registration : ListenCalls
  lookup : ListenCalls
  registrationOk : registration.ok = true
  lookupOk : lookup.ok = true
  distinct : registration.socket ≠ lookup.socket

/-- What arrives at the two ports before their turns in a pass, and the rest of
what the pass meets. -/
structure Arrivals where
  packets : Port → List Packet
  updateSocket : Int
  interrupted : Bool

abbrev Queues := Port → List Packet

/-- The queues of listeners that have just been opened. -/
def Queues.empty : Queues := fun _ => []

/-- The order of the two `HandleRequests` of a pass. -/
def ports : List Port := [.lookup, .registration]

/-- What a receive finds: the queue of the port whose listener it is on, and nothing
but an error on a descriptor that is no listener. -/
def Listeners.found (l : Listeners) (queues : Queues) (fd : Int) : Socket :=
  if fd = l.lookup.socket then ⟨queues .lookup, none⟩
  else if fd = l.registration.socket then ⟨queues .registration, none⟩
  else ⟨[], some (.other 9)⟩

def Arrivals.round (a : Arrivals) (l : Listeners) (queues : Queues) : Round where
  lookups := l.found fun port => queues port ++ a.packets port
  registrations := l.found (Function.update (fun port => queues port ++ a.packets port)
    .lookup (queues .lookup ++ a.packets .lookup).tail)
  updateSocket := a.updateSocket
  interrupted := a.interrupted

/-- The queues that a pass leaves. -/
def Arrivals.left (a : Arrivals) (queues : Queues) : Queues :=
  (Polling.pass a.packets ports queues).2

/-- What the passes find, one after the other. -/
def rounds (l : Listeners) (queues : Queues) : List Arrivals → List Round
  | [] => []
  | a :: as => a.round l queues :: rounds l (a.left queues) as

/-- The datagrams a pass handles. -/
def Arrivals.events (a : Arrivals) (queues : Queues) : List Event :=
  (queues .lookup ++ a.packets .lookup).head?.toList.map .lookup ++
    (queues .registration ++ a.packets .registration).head?.toList.map
      (.registration · a.updateSocket)

def events (queues : Queues) : List Arrivals → List Event
  | [] => []
  | a :: as => a.events queues ++ events (a.left queues) as

/-- The passes that are made, up to the first with a signal. -/
def made : List Arrivals → List Arrivals
  | [] => []
  | a :: as => if a.interrupted then [a] else a :: made as

/-- What some datagrams brought to one of the ports. -/
def cameTo (port : Port) (es : List Event) : List Packet :=
  Polling.takenFrom port (es.map Event.origin)

/-- What is queued after some passes. -/
def queued (queues : Queues) (as : List Arrivals) : Queues :=
  (Polling.passes ports (as.map Arrivals.packets) queues).2

variable {srv : SimpleRendezvousServer} {p : Process} {a : Arrivals}
  {as before after : List Arrivals} {queues : Queues} {es fs : List Event}
  {port : Port} {l : Listeners} {r : Round} {stderr : FilePtr}

/-! ## One pass -/

/-- What waits behind a datagram makes no difference to how it is handled. -/
theorem handleRequests_waiting (srv : SimpleRendezvousServer) (fd : Int)
    (isLookup : Bool) (packet : Packet) (rest : List Packet) (updateSocket : Int) :
    let h := srv.handleRequests fd isLookup ⟨packet :: rest, none⟩ updateSocket
    let g := srv.handleRequests fd isLookup ⟨[packet], none⟩ updateSocket
    h.ok = true ∧ h.sent = g.sent ∧ h.server = g.server := by
  simp only [handleRequests, recvfrom_cons _ _ _ _ _ le_sizeofSockAddr]
  split
  · split
    · exact ⟨rfl, rfl, rfl⟩
    · exact ⟨rfl, rfl, rfl⟩
  · next h =>
      have hzero : (0 : Int) ≤ ((packet.payload.take bufferSize).length : Int) :=
        Int.natCast_nonneg _
      simp only [Int.not_lt.mpr hzero, decide_false, Bool.false_and, Bool.not_false,
        and_self]

/-- One turn of a port: the datagram at the head of its queue, if there is one. -/
theorem lookup_turn (srv : SimpleRendezvousServer) (queue : List Packet) :
    let h := srv.handleRequests srv.lookupListener true ⟨queue, none⟩ (-1)
    let es := queue.head?.toList.map Event.lookup
    h.ok = true ∧ h.sent = srv.sends es ∧ h.server = srv.run es := by
  cases queue with
  | nil => exact ⟨rfl, rfl, rfl⟩
  | cons packet rest =>
      obtain ⟨hok, hsent, hserver⟩ := handleRequests_waiting srv
        srv.lookupListener true packet rest (-1)
      exact ⟨hok, hsent.trans (List.append_nil _).symm, hserver⟩

theorem registration_turn (srv : SimpleRendezvousServer) (queue : List Packet)
    (updateSocket : Int) :
    let h := srv.handleRequests srv.registrationListener false ⟨queue, none⟩
      updateSocket
    let es := queue.head?.toList.map (Event.registration · updateSocket)
    h.ok = true ∧ h.sent = srv.sends es ∧ h.server = srv.run es := by
  cases queue with
  | nil => exact ⟨rfl, rfl, rfl⟩
  | cons packet rest =>
      obtain ⟨hok, hsent, hserver⟩ := handleRequests_waiting srv
        srv.registrationListener false packet rest updateSocket
      exact ⟨hok, hsent.trans (List.append_nil _).symm, hserver⟩

/-- The two listeners are the ones that were opened. -/
structure Listens (l : Listeners) (p : Process) : Prop where
  registration : p.server.registrationListener = l.registration.socket
  lookup : p.server.lookupListener = l.lookup.socket

theorem Listens.pass {q : Process} (h : Listens l p)
    (hq : (p.pass r).process = some q) : Listens l q := by
  obtain ⟨hregistration, hlookup⟩ := (pass_cases p r).2.2 q hq
  exact ⟨hregistration.trans h.registration, hlookup.trans h.lookup⟩

theorem Listens.lookups (h : Listens l p) (a : Arrivals) (queues : Queues) :
    (a.round l queues).lookups p.server.lookupListener =
      ⟨queues .lookup ++ a.packets .lookup, none⟩ :=
  if_pos h.lookup

theorem Listens.registrations (h : Listens l p) (a : Arrivals) (queues : Queues) :
    (a.round l queues).registrations p.server.registrationListener =
      ⟨queues .registration ++ a.packets .registration, none⟩ := by
  have hne : Port.registration ≠ Port.lookup := by decide
  simp only [Arrivals.round, Listeners.found, h.registration, if_neg l.distinct, if_true,
    Function.update_of_ne hne]

theorem registrationListener_lookup_turn (srv : SimpleRendezvousServer)
    (queue : List Packet) :
    (srv.run (queue.head?.toList.map Event.lookup)).registrationListener =
      srv.registrationListener := by
  obtain ⟨_, _, hserver⟩ := lookup_turn srv queue
  rw [← hserver]
  exact (listeners_handleRequests srv _ _ _ _).1

/-- A pass handles the head of each queue, and fails on nothing. -/
theorem pass_eq (h : Listens l p) (a : Arrivals) (queues : Queues) :
    (p.pass (a.round l queues)).sent = p.server.sends (a.events queues) ∧
      (p.pass (a.round l queues)).process = some { p with
        server := p.server.run (a.events queues)
        exitFlag := p.exitFlag || a.interrupted } := by
  have hlisten := registrationListener_lookup_turn p.server
    (queues .lookup ++ a.packets .lookup)
  obtain ⟨hok, hsent, hserver⟩ := lookup_turn p.server
    (queues .lookup ++ a.packets .lookup)
  obtain ⟨hok', hsent', hserver'⟩ := registration_turn
    (p.server.run
      ((queues .lookup ++ a.packets .lookup).head?.toList.map Event.lookup))
    (queues .registration ++ a.packets .registration) a.updateSocket
  rw [hlisten] at hok' hsent' hserver'
  simp only [pass, h.lookups, hok, if_true, hserver, hlisten, h.registrations, hsent]
  simp only [Arrivals.round, hok', hsent', hserver', if_true, Arrivals.events,
    sends_append, run_append, and_self]

/-! ## The loop -/

theorem andThen_of_go {s : Pass} {q : Process} (h : s.process = some q)
    (hgo : q.exitFlag = false) (next : Process → Served) :
    (s.andThen next).sent = s.sent ++ (next q).sent ∧
      (s.andThen next).outcome = (next q).outcome := by
  rw [Pass.andThen, h]
  simp only [shouldContinue, hgo, Bool.not_false, if_true, and_self]

theorem andThen_of_stop {s : Pass} {q : Process} (h : s.process = some q)
    (hstop : q.exitFlag = true) (next : Process → Served) :
    (s.andThen next).sent = s.sent ∧
      (s.andThen next).outcome = .returned true := by
  rw [Pass.andThen, h]
  simp only [shouldContinue, hstop, Bool.not_true, Bool.false_eq_true, if_false,
    and_self]

theorem loop_interrupted (h : Listens l p) (queues : Queues) (rs : List Round)
    (hsignal : a.interrupted = true) :
    (p.loop (a.round l queues) rs).sent = p.server.sends (a.events queues) ∧
      (p.loop (a.round l queues) rs).outcome = .returned true := by
  obtain ⟨next, hloop⟩ := loop_eq p (a.round l queues) rs
  obtain ⟨hsent, hprocess⟩ := pass_eq h a queues
  obtain ⟨hsent', houtcome⟩ := andThen_of_stop hprocess (by simp [hsignal]) next
  rw [hloop]
  exact ⟨hsent'.trans hsent, houtcome⟩

theorem made_of_go (h : a.interrupted = false) : made (a :: as) = a :: made as := by
  rw [made, h]
  rfl

/-- The loop handles what its passes take, until a signal comes. -/
theorem loop_served (h : Listens l p) (a : Arrivals) (as : List Arrivals)
    (queues : Queues) (hgo : p.exitFlag = false) :
    (p.loop (a.round l queues) (rounds l (a.left queues) as)).sent =
        p.server.sends (events queues (made (a :: as))) ∧
      (p.loop (a.round l queues) (rounds l (a.left queues) as)).outcome =
        if (a :: as).any Arrivals.interrupted then .returned true else .running := by
  induction as generalizing p a queues with
  | nil =>
      cases hsignal : a.interrupted with
      | true =>
          obtain ⟨hsent, houtcome⟩ := loop_interrupted h queues
            (rounds l (a.left queues) []) hsignal
          simp [hsent, houtcome, made, events, hsignal]
      | false =>
          obtain ⟨hsent, hprocess⟩ := pass_eq h a queues
          obtain ⟨hsent', houtcome⟩ := andThen_of_go hprocess (by simp [hgo, hsignal])
            fun _ => ⟨.running, [], []⟩
          rw [rounds, loop, hsent', houtcome, hsent]
          simp [made, events, hsignal]
  | cons next as ih =>
      cases hsignal : a.interrupted with
      | true =>
          obtain ⟨hsent, houtcome⟩ := loop_interrupted h queues
            (rounds l (a.left queues) (next :: as)) hsignal
          simp [hsent, houtcome, made, events, hsignal]
      | false =>
          obtain ⟨hsent, hprocess⟩ := pass_eq h a queues
          have hgo' : (p.exitFlag || a.interrupted) = false := by simp [hgo, hsignal]
          obtain ⟨hsent', houtcome⟩ := andThen_of_go hprocess hgo'
            fun q => q.loop (next.round l (a.left queues))
              (rounds l (next.left (a.left queues)) as)
          obtain ⟨hrest, hend⟩ := ih (h.pass hprocess) next (a.left queues) hgo'
          rw [rounds, loop, hsent', houtcome, hsent, hrest, hend]
          refine ⟨?_, ?_⟩
          · rw [← sends_append, made_of_go hsignal, events]
          · simp [hsignal]

/-! ## Its lines -/

/-- The lines a pass writes can be written. -/
def LogsPass (p : Process) (r : Round) : Prop :=
  let h := p.server.handleRequests p.server.lookupListener true
    (r.lookups p.server.lookupListener) (-1)
  (∀ x rest, r.lookups p.server.lookupListener = ⟨x :: rest, none⟩ →
    p.server.Logs true x) ∧
  (h.ok = true → ∀ x rest,
    r.registrations h.server.registrationListener = ⟨x :: rest, none⟩ →
      h.server.Logs false x)

/-- The lines of all passes that are made can be. -/
def LogsLoop (p : Process) (r : Round) : List Round → Prop
  | [] => p.LogsPass r
  | next :: rounds => p.LogsPass r ∧ ∀ q, (p.pass r).process = some q →
      q.shouldContinue = true → q.LogsLoop next rounds

theorem does_pass (p : Process) (stderr : FilePtr) (r : Round) :
    Does (p.passWithLog stderr r) (p.LogsPass r) (p.pass r).sent (p.pass r).process := by
  have hlookup : Does (p.server.handleRequestsWithLog stderr p.server.lookupListener true
      (r.lookups p.server.lookupListener) (-1))
    (∀ x rest, r.lookups p.server.lookupListener = ⟨x :: rest, none⟩ →
      p.server.Logs true x)
    (p.server.handleRequests p.server.lookupListener true
      (r.lookups p.server.lookupListener) (-1)).sent
    (p.server.handleRequests p.server.lookupListener true
      (r.lookups p.server.lookupListener) (-1)).left := does_handleRequests
  simp only [passWithLog, pass, LogsPass]
  generalize p.server.handleRequests p.server.lookupListener true
    (r.lookups p.server.lookupListener) (-1) = h at hlookup ⊢
  by_cases hok : h.ok = true
  · simp only [hok, if_true, forall_const]
    refine hlookup.bind ?_
    simp only [Handled.left, hok, if_true]
    exact does_handleRequests.map fun g => if g.1 then
      some { p with server := g.2.1, exitFlag := p.exitFlag || r.interrupted } else none
  · simp only [hok, Bool.false_eq_true, if_false, false_imp_iff, and_true]
    refine hlookup.bind_pure ?_
    simp only [Handled.left, hok, Bool.false_eq_true, if_false]

theorem loop_andThen (s : Pass) (next : Process → Served) :
    (s.process = none → (s.andThen next).sent = s.sent ∧
      (s.andThen next).outcome = .aborted) ∧
    (∀ q, s.process = some q → q.shouldContinue = false →
      (s.andThen next).sent = s.sent ∧ (s.andThen next).outcome = .returned true) ∧
    ∀ q, s.process = some q → q.shouldContinue = true →
      (s.andThen next).sent = s.sent ++ (next q).sent ∧
        (s.andThen next).outcome = (next q).outcome := by
  refine ⟨fun h => ?_, fun q h hstop => ?_, fun q h hgo => ?_⟩
  · simp only [Pass.andThen, h, and_self]
  · exact andThen_of_stop h (by simpa [shouldContinue] using hstop) next
  · exact andThen_of_go h (by simpa [shouldContinue] using hgo) next

/-- The loop comes as far as the loop without its lines, if it can write them. -/
theorem does_loop (p : Process) (stderr : FilePtr) (r : Round) (rs : List Round) :
    Does (p.loopWithLog stderr r rs) (p.LogsLoop r rs) (p.loop r rs).sent
      (p.loop r rs).outcome := by
  induction rs generalizing p r with
  | nil =>
      obtain ⟨hnone, hend, hgoes⟩ := loop_andThen (p.pass r) fun _ => ⟨.running, [], []⟩
      have hlast (q : Process) : Does (pure .running : Lib.Outcome Sent Failure Outcome)
        True [] .running := does_pure _
      exact (does_andThen (does_pass p stderr r) hlast hnone hend hgoes).congr
        (and_iff_left fun _ _ _ => trivial)
  | cons next rs ih =>
      obtain ⟨hnone, hend, hgoes⟩ := loop_andThen (p.pass r) fun q => q.loop next rs
      exact does_andThen (does_pass p stderr r) (fun q => ih q next) hnone hend hgoes

theorem goesOn_head_iff {srv : SimpleRendezvousServer} {queue : List Packet}
    (isLookup : Bool) {event : Packet → Event}
    (hevent : ∀ x, srv.LogsEvent (event x) ↔ srv.Logs isLookup x) :
    goesOn LogsEvent next srv (queue.head?.toList.map event) ↔
      ∀ x rest, (⟨queue, none⟩ : Socket) = ⟨x :: rest, none⟩ → srv.Logs isLookup x := by
  cases queue with
  | nil => exact iff_of_true trivial fun x rest h => nomatch h
  | cons y ys =>
      have hhead : goesOn LogsEvent next srv ((y :: ys).head?.toList.map event) ↔
        srv.LogsEvent (event y) := and_iff_left trivial
      rw [hhead, hevent]
      constructor
      · intro h x rest heq
        cases heq
        exact h
      · exact fun h => h y ys rfl

theorem logsPass_iff (h : Listens l p) (a : Arrivals) (queues : Queues) :
    p.LogsPass (a.round l queues) ↔
      goesOn LogsEvent next p.server (a.events queues) := by
  have hlisten := registrationListener_lookup_turn p.server
    (queues .lookup ++ a.packets .lookup)
  obtain ⟨hok, _, hserver⟩ := lookup_turn p.server
    (queues .lookup ++ a.packets .lookup)
  rw [LogsPass, Arrivals.events, goesOn_append,
    goesOn_head_iff true fun _ => Iff.rfl, goesOn_head_iff false fun _ => Iff.rfl]
  simp only [h.lookups, hok, forall_const, hserver, hlisten, h.registrations]
  rfl

/-- The lines are those about the datagrams the passes handle. -/
theorem logsLoop_iff (h : Listens l p) (queues : Queues) (hgo : p.exitFlag = false) :
    p.LogsLoop (a.round l queues) (rounds l (a.left queues) as) ↔
      goesOn LogsEvent next p.server (events queues (made (a :: as))) := by
  induction as generalizing p a queues with
  | nil =>
      have hmade : made [a] = [a] := by
        rw [made, made, ite_self]
      rw [rounds, LogsLoop, logsPass_iff h, hmade, events, events, List.append_nil]
  | cons b as ih =>
      obtain ⟨_, hprocess⟩ := pass_eq h a queues
      rw [rounds, LogsLoop, logsPass_iff h, hprocess]
      cases hsignal : a.interrupted with
      | true =>
          have hmade : made (a :: b :: as) = [a] := by
            rw [made, if_pos hsignal]
          rw [hmade, events, events, List.append_nil]
          refine and_iff_left fun q hq hgo' => ?_
          cases hq
          simp [shouldContinue] at hgo'
      | false =>
          have hgo' : (p.exitFlag || false) = false := by rw [hgo, Bool.or_false]
          rw [hsignal] at hprocess
          rw [made_of_go hsignal, events, goesOn_append]
          refine and_congr_right fun _ => ?_
          refine Iff.trans ?_ (ih (h.pass hprocess) (a := b) (a.left queues) hgo')
          constructor
          · exact fun hall => hall _ rfl (by simp [shouldContinue, hgo])
          · intro hall q hq _
            cases hq
            exact hall

/-! ## The queues -/

theorem map_origin_pass (a : Arrivals) (queues : Queues) :
    (a.events queues).map Event.origin =
      (Polling.pass a.packets ports queues).1 := by
  have hne : Port.registration ≠ Port.lookup := by decide
  simp only [Arrivals.events, Polling.pass, ports, List.map_append, List.map_map,
    Function.update_of_ne hne, List.append_nil]
  rfl

theorem map_origin_events (queues : Queues) (as : List Arrivals) :
    (events queues as).map Event.origin =
      (Polling.passes ports (as.map Arrivals.packets) queues).1 := by
  induction as generalizing queues with
  | nil => rfl
  | cons a as ih =>
      rw [events, List.map_append, map_origin_pass, ih, List.map_cons,
        Polling.passes]
      rfl

theorem nodup_ports : ports.Nodup := by decide

theorem mem_ports (port : Port) : port ∈ ports := by
  cases port <;> decide

theorem arrivedAt_map (port : Port) (as : List Arrivals) :
    Polling.arrivedAt port (as.map Arrivals.packets) =
      as.flatMap fun a => a.packets port :=
  List.flatMap_map ..

/-- The two listeners a server has after `BeginListening` has opened them. -/
theorem server_listen (p : Process) (l : Listeners) :
    (p.listen l.registration l.lookup).server = { p.server with
      registrationListener := l.registration.socket
      lookupListener := l.lookup.socket } := by
  simp [listen, beginListening_eq, l.registrationOk, l.lookupOk]

/-- From its first pass to a signal, or to a datagram it does not live through, a
server that could open its listeners handles what comes to its two ports: each
datagram once, those of a port in order, none kept waiting by the other port; and it
sends what those datagrams make it send, one by one. -/
theorem serves_in_order (rl ll : Int) (exitFlag : Bool) (closed : List Int)
    (stderr : FilePtr) (l : Listeners) (first : Arrivals) (rest : List Arrivals) :
    let served := startWithLog ⟨new rl ll, exitFlag, closed⟩ stderr l.registration
      l.lookup (first.round l Queues.empty) (rounds l (first.left Queues.empty) rest)
    let passes := made (first :: rest)
    let es := events Queues.empty passes
    Does served (Lives es) ((new l.registration.socket l.lookup.socket).sends es)
      (if (first :: rest).any Arrivals.interrupted then .returned true else .running) ∧
    (∀ port, cameTo port es ++ queued Queues.empty passes port =
      passes.flatMap fun a => a.packets port) ∧
    ∀ port before after, passes = before ++ after →
      (queued Queues.empty before port).length ≤ after.length →
      (before.flatMap fun a => a.packets port) <+: cameTo port es := by
  intro served passes es
  let p := (listen ⟨new rl ll, exitFlag, closed⟩ l.registration l.lookup).restartProgram
  have hserver : p.server = new l.registration.socket l.lookup.socket :=
    server_listen _ l
  have hlistens : Listens l p := ⟨by rw [hserver]; rfl, by rw [hserver]; rfl⟩
  refine ⟨?_, ?_, ?_⟩
  · obtain ⟨hsent, houtcome⟩ := loop_served hlistens first rest Queues.empty rfl
    have hdoes := does_loop p stderr (first.round l Queues.empty)
      (rounds l (first.left Queues.empty) rest)
    rw [hsent, houtcome, hserver] at hdoes
    refine hdoes.congr ?_
    rw [logsLoop_iff hlistens Queues.empty rfl, hserver]
    exact goesOn_iff_lives _ _ es
  · intro port
    rw [← arrivedAt_map, cameTo, map_origin_events]
    exact Polling.takenFrom_append_passes _ _ nodup_ports (mem_ports port)
  · intro port before after hpasses hle
    have hprompt := Polling.arrivedAt_prefix_takenFrom
      (before.map Arrivals.packets) (after.map Arrivals.packets) Queues.empty
      nodup_ports (mem_ports port) (by rwa [List.length_map])
    rwa [arrivedAt_map, ← List.map_append, ← hpasses, ← map_origin_events]
      at hprompt

end Process

end SimpleRendezvousServer

end PermanentIP

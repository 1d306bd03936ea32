import PermanentIP.Proofs.Subscriptions
import PermanentIP.Proofs.SubscriberStream
import PermanentIP.Proofs.EchoCalls

/-!
# Sessions of one client, one after the other

One server that keeps running, and one node that starts an `EchoApp`, connects,
uses it, shuts it down, and starts again under the same name and port. A lookup
switches the subscription, `ShutDown` sends nothing, and the server outlives
the sessions; so whether the client is subscribed is the parity of the lookups
that switched (`subscribed_iff_odd`), of whichever session they were.

`SessionInv` relates these to the sessions that connected. A lookup answered
with an empty address has found no key and switched nothing, unless the empty
address is that of a key, and a call of `RegisterPeer` may take another
datagram on its socket for its answer. In a run where neither happens
(`RepliesMatch`) the two counts agree outside `RegisterPeer`, and the client is
subscribed in its first session, its third, and so on, and in no other
(`subscribed_iff_odd_sessions`).
-/

namespace PermanentIP

open Lib SimpleMobileNode SimpleRendezvousServer

namespace Sessions

/-- A node's application as constructed, and what the DNS answers for its
peer. -/
structure Client where
  app : EchoApp
  rsAddr : PhysicalAddress
  rsAddr_ne : rsAddr ≠ []

namespace Client

/-- The pair the client's lookups are meant to be from. -/
def subscriber (c : Client) : Subscriber :=
  ⟨c.app.logicalAddress, htons c.app.appPort⟩

def lookup (c : Client) (ip : UInt32) : Packet :=
  ⟨⟨netV4, htons c.app.appPort, ip⟩,
    lookupRequest c.app.logicalAddress c.app.peerAddr⟩

def Switches (c : Client) (srv : SimpleRendezvousServer) (q : Packet) : Prop :=
  ∃ call ∈ (Event.lookup q).call?, Toggles c.subscriber c.app.peerAddr srv call

instance (c : Client) (srv : SimpleRendezvousServer) (q : Packet) :
    Decidable (c.Switches srv q) :=
  inferInstanceAs (Decidable (∃ call ∈ (Event.lookup q).call?, _))

/-- The names are such that a lookup arrives as it was built. -/
structure Readable (c : Client) : Prop where
  nulFree : NulFree c.app.logicalAddress
  noBar : bar ∉ c.app.logicalAddress
  peerNulFree : NulFree c.app.peerAddr
  short : c.app.logicalAddress.length + 1 + c.app.peerAddr.length < bufferSize

end Client

/-- Where a session is: not begun; before a call of `RegisterPeer`, with what
`backoff` is then; in the call, waiting; through `ConnectToPeer`. -/
inductive Pc where
  | idle
  | registering (backoff : Nat)
  | waiting (backoff : Nat)
  | connected
deriving DecidableEq

/-- `requests` and `replies` are under way, and `queue` is what the app socket
holds, the replies to the client's lookups marked. `effective` counts the
lookups that switched the subscription, and `sessions` the calls of
`ConnectToPeer` that returned true. -/
structure State where
  server : SimpleRendezvousServer
  app : EchoApp
  pc : Pc
  requests : List Packet
  replies : List Packet
  queue : List (Bool × Packet)
  effective : Nat
  sessions : Nat

def State.init (c : Client) (rl ll : Int) : State :=
  ⟨.new rl ll, c.app, .idle, [], [], [], 0, 0⟩

inductive Action where
  | start (ip : Int32) (setUp : EchoApp.SocketSetUp)
  | send (ip : UInt32)
  | serve (serverAddr : SockAddr)
  | deliver
  | arrive (p : Packet)
  | receive
  | shutDown
  | other (e : Event)

def step (c : Client) (s : State) : Action → Option State
  | .start ip setUp =>
      if s.pc = .idle then
        let app := { c.app.createMobileNodeDelegate ip with
          appSocket := setUp.socket }
        let pc := if setUp.ok then .registering 1 else .idle
        some { s with app := app, pc := pc, queue := [] }
      else none
  | .send ip =>
      match s.pc with
      | .registering backoff =>
          some { s with
            pc := .waiting backoff
            requests := s.requests ++ [c.lookup ip] }
      | .idle | .waiting _ | .connected => none
  | .serve serverAddr =>
      match s.requests with
      | [] => none
      | q :: requests =>
          let h := s.server.receive (.lookup q)
          some { s with
            server := h.server
            requests := requests
            replies := s.replies ++ h.sent.map fun d => ⟨serverAddr, d.payload⟩
            effective :=
              if c.Switches s.server q then s.effective + 1 else s.effective }
  | .deliver =>
      match s.replies with
      | [] => none
      | r :: replies =>
          some { s with replies := replies, queue := s.queue ++ [(true, r)] }
  | .arrive p => some { s with queue := s.queue ++ [(false, p)] }
  | .receive =>
      match s.pc, s.queue with
      | .waiting backoff, (_, q) :: queue =>
          let app := s.app.registerPeer c.rsAddr (readReply q)
          if app.peerInfo = none then
            let pc :=
              if backoff > maxAttempts then .idle else .registering (backoff + 1)
            some { s with app := app, pc := pc, queue := queue }
          else
            some { s with
              app := app.fillPeerContainer
              pc := .connected
              queue := queue
              sessions := s.sessions + 1 }
      | .waiting _, [] | .idle, _ | .registering _, _ | .connected, _ => none
  | .shutDown =>
      if s.pc = .connected then some { s with pc := .idle, queue := [] } else none
  | .other e =>
      -- registrations, and lookups under other names
      if ∀ r ∈ e.lookup?, r.1.name ≠ c.app.logicalAddress then
        some { s with server := s.server.next e }
      else none

/-- `RegisterPeer` reads the reply to its own lookup, and no reply is the empty
address of a key. -/
def RepliesMatch (c : Client) (s : State) : Action → Prop
  | .serve _ => c.app.peerAddr ∈ s.server.registeredNames →
      UnorderedMap.get s.server.registeredNames c.app.peerAddr ≠ []
  | .receive => ∀ x ∈ s.queue.head?, x.1 = true
  | .start .. | .send _ | .deliver | .arrive _ | .shutDown | .other _ => True

instance (c : Client) (s : State) (a : Action) : Decidable (RepliesMatch c s a) := by
  cases a <;> unfold RepliesMatch <;> infer_instance

variable {c : Client} {s u : State} {a : Action} {acts : List Action}
  {rl ll : Int} {q r : Packet}

/-! ## One lookup -/

namespace Client

theorem mem_next_lookup (c : Client) (srv : SimpleRendezvousServer) (q : Packet) :
    c.subscriber ∈ (srv.next (.lookup q)).subscribers c.app.peerAddr ↔
      if c.Switches srv q then c.subscriber ∉ srv.subscribers c.app.peerAddr
      else c.subscriber ∈ srv.subscribers c.app.peerAddr := by
  rw [next_eq_call]
  by_cases h : c.Switches srv q
  · rw [if_pos h]
    obtain ⟨call, hcall, htoggles⟩ := h
    rw [Option.mem_def.mp hcall]
    exact mem_call_of_toggles htoggles
  · rw [if_neg h]
    rcases hcall : (Event.lookup q).call? with _ | call
    · exact Iff.rfl
    · exact mem_call_of_not_toggles fun ht => h ⟨call, hcall, ht⟩

theorem payload_lookup_ne (c : Client) (ip : UInt32) : (c.lookup ip).payload ≠ [] :=
  lookupRequest_ne_nil _ _

theorem Readable.parse (hc : c.Readable) (ip : UInt32) :
    parseLookup (c.lookup ip).text = (c.app.logicalAddress, c.app.peerAddr) := by
  have hlen := length_lookupRequest c.app.logicalAddress c.app.peerAddr
  have hshort := hc.short
  rw [lookup, text_of_lt (nulFree_lookupRequest hc.nulFree hc.peerNulFree) (by omega),
    parseLookup_lookupRequest hc.noBar]

theorem Readable.switches_iff (hc : c.Readable) (ip : UInt32)
    (srv : SimpleRendezvousServer) :
    c.Switches srv (c.lookup ip) ↔ c.app.peerAddr ∈ srv.registeredNames := by
  have hcall : (Event.lookup (c.lookup ip)).call? =
      some (.changeSubscription c.subscriber c.app.peerAddr) := by
    rw [Event.call?, Event.lookup?, if_neg (c.payload_lookup_ne ip), hc.parse]
    rfl
  rw [Switches, hcall]
  simp [Toggles]

/-- The reply is one datagram, and decodes to what the registry has. -/
theorem Readable.receive_lookup (hc : c.Readable) (hll : 0 ≤ ll) (ip : UInt32)
    (es : List Event) (serverAddr : SockAddr) :
    ∃ r, (((new rl ll).run es).receive (.lookup (c.lookup ip))).sent.map
        (fun d => (⟨serverAddr, d.payload⟩ : Packet)) = [r] ∧
      readReply r =
        UnorderedMap.get ((new rl ll).run es).registeredNames c.app.peerAddr := by
  obtain ⟨o, ho⟩ := holdsAddresses_run rl ll es c.app.peerAddr
  have hlistener : ¬ ((new rl ll).run es).lookupListener < 0 := by
    rw [lookupListener_run]
    show ¬ ll < 0
    omega
  refine ⟨⟨serverAddr, replyBuffer (addressText o) (c.lookup ip)⟩, ?_, ?_⟩
  · rw [(SimpleRendezvousServer.receive_lookup (c.payload_lookup_ne ip)).2, hc.parse,
      ho, sendto, if_neg hlistener]
    rfl
  · rw [readReply_addressText, ho]

end Client

/-! ## One step -/

/-- What each step does where it is enabled; a `receive` is refused or
connects. -/
inductive Stepped (c : Client) (s : State) : Action → State → Prop
  | start (ip : Int32) (setUp : EchoApp.SocketSetUp) (hpc : s.pc = .idle) :
      Stepped c s (.start ip setUp) { s with
        app := { c.app.createMobileNodeDelegate ip with appSocket := setUp.socket }
        pc := if setUp.ok then .registering 1 else .idle
        queue := [] }
  | send (ip : UInt32) {backoff : Nat} (hpc : s.pc = .registering backoff) :
      Stepped c s (.send ip) { s with
        pc := .waiting backoff
        requests := s.requests ++ [c.lookup ip] }
  | serve (serverAddr : SockAddr) {q : Packet} {requests : List Packet}
      (hreq : s.requests = q :: requests) :
      Stepped c s (.serve serverAddr) { s with
        server := (s.server.receive (.lookup q)).server
        requests := requests
        replies := s.replies ++ (s.server.receive (.lookup q)).sent.map
          fun d => ⟨serverAddr, d.payload⟩
        effective :=
          if c.Switches s.server q then s.effective + 1 else s.effective }
  | deliver {r : Packet} {replies : List Packet} (hreplies : s.replies = r :: replies) :
      Stepped c s .deliver { s with
        replies := replies
        queue := s.queue ++ [(true, r)] }
  | arrive (p : Packet) :
      Stepped c s (.arrive p) { s with queue := s.queue ++ [(false, p)] }
  | refused {backoff : Nat} {own : Bool} {q : Packet} {queue : List (Bool × Packet)}
      (hpc : s.pc = .waiting backoff) (hqueue : s.queue = (own, q) :: queue)
      (hnone : (s.app.registerPeer c.rsAddr (readReply q)).peerInfo = none) :
      Stepped c s .receive { s with
        app := s.app.registerPeer c.rsAddr (readReply q)
        pc := if backoff > maxAttempts then .idle else .registering (backoff + 1)
        queue := queue }
  | connected {backoff : Nat} {own : Bool} {q : Packet}
      {queue : List (Bool × Packet)} (hpc : s.pc = .waiting backoff)
      (hqueue : s.queue = (own, q) :: queue)
      (hsome : (s.app.registerPeer c.rsAddr (readReply q)).peerInfo ≠ none) :
      Stepped c s .receive { s with
        app := (s.app.registerPeer c.rsAddr (readReply q)).fillPeerContainer
        pc := .connected
        queue := queue
        sessions := s.sessions + 1 }
  | shutDown (hpc : s.pc = .connected) :
      Stepped c s .shutDown { s with pc := .idle, queue := [] }
  | other (e : Event) (hother : ∀ r ∈ e.lookup?, r.1.name ≠ c.app.logicalAddress) :
      Stepped c s (.other e) { s with server := s.server.next e }

theorem stepped (hs : step c s a = some u) : Stepped c s a u := by
  cases a with
  | start ip setUp =>
      rw [step, Option.ite_none_right_eq_some] at hs
      obtain ⟨hpc, hs⟩ := hs
      cases hs
      exact .start ip setUp hpc
  | send ip =>
      rw [step] at hs
      split at hs
      · next hpc =>
          cases hs
          exact .send ip hpc
      · cases hs
      · cases hs
      · cases hs
  | serve serverAddr =>
      rw [step] at hs
      split at hs
      · cases hs
      · next hreq =>
          cases hs
          exact .serve serverAddr hreq
  | deliver =>
      rw [step] at hs
      split at hs
      · cases hs
      · next hreplies =>
          cases hs
          exact .deliver hreplies
  | arrive p =>
      cases hs
      exact .arrive p
  | receive =>
      rw [step] at hs
      split at hs
      · next hpc hqueue =>
          simp only at hs
          split at hs
          · next hnone =>
              cases hs
              exact .refused hpc hqueue hnone
          · next hsome =>
              cases hs
              exact .connected hpc hqueue hsome
      · cases hs
      · cases hs
      · cases hs
      · cases hs
  | shutDown =>
      rw [step, Option.ite_none_right_eq_some] at hs
      obtain ⟨hpc, hs⟩ := hs
      cases hs
      exact .shutDown hpc
  | other e =>
      rw [step, Option.ite_none_right_eq_some] at hs
      obtain ⟨hother, hs⟩ := hs
      cases hs
      exact .other e hother

/-- What a step does to the server, which no step but two touches, and to the
sessions: each call of `ConnectToPeer` that returns true counts one, and no
other step counts any, or connects. -/
theorem step_cases (hs : step c s a = some u) :
    ((∃ serverAddr, a = .serve serverAddr) ∨
      (∃ e, u.server = s.server.next e ∧ u.effective = s.effective ∧
        ∀ r ∈ e.lookup?, r.1.name ≠ c.app.logicalAddress) ∨
      (u.server = s.server ∧ u.effective = s.effective)) ∧
    ((u.sessions = s.sessions ∧ (u.pc = .connected → s.pc = .connected)) ∨
      (u.sessions = s.sessions + 1 ∧ u.pc = .connected)) := by
  cases stepped hs with
  | start ip setUp =>
      refine ⟨Or.inr (Or.inr ⟨rfl, rfl⟩), Or.inl ⟨rfl, fun hpc => ?_⟩⟩
      simp only at hpc
      split at hpc <;> cases hpc
  | refused =>
      refine ⟨Or.inr (Or.inr ⟨rfl, rfl⟩), Or.inl ⟨rfl, fun hpc => ?_⟩⟩
      simp only at hpc
      split at hpc <;> cases hpc
  | serve serverAddr => exact ⟨Or.inl ⟨serverAddr, rfl⟩, Or.inl ⟨rfl, id⟩⟩
  | deliver | arrive => exact ⟨Or.inr (Or.inr ⟨rfl, rfl⟩), Or.inl ⟨rfl, id⟩⟩
  | send | shutDown =>
      exact ⟨Or.inr (Or.inr ⟨rfl, rfl⟩), Or.inl ⟨rfl, fun hpc => by cases hpc⟩⟩
  | connected => exact ⟨Or.inr (Or.inr ⟨rfl, rfl⟩), Or.inr ⟨rfl, rfl⟩⟩
  | other e hother => exact ⟨Or.inr (Or.inl ⟨e, rfl, rfl, hother⟩), Or.inl ⟨rfl, id⟩⟩

/-! ## The parity of the lookups -/

def ParityInv (c : Client) (s : State) : Prop :=
  c.subscriber ∈ s.server.subscribers c.app.peerAddr ↔ Odd s.effective

theorem parityInv_init : ParityInv c (.init c rl ll) :=
  iff_of_false (OrdSet.not_mem_empty _) (by simp [State.init])

theorem ParityInv.serve (h : ParityInv c s) {serverAddr : SockAddr}
    (hs : step c s (.serve serverAddr) = some u) : ParityInv c u := by
  cases stepped hs with
  | serve =>
      refine (c.mem_next_lookup s.server _).trans ?_
      simp only
      split
      · rw [Nat.odd_add_one]
        exact not_congr h
      · exact h

theorem ParityInv.step (h : ParityInv c s) (hs : step c s a = some u) :
    ParityInv c u := by
  rcases (step_cases hs).1 with
    ⟨serverAddr, rfl⟩ | ⟨e, hserver, heff, hother⟩ | ⟨hserver, heff⟩
  · exact h.serve hs
  · rw [ParityInv, hserver, heff]
    refine (mem_subscribers_next ?_).trans h
    intro m hl
    exact hother _ hl rfl
  · rw [ParityInv, hserver, heff]
    exact h

/-- In every state of every run, the client is subscribed to its peer after an
odd number of lookups that found the peer a key. -/
theorem subscribed_iff_odd (h : Run (step c) Always (.init c rl ll) acts s) :
    c.subscriber ∈ s.server.subscribers c.app.peerAddr ↔ Odd s.effective :=
  h.invariant parityInv_init fun _ _ _ ht _ hs => ht.step hs

/-! ## Where the one reply is -/

/-- The replies to the client's lookups that have not been received. -/
def State.own (s : State) : List Packet :=
  (s.queue.filter Prod.fst).map Prod.snd ++ s.replies

/-- What a reply adds to the sessions once it is received. -/
def credit (r : Packet) : Nat := if readReply r = [] then 0 else 1

/-- Nothing is under way, and every lookup that found the peer a key has
connected a session. -/
structure Settled (s : State) : Prop where
  requests : s.requests = []
  own : s.own = []
  effective : s.effective = s.sessions

/-- The lookup of the call is under way, or its reply is. -/
def Awaiting (c : Client) (s : State) : Prop :=
  (∃ ip, s.requests = [c.lookup ip] ∧ s.own = [] ∧ s.effective = s.sessions) ∨
    ∃ r, s.requests = [] ∧ s.own = [r] ∧ s.effective = s.sessions + credit r

def Pc.Owes (c : Client) (s : State) : Pc → Prop
  | .waiting _ => Awaiting c s
  | .idle | .registering _ | .connected => Settled s

theorem Pc.Owes.congr {pc pc' : Pc} (h : pc.Owes c s) (hpc : pc' = pc)
    (hown : u.own = s.own) (hreq : u.requests = s.requests)
    (hcount : u.effective = s.effective ∧ u.sessions = s.sessions) :
    pc'.Owes c u := by
  subst hpc
  cases pc' with
  | waiting backoff =>
      show Awaiting c u
      rw [Awaiting, hown, hreq, hcount.1, hcount.2]
      exact h
  | idle =>
      exact ⟨hreq.trans h.requests, hown.trans h.own, by
        rw [hcount.1, hcount.2, h.effective]⟩
  | registering backoff =>
      exact ⟨hreq.trans h.requests, hown.trans h.own, by
        rw [hcount.1, hcount.2, h.effective]⟩
  | connected =>
      exact ⟨hreq.trans h.requests, hown.trans h.own, by
        rw [hcount.1, hcount.2, h.effective]⟩

/-- The server is one that has run, and a session owes a lookup or a reply only
inside `RegisterPeer`. -/
structure SessionInv (c : Client) (rl ll : Int) (s : State) : Prop where
  server : ∃ es, s.server = (new rl ll).run es
  owes : s.pc.Owes c s

theorem sessionInv_init : SessionInv c rl ll (.init c rl ll) where
  server := ⟨[], rfl⟩
  owes := ⟨rfl, rfl, rfl⟩

theorem SessionInv.start (h : SessionInv c rl ll s) {ip : Int32}
    {setUp : EchoApp.SocketSetUp} (hs : step c s (.start ip setUp) = some u) :
    SessionInv c rl ll u := by
  cases stepped hs with
  | start _ _ hidle =>
      have howes := h.owes
      rw [hidle] at howes
      obtain ⟨_, hreplies⟩ := List.append_eq_nil_iff.mp howes.own
      refine ⟨h.server, ?_⟩
      simp only
      split
      · exact ⟨howes.requests, hreplies, howes.effective⟩
      · exact ⟨howes.requests, hreplies, howes.effective⟩

theorem SessionInv.send (h : SessionInv c rl ll s) {ip : UInt32}
    (hs : step c s (.send ip) = some u) : SessionInv c rl ll u := by
  cases stepped hs with
  | send _ hpc =>
      have howes := h.owes
      rw [hpc] at howes
      refine ⟨h.server, Or.inl ⟨ip, ?_, howes.own, howes.effective⟩⟩
      show s.requests ++ [c.lookup ip] = [c.lookup ip]
      rw [howes.requests]
      rfl

/-- A request under way is the one of the call that waits. -/
theorem SessionInv.request (h : SessionInv c rl ll s) {requests : List Packet}
    (hreq : s.requests = q :: requests) :
    ∃ ip, q = c.lookup ip ∧ requests = [] ∧ s.own = [] ∧
      s.effective = s.sessions ∧ ∃ backoff, s.pc = .waiting backoff := by
  have howes := h.owes
  cases hpc : s.pc with
  | waiting backoff =>
      rw [hpc] at howes
      rcases howes with ⟨ip, hreq', hown, heff⟩ | ⟨r, hreq', _⟩
      · rw [hreq] at hreq'
        injection hreq' with hq hrest
        exact ⟨ip, hq, hrest, hown, heff, backoff, rfl⟩
      · rw [hreq] at hreq'
        cases hreq'
  | idle =>
      rw [hpc] at howes
      rw [howes.requests] at hreq
      cases hreq
  | registering backoff =>
      rw [hpc] at howes
      rw [howes.requests] at hreq
      cases hreq
  | connected =>
      rw [hpc] at howes
      rw [howes.requests] at hreq
      cases hreq

/-- The lookup is counted when it is handled and its session when the reply is
received; the reply says in between whether it will be. -/
theorem SessionInv.serve (h : SessionInv c rl ll s) (hc : c.Readable) (hll : 0 ≤ ll)
    {serverAddr : SockAddr} (hg : RepliesMatch c s (.serve serverAddr))
    (hs : step c s (.serve serverAddr) = some u) : SessionInv c rl ll u := by
  cases stepped hs with
  | serve _ hreq =>
      obtain ⟨es, hes⟩ := h.server
      obtain ⟨ip, rfl, rfl, hown, heff, backoff, hpc⟩ := h.request hreq
      obtain ⟨r, hsent, hread⟩ := hc.receive_lookup hll ip es serverAddr
      rw [← hes] at hsent hread
      refine ⟨⟨es ++ [.lookup (c.lookup ip)], ?_⟩, ?_⟩
      · show s.server.next _ = _
        rw [hes, run_snoc]
      · simp only [hpc]
        refine Or.inr ⟨r, rfl, ?_, ?_⟩
        · show _ ++ (s.replies ++ _) = _
          rw [hsent, ← List.append_assoc]
          exact congrArg (· ++ [r]) hown
        · show (if _ then s.effective + 1 else s.effective) = s.sessions + _
          rw [credit, hread, ← heff]
          split
          · next h => rw [if_neg (hg ((hc.switches_iff ip _).mp h))]
          · next h =>
              have hnil : UnorderedMap.get s.server.registeredNames
                  c.app.peerAddr = [] :=
                UnorderedMap.get_of_notMem (mt (hc.switches_iff ip _).mpr h)
              rw [if_pos hnil, Nat.add_zero]

theorem SessionInv.deliver (h : SessionInv c rl ll s)
    (hs : step c s .deliver = some u) : SessionInv c rl ll u := by
  cases stepped hs with
  | @deliver r replies hreplies =>
      refine ⟨h.server, h.owes.congr rfl ?_ rfl ⟨rfl, rfl⟩⟩
      show ((s.queue ++ [(true, r)]).filter _).map _ ++ replies =
        (s.queue.filter _).map _ ++ s.replies
      rw [hreplies, List.filter_append, List.map_append, List.append_assoc]
      rfl

theorem SessionInv.arrive (h : SessionInv c rl ll s) {p : Packet}
    (hs : step c s (.arrive p) = some u) : SessionInv c rl ll u := by
  cases stepped hs with
  | arrive =>
      refine ⟨h.server, h.owes.congr rfl ?_ rfl ⟨rfl, rfl⟩⟩
      show ((s.queue ++ [(false, p)]).filter _).map _ ++ s.replies = _
      rw [List.filter_append, List.map_append]
      exact congrArg (· ++ s.replies) (List.append_nil _)

/-- The reply a waiting call takes is its own, and the last thing under way. -/
theorem SessionInv.taken (h : SessionInv c rl ll s) (hg : RepliesMatch c s .receive)
    {backoff : Nat} {own : Bool} {queue : List (Bool × Packet)}
    (hpc : s.pc = .waiting backoff) (hqueue : s.queue = (own, q) :: queue) :
    s.requests = [] ∧ (queue.filter Prod.fst).map Prod.snd ++ s.replies = [] ∧
      s.effective = s.sessions + credit q := by
  obtain rfl : own = true := hg (own, q) (by rw [hqueue]; rfl)
  have howes := h.owes
  rw [hpc] at howes
  have hown : s.own = q :: ((queue.filter Prod.fst).map Prod.snd ++ s.replies) := by
    rw [State.own, hqueue]
    rfl
  obtain ⟨r, hreq, hr, heff⟩ := howes.resolve_left fun ⟨_, _, hnil, _⟩ => by
    rw [hown] at hnil
    cases hnil
  rw [hown] at hr
  injection hr with hq hrest
  subst hq
  exact ⟨hreq, hrest, heff⟩

/-- The call takes its own reply and nothing is under way any more; an answer
connects the session, and an empty one has found no key. -/
theorem SessionInv.receive (h : SessionInv c rl ll s)
    (hg : RepliesMatch c s .receive) (hs : step c s .receive = some u) :
    SessionInv c rl ll u := by
  cases stepped hs with
  | @refused _ _ q _ hpc hqueue hnone =>
      obtain ⟨hreq, hrest, heff⟩ := h.taken hg hpc hqueue
      have hloc : readReply q = [] := by
        rcases s.app.registerPeer_cases c.rsAddr (readReply q) with
          ⟨_, _, heq⟩ | ⟨hnil, _⟩
        · rw [heq] at hnone
          cases hnone
        · exact hnil.resolve_left c.rsAddr_ne
      rw [credit, if_pos hloc] at heff
      refine ⟨h.server, ?_⟩
      simp only
      split
      · exact ⟨hreq, hrest, heff⟩
      · exact ⟨hreq, hrest, heff⟩
  | @connected _ _ q _ hpc hqueue hsome =>
      obtain ⟨hreq, hrest, heff⟩ := h.taken hg hpc hqueue
      have hloc : readReply q ≠ [] := by
        rcases s.app.registerPeer_cases c.rsAddr (readReply q) with
          ⟨_, hloc, _⟩ | ⟨_, heq⟩
        · exact hloc
        · rw [heq] at hsome
          exact absurd rfl hsome
      rw [credit, if_neg hloc] at heff
      exact ⟨h.server, hreq, hrest, heff⟩

theorem SessionInv.shutDown (h : SessionInv c rl ll s)
    (hs : step c s .shutDown = some u) : SessionInv c rl ll u := by
  cases stepped hs with
  | shutDown hpc =>
      have howes := h.owes
      rw [hpc] at howes
      obtain ⟨_, hreplies⟩ := List.append_eq_nil_iff.mp howes.own
      exact ⟨h.server, howes.requests, hreplies, howes.effective⟩

theorem SessionInv.other (h : SessionInv c rl ll s) {e : Event}
    (hs : step c s (.other e) = some u) : SessionInv c rl ll u := by
  cases stepped hs with
  | other =>
      obtain ⟨es, hes⟩ := h.server
      refine ⟨⟨es ++ [e], ?_⟩, h.owes.congr rfl rfl rfl ⟨rfl, rfl⟩⟩
      show s.server.next e = _
      rw [hes, run_snoc]

theorem SessionInv.step (h : SessionInv c rl ll s) (hc : c.Readable) (hll : 0 ≤ ll)
    (hg : RepliesMatch c s a) (hs : step c s a = some u) :
    SessionInv c rl ll u := by
  cases a with
  | start ip setUp => exact h.start hs
  | send ip => exact h.send hs
  | serve serverAddr => exact h.serve hc hll hg hs
  | deliver => exact h.deliver hs
  | arrive p => exact h.arrive hs
  | receive => exact h.receive hg hs
  | shutDown => exact h.shutDown hs
  | other e => exact h.other hs

/-! ## Which sessions leave the client subscribed -/

theorem sessions_mono {guard : State → Action → Prop}
    (h : Run (step c) guard s acts u) : s.sessions ≤ u.sessions := by
  refine h.invariant (I := fun v => s.sessions ≤ v.sessions) (Nat.le_refl _) ?_
  intro v a w hv _ hs
  rcases (step_cases hs).2 with ⟨hsame, _⟩ | ⟨hmore, _⟩
  · rwa [hsame]
  · omega

theorem sessions_pos {guard : State → Action → Prop}
    (h : Run (step c) guard (.init c rl ll) acts s) :
    s.pc = .connected → 0 < s.sessions := by
  refine h.invariant (I := fun v => v.pc = .connected → 0 < v.sessions)
    (fun hpc => (by cases hpc)) ?_
  intro v a w hv _ hs hpc
  rcases (step_cases hs).2 with ⟨hsame, hbefore⟩ | ⟨hmore, _⟩
  · rw [hsame]
    exact hv (hbefore hpc)
  · omega

theorem exists_connected (h : Run (step c) Always (.init c rl ll) acts s)
    {n : Nat} (h0 : 0 < n) (hn : n ≤ s.sessions) :
    ∃ pre u, pre <+: acts ∧ Run (step c) Always (.init c rl ll) pre u ∧
      u.pc = .connected ∧ u.sessions = n := by
  induction h with
  | nil =>
      have hzero : n ≤ 0 := hn
      omega
  | snoc hrun hg hs ih =>
      next acts t u a =>
      by_cases hbefore : n ≤ t.sessions
      · obtain ⟨pre, v, hpre, hv⟩ := ih hbefore
        exact ⟨pre, v, hpre.trans (List.prefix_append ..), hv⟩
      · rcases (step_cases hs).2 with ⟨hsame, _⟩ | ⟨hmore, hpc⟩
        · omega
        · exact ⟨_, u, List.prefix_refl _, hrun.snoc hg hs, hpc, by omega⟩

/-- Where replies match, a connected client is subscribed in its first session,
in its third, and so on. -/
theorem subscribed_iff_odd_sessions (hc : c.Readable) (hll : 0 ≤ ll)
    (h : Run (step c) (RepliesMatch c) (.init c rl ll) acts s)
    (hpc : s.pc = .connected) :
    c.subscriber ∈ s.server.subscribers c.app.peerAddr ↔ Odd s.sessions := by
  have hinv : SessionInv c rl ll s :=
    h.invariant sessionInv_init fun _ _ _ ht hg hs => ht.step hc hll hg hs
  have howes := hinv.owes
  rw [hpc] at howes
  rw [← howes.effective]
  exact subscribed_iff_odd (h.mono fun _ _ _ => trivial)

/-- Every session in the run left the client subscribed. -/
def StaysSubscribed (c : Client) (rl ll : Int) (acts : List Action) : Prop :=
  ∀ pre u, pre <+: acts → Run (step c) Always (.init c rl ll) pre u →
    u.pc = .connected → c.subscriber ∈ u.server.subscribers c.app.peerAddr

theorem staysSubscribed_iff (hc : c.Readable) (hll : 0 ≤ ll)
    (h : Run (step c) (RepliesMatch c) (.init c rl ll) acts s) :
    StaysSubscribed c rl ll acts ↔ s.sessions ≤ 1 := by
  have halways : Run (step c) Always (.init c rl ll) acts s :=
    h.mono fun _ _ _ => trivial
  constructor
  · intro hstays
    by_contra hmore
    obtain ⟨pre, u, hpre, hu, hpc, hsessions⟩ :=
      exists_connected halways Nat.zero_lt_two (by omega)
    have hodd := (subscribed_iff_odd_sessions hc hll (h.restrict hpre hu) hpc).mp
      (hstays pre u hpre hu hpc)
    rw [hsessions] at hodd
    exact absurd hodd (by decide)
  · intro hone pre u hpre hu hpc
    have hrun := h.restrict hpre hu
    obtain ⟨acts', rfl⟩ := hpre
    obtain ⟨u', hu', hrest⟩ := h.split
    obtain rfl := hu.unique hu'
    have hpos := sessions_pos hu hpc
    have hle := sessions_mono hrest
    have hsessions : u.sessions = 1 := by omega
    rw [subscribed_iff_odd_sessions hc hll hrun hpc, hsessions]
    exact odd_one

/-- A session leaves the client subscribed exactly after an odd number of
lookups that switched, and then a move of the peer is pushed to it. Where
replies match, these are the sessions that connected: in an odd one the client
is subscribed, in an even one it is not, and a run keeps it subscribed in every
session exactly if no second one has connected. -/
theorem session_parity (h : Run (step c) Always (.init c rl ll) acts s) :
    (c.subscriber ∈ s.server.subscribers c.app.peerAddr ↔ Odd s.effective) ∧
    (Odd s.effective → ∀ e b, e.registers? = some (c.app.peerAddr, b) →
      0 ≤ e.updateSocket →
      ⟨e.updateSocket, pushAddr (s.server.next e).registeredNames c.subscriber,
        intToIPString b.toInt32 ++ [0]⟩ ∈ (s.server.receive e).sent) ∧
    (Run (step c) (RepliesMatch c) (.init c rl ll) acts s → c.Readable → 0 ≤ ll →
      (s.pc = .connected → (c.subscriber ∈ s.server.subscribers c.app.peerAddr ↔
        Odd s.sessions)) ∧
      (StaysSubscribed c rl ll acts ↔ s.sessions ≤ 1)) := by
  have hparity := subscribed_iff_odd h
  refine ⟨hparity, fun hodd e b he hsock => ?_, fun hmatch hc hll => ⟨?_, ?_⟩⟩
  · exact push_mem_receive_sent (hparity.mpr hodd) he hsock
  · exact subscribed_iff_odd_sessions hc hll hmatch
  · exact staysSubscribed_iff hc hll hmatch

/-- The client "A" of the server at 1.2.3.4, which looks for "B". -/
def sample : Client := ⟨.sample, ascii "1.2.3.4", by decide⟩

theorem sample_readable : sample.Readable where
  nulFree := by decide
  noBar := by decide
  peerNulFree := by decide
  short := by decide

/-- A session that connects at its first attempt. -/
def connects : List Action :=
  [.start 1 ⟨3, 0, 0, 0, 0⟩, .send 9, .serve .zero, .deliver, .receive]

/-- "B" registers, and "A" connects once. -/
theorem session_parity_example : ∃ s,
    exec (step sample) (RepliesMatch sample) (.init sample 3 4)
      (.other (.registration ⟨⟨netV4, 5, 1⟩, ascii "B"⟩ 5) :: connects) = some s ∧
    StaysSubscribed sample 3 4
      (.other (.registration ⟨⟨netV4, 5, 1⟩, ascii "B"⟩ 5) :: connects) := by
  have hend : ∀ s ∈ exec (step sample) (RepliesMatch sample) (.init sample 3 4)
      (.other (.registration ⟨⟨netV4, 5, 1⟩, ascii "B"⟩ 5) :: connects),
      s.sessions ≤ 1 := by
    decide +kernel
  obtain ⟨s, hs, hrun, hone⟩ := Run.exists_of_exec hend (by decide +kernel)
  exact ⟨s, hs, ((session_parity (hrun.mono fun _ _ _ => trivial)).2.2 hrun
    sample_readable (by decide)).2.mpr hone⟩

/-- The second session finds "A" subscribed, and its lookup unsubscribes it. -/
theorem second_session_unsubscribed : ¬ ∀ acts s,
    Run (step sample) Always (.init sample 3 4) acts s → s.pc = .connected →
      sample.subscriber ∈ s.server.subscribers sample.app.peerAddr := by
  intro h
  have hend : ∀ s ∈ exec (step sample) Always (.init sample 3 4)
      (.other (.registration ⟨⟨netV4, 5, 1⟩, ascii "B"⟩ 5) :: connects ++
        .shutDown :: connects),
      s.pc = .connected ∧
        sample.subscriber ∉ s.server.subscribers sample.app.peerAddr := by
    decide +kernel
  obtain ⟨s, _, hrun, hpc, hnot⟩ := Run.exists_of_exec hend (by decide +kernel)
  exact hnot (h _ s hrun hpc)

end Sessions

end PermanentIP

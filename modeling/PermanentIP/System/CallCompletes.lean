import PermanentIP.Proofs.LoggedRequests
import PermanentIP.Proofs.NameServerLog
import PermanentIP.System.ResolvesInCall

/-!
# No call gets stuck

Where nothing is lost, a call of `RegisterPeer` that is being made has what it
waits for under way (`Client.Served`). One of four steps is enabled that brings
it nearer to its end, and no step of anybody else takes it back
(`call_completes`); so it is complete after four steps of its own.

The two servers have to be there for that, so they have to live through their logs:
whatever they handle they can log (`Logs`), and if the names of the call are brief,
as is every address the name server is given, they live through the call's own two
requests as well.
-/

namespace PermanentIP

open Lib SimpleMobileNode SimpleRendezvousServer

namespace Resolution

variable {ι : Type*}

variable {cfg : Config ι} {s u : State ι} {a : Action ι} {acts : List (Action ι)}
  {c d : ι} {cl : Client} {e : Event} {log : List Event}
  {dnsLog : List SimpleDNS.Event} {dl rl ll : Int} {q p : Packet} {i k : Nat}
  {subscribed : Prop} {srv : SimpleRendezvousServer}

def Lossless : Action ι → Prop
  | .lose .. => False
  | .call .. | .resolve .. | .readAddress .. | .serve .. | .readLocation .. |
    .addName .. | .foreign _ | .outside .. => True

instance (a : Action ι) : Decidable (Lossless a) := by
  cases a <;> unfold Lossless <;> infer_instance

/-- The server that handles something can log it, and can log what it is given to
answer with. -/
def Logs (s : State ι) : Action ι → Prop
  | .resolve c i => ∀ p ∈ (s.client c).query[i]?, s.dns.Logs p
  | .serve c i => ∀ p ∈ (s.client c).request[i]?, s.server.LogsEvent (.lookup p)
  | .foreign e => s.server.LogsEvent e
  | .addName _ address => Brief (cstr address)
  | .call .. | .readAddress .. | .readLocation .. | .lose .. | .outside .. => True

instance (s : State ι) (a : Action ι) : Decidable (Logs s a) := by
  cases a <;> unfold Logs <;> infer_instance

/-- As expected, and nothing is lost, a server least of all. -/
structure Kept (cfg : Config ι) (s : State ι) (a : Action ι) : Prop where
  expected : Expected cfg s a
  lossless : Lossless a
  logs : Logs s a

/-- A call in progress that asks a rendezvous server there is. -/
def Client.Waits (cfg : Config ι) (cl : Client) : Prop :=
  match cl.phase with
  | .idle | .returned _ => False
  | .dns => True
  | .server rsAddr => serverIn rsAddr globLookupPort = cfg.serverAddr

/-- What a call in progress waits for is under way. -/
def Client.Served (cfg : Config ι) (cl : Client) : Prop :=
  match cl.phase with
  | .idle | .returned _ => True
  | .dns => cl.query ≠ [] ∨ cl.address ≠ []
  | .server rsAddr => serverIn rsAddr globLookupPort = cfg.serverAddr →
      cl.request ≠ [] ∨ cl.inbox ≠ []

/-- How many steps a call in progress has before it. -/
def Client.rank (cl : Client) : Nat :=
  match cl.phase with
  | .idle | .returned _ => 0
  | .dns => if cl.address = [] then 4 else 3
  | .server _ => if cl.inbox = [] then 2 else 1

theorem sent_receive_query_ne (hdl : 0 ≤ dl) (hpeer : cfg.peer c ≠ [])
    (des : List SimpleDNS.Event) (hp : p.payload = cfg.peer c) :
    (((SimpleDNS.new dl).run des).receive p).sent ≠ [] := by
  have hlistener : ¬ ((SimpleDNS.new dl).run des).listener < 0 := by
    rw [SimpleDNS.listener_run]
    exact Int.not_lt.mpr hdl
  rw [SimpleDNS.receive, SimpleDNS.handleRequests_cons (by rwa [hp]), sendto,
    if_neg hlistener]
  exact List.cons_ne_nil _ _

theorem delivered_reply_ne (cfg : Config ι) (c : ι) (rl : Int) (hll : 0 ≤ ll)
    (es : List Event) :
    cfg.delivered c (((new rl ll).run es).receive
      (.lookup ⟨cfg.addr c, lookupRequest (cfg.name c) (cfg.peer c)⟩)).sent ≠ [] := by
  have hlistener : ¬ ((new rl ll).run es).lookupListener < 0 := by
    rw [lookupListener_run]
    exact Int.not_lt.mpr hll
  rw [Config.delivered, (receive_lookup (lookupRequest_ne_nil _ _)).2, sendto,
    if_neg hlistener]
  simp

/-- What a step that loses nothing does to one application. -/
inductive ClientStepped (cfg : Config ι) (s : State ι) (c : ι) :
    Action ι → Client → Prop
  | call (port : UInt16)
      (hphase : (s.client c).phase = .idle ∨ (s.client c).phase = .returned none) :
      ClientStepped cfg s c (.call c port) { s.client c with
        phase := .dns
        dnsSince := s.dnsLog.length
        since := s.log.length
        query := (s.client c).query ++
          [⟨⟨netV4, port, (cfg.addr c).sinAddr⟩, cfg.peer c⟩] }
  | resolve {i : Nat} {p : Packet} (hi : (s.client c).query[i]? = some p) :
      ClientStepped cfg s c (.resolve c i) { s.client c with
        query := (s.client c).query.eraseIdx i
        address := (s.client c).address ++
          (s.dns.receive p).sent.map fun d => ⟨cfg.dnsAddr, d.payload⟩ }
  | refused {i : Nat} {q : Packet} (hphase : (s.client c).phase = .dns)
      (hi : (s.client c).address[i]? = some q) (hempty : readReply q = []) :
      ClientStepped cfg s c (.readAddress c i) { s.client c with
        phase := .returned none
        address := (s.client c).address.eraseIdx i }
  | readAddress {i : Nat} {q : Packet} (hphase : (s.client c).phase = .dns)
      (hi : (s.client c).address[i]? = some q) (hsome : readReply q ≠ []) :
      ClientStepped cfg s c (.readAddress c i) { s.client c with
        phase := .server (readReply q)
        address := (s.client c).address.eraseIdx i
        request := (s.client c).request ++ cfg.asks c (readReply q) }
  | serve {i : Nat} {p : Packet} (hi : (s.client c).request[i]? = some p) :
      ClientStepped cfg s c (.serve c i) { s.client c with
        request := (s.client c).request.eraseIdx i
        inbox := (s.client c).inbox ++
          cfg.delivered c (s.server.receive (.lookup p)).sent }
  | readLocation {i : Nat} {q : Packet} {rsAddr : PhysicalAddress}
      (hphase : (s.client c).phase = .server rsAddr)
      (hi : (s.client c).inbox[i]? = some q) :
      ClientStepped cfg s c (.readLocation c i) { s.client c with
        node := ((s.client c).node.registerPeer (cfg.appSocket c) rsAddr
          (readReply q)).2
        phase := .returned ((s.client c).node.registerPeer (cfg.appSocket c) rsAddr
          (readReply q)).1
        inbox := (s.client c).inbox.eraseIdx i }
  | other {a : Action ι} (hcall : ∀ port, a ≠ .call c port) (new : List Packet) :
      ClientStepped cfg s c a { s.client c with
        inbox := (s.client c).inbox ++ new }

theorem clientStepped_of_eq (hcall : ∀ port, a ≠ .call c port)
    (h : u.client c = s.client c) : ClientStepped cfg s c a (u.client c) := by
  have hother : ClientStepped cfg s c a { s.client c with
      inbox := (s.client c).inbox ++ [] } := .other hcall []
  rw [List.append_nil] at hother
  rw [h]
  exact hother

theorem Client.Served.step (h : Inv cfg dl rl ll s) (hdl : 0 ≤ dl) (hll : 0 ≤ ll)
    (hpeer : cfg.peer c ≠ []) (hserved : (s.client c).Served cfg)
    (hs : ClientStepped cfg s c a cl) : cl.Served cfg := by
  have hphase := (h.client c).phase
  cases hs with
  | call port _ => exact Or.inl (List.append_ne_nil_of_right_ne_nil _ (by simp))
  | resolve hi =>
      obtain ⟨hdns, _, _, _, _, _, hp⟩ := hphase.of_query hi
      have hsent := sent_receive_query_ne hdl hpeer s.dnsLog hp
      rw [← h.dns] at hsent
      simp only [Client.Served, hdns]
      exact Or.inr (List.append_ne_nil_of_right_ne_nil _ (by simpa using hsent))
  | refused => trivial
  | readAddress =>
      intro hserver
      refine Or.inl (List.append_ne_nil_of_right_ne_nil _ ?_)
      rw [Config.asks, if_pos hserver]
      exact List.cons_ne_nil _ _
  | serve hi =>
      obtain ⟨rsAddr, hserver, _, _, _, _, _, _, rfl⟩ := hphase.of_request hi
      have hsent := delivered_reply_ne cfg c rl hll s.log
      rw [← h.server] at hsent
      simp only [Client.Served, hserver]
      exact fun _ => Or.inr (List.append_ne_nil_of_right_ne_nil _ hsent)
  | readLocation => trivial
  | other _ new =>
      rw [Client.Served] at hserved ⊢
      simp only
      split
      · trivial
      · trivial
      · next hdns => simpa only [hdns] using hserved
      · next rsAddr hserver =>
          simp only [hserver] at hserved
          exact fun heq => (hserved heq).imp_right fun hin =>
            List.append_ne_nil_of_left_ne_nil hin _

/-- Nobody's step takes a call back. -/
theorem rank_le (h : Inv cfg dl rl ll s) (hcall : ∀ port, a ≠ .call c port)
    (hs : ClientStepped cfg s c a cl) : cl.rank ≤ (s.client c).rank := by
  have hphase := (h.client c).phase
  cases hs with
  | call port _ => exact absurd rfl (hcall port)
  | resolve hi =>
      obtain ⟨hdns, _, _, _, haddress, _, _⟩ := hphase.of_query hi
      simp only [Client.rank, hdns, haddress, if_true]
      split <;> omega
  | refused => exact Nat.zero_le _
  | readAddress hdns _ _ =>
      simp only [Client.rank, hdns]
      split <;> split <;> omega
  | serve hi =>
      obtain ⟨rsAddr, hserver, _, _, _, _, hinbox, _, _⟩ := hphase.of_request hi
      simp only [Client.rank, hserver, hinbox, if_true]
      split <;> omega
  | readLocation => exact Nat.zero_le _
  | other _ new =>
      simp only [Client.rank]
      split
      · exact Nat.le_refl 0
      · exact Nat.le_refl 0
      · exact Nat.le_refl _
      · by_cases hinbox : (s.client c).inbox = []
        · rw [if_pos hinbox]
          split <;> omega
        · rw [if_neg hinbox, if_neg (List.append_ne_nil_of_left_ne_nil hinbox _)]

/-! ## The lines about its two requests -/

/-- Every address the name server was given is brief. -/
def Given (dnsLog : List SimpleDNS.Event) : Prop :=
  ∀ name address, .addName name address ∈ dnsLog → Brief (cstr address)

theorem Given.append (h : Given dnsLog) {e : SimpleDNS.Event}
    (he : ∀ name address, e = .addName name address → Brief (cstr address)) :
    Given (dnsLog ++ [e]) := by
  intro name address hmem
  rcases List.mem_append.mp hmem with hold | hnew
  · exact h name address hold
  · exact he name address (List.mem_singleton.mp hnew).symm

theorem brief_lastAdded (h : Given dnsLog) (name : LogicalAddress) :
    Brief (cstr (SimpleDNS.lastAdded name dnsLog)) := by
  rw [SimpleDNS.lastAdded]
  cases hlast : lastWrite SimpleDNS.Event.added? name dnsLog with
  | none => decide
  | some address =>
      obtain ⟨e, he, hadded⟩ := exists_write_of_lastWrite hlast
      cases e with
      | addName name' address' =>
          cases hadded
          exact h _ _ he
      | request p => cases hadded

theorem logs_resolve (h : Inv cfg dl rl ll s) (hgiven : Given s.dnsLog)
    (hbrief : Brief (cfg.peer c)) (i : Nat) : Logs s (.resolve c i) := by
  intro p hi
  obtain ⟨_, _, _, _, _, _, hp⟩ := (h.client c).phase.of_query hi
  have htext : p.text = cfg.peer c := by
    have hlen : (cfg.peer c).length ≤ bufferSize := Nat.le_trans hbrief.2 (by decide)
    have hpacket : p = ⟨p.src, cfg.peer c⟩ := by rw [← hp]
    rw [hpacket]
    exact text_of_lt (cfg.peerNulFree c) hlen
  rw [h.dns, SimpleDNS.logs_run_iff]
  exact SimpleDNS.loggable_of_brief (htext ▸ hbrief) (brief_lastAdded hgiven _)

theorem logs_serve (h : Inv cfg dl rl ll s) (hbrief : Brief (cfg.name c)) (i : Nat) :
    Logs s (.serve c i) := by
  intro p hi
  obtain ⟨rsAddr, _, _, _, _, _, _, _, rfl⟩ := (h.client c).phase.of_request hi
  have hop := op?_lookupRequest (cfg.nulFree c) (cfg.noBar c) (cfg.peerNulFree c)
    (Nat.le_of_lt (cfg.short c)) (cfg.addr c)
  have hne : (Packet.mk (cfg.addr c) (lookupRequest (cfg.name c) (cfg.peer c))).payload ≠
    [] := lookupRequest_ne_nil _ _
  rw [h.server]
  exact fun _ => ((matches_run rl ll s.log).logs_lookup_iff hne).mpr
    (loggable_of_ask hop hbrief.1 (Nat.le_trans hbrief.2 (by decide)))

/-! ## Its steps -/

section Progress

variable [DecidableEq ι]

theorem clientStepped_of_set {cl : Client} (hcall : ∀ port, a ≠ .call c port)
    (hne : c ≠ d) (hu : u.client = (s.set d cl).client) :
    ClientStepped cfg s c a (u.client c) :=
  clientStepped_of_eq hcall (by rw [hu, client_set_ne hne])

theorem clientStepped (hs : step cfg s a = some u) (hl : Lossless a) (c : ι) :
    ClientStepped cfg s c a (u.client c) := by
  cases a with
  | call d port =>
      simp only [step] at hs
      rcases eq_or_ne c d with rfl | hne
      · split at hs
        · next hphase =>
            cases hs
            rw [client_set_self]
            exact .call port (Or.inl hphase)
        · next hphase =>
            cases hs
            rw [client_set_self]
            exact .call port (Or.inr hphase)
        · cases hs
        · cases hs
        · cases hs
      · have hcall : ∀ port', Action.call d port ≠ .call c port' := by
          intro port' heq
          injection heq with heq
          exact hne heq.symm
        split at hs
        · cases hs
          exact clientStepped_of_set hcall hne rfl
        · cases hs
          exact clientStepped_of_set hcall hne rfl
        · cases hs
        · cases hs
        · cases hs
  | resolve d i =>
      simp only [step] at hs
      split at hs
      · next p hi =>
          cases hs
          rcases eq_or_ne c d with rfl | hne
          · simp only [client_set_self]
            exact .resolve hi
          · exact clientStepped_of_set (fun _ => by simp) hne rfl
      · cases hs
  | readAddress d i =>
      simp only [step] at hs
      split at hs
      · next q hphase hi =>
          split at hs
          · next hempty =>
              cases hs
              rcases eq_or_ne c d with rfl | hne
              · rw [client_set_self]
                exact .refused hphase hi hempty
              · exact clientStepped_of_set (fun _ => by simp) hne rfl
          · next hsome =>
              cases hs
              rcases eq_or_ne c d with rfl | hne
              · rw [client_set_self]
                exact .readAddress hphase hi hsome
              · exact clientStepped_of_set (fun _ => by simp) hne rfl
      · cases hs
      · cases hs
      · cases hs
      · cases hs
  | serve d i =>
      simp only [step] at hs
      split at hs
      · next p hi =>
          cases hs
          rcases eq_or_ne c d with rfl | hne
          · simp only [State.handle, client_set_self]
            exact .serve hi
          · simp only [State.handle, client_set_ne hne]
            exact .other (fun _ => by simp) _
      · cases hs
  | readLocation d i =>
      simp only [step] at hs
      split at hs
      · next rsAddr q hphase hi =>
          cases hs
          rcases eq_or_ne c d with rfl | hne
          · rw [client_set_self]
            exact .readLocation hphase hi
          · exact clientStepped_of_set (fun _ => by simp) hne rfl
      · cases hs
      · cases hs
      · cases hs
      · cases hs
  | lose d w i => cases hl
  | addName name address =>
      cases hs
      exact clientStepped_of_eq (fun _ => by simp) rfl
  | foreign e =>
      cases hs
      exact .other (fun _ => by simp) _
  | outside d packet =>
      cases hs
      rcases eq_or_ne c d with rfl | hne
      · rw [client_set_self]
        exact .other (fun _ => by simp) _
      · exact clientStepped_of_set (fun _ => by simp) hne rfl

theorem given_step (h : Given s.dnsLog) (hlogs : Logs s a) (hs : step cfg s a = some u) :
    Given u.dnsLog := by
  cases a with
  | resolve d i =>
      simp only [step] at hs
      split at hs
      · cases hs
        refine h.append fun name' address' heq => ?_
        cases heq
      · cases hs
  | addName name address =>
      cases hs
      refine h.append fun name' address' heq => ?_
      cases heq
      exact hlogs
  | call d port =>
      simp only [step] at hs
      split at hs <;> cases hs <;> exact h
  | readAddress d i =>
      simp only [step] at hs
      split at hs
      · split at hs <;> cases hs <;> exact h
      all_goals cases hs
  | serve d i =>
      simp only [step] at hs
      split at hs <;> cases hs
      exact h
  | readLocation d i =>
      simp only [step] at hs
      split at hs
      · cases hs
        exact h
      all_goals cases hs
  | lose d w i | foreign e | outside d packet =>
      cases hs
      exact h

theorem served_run {node : ι → SimpleMobileNode} (hdl : 0 ≤ dl) (hll : 0 ≤ ll)
    (hpeer : cfg.peer c ≠ [])
    (h : Run (step cfg) (Kept cfg) (.init dl rl ll node) acts s) :
    Inv cfg dl rl ll s ∧ (s.client c).Served cfg ∧ Given s.dnsLog := by
  refine h.invariant
    (I := fun s => Inv cfg dl rl ll s ∧ (s.client c).Served cfg ∧ Given s.dnsLog)
    ⟨inv_init dl rl ll node, trivial, fun _ _ hmem => nomatch hmem⟩ ?_
  rintro s a u ⟨hi, hserved, hgiven⟩ hg hs
  exact ⟨hi.step hg.expected hs,
    hserved.step hi hdl hll hpeer (clientStepped hs hg.lossless c),
    given_step hgiven hg.logs hs⟩

theorem getElem?_zero_of_ne {l : List Packet} (h : l ≠ []) :
    ∃ p, l[0]? = some p := by
  cases l with
  | nil => exact absurd rfl h
  | cons p rest => exact ⟨p, rfl⟩

/-- The four steps of a call, in the order they come. -/
def ownSteps (c : ι) : List (Action ι) :=
  [.resolve c 0, .readAddress c 0, .serve c 0, .readLocation c 0]

theorem resolve_nears (h : Inv cfg dl rl ll s) (hdl : 0 ≤ dl) (hpeer : cfg.peer c ≠ [])
    (hi : (s.client c).query[0]? = some p) :
    ∃ u, step cfg s (.resolve c 0) = some u ∧
      (u.client c).rank < (s.client c).rank := by
  obtain ⟨hdns, _, _, _, haddress, _, hp⟩ := (h.client c).phase.of_query hi
  have hsent := sent_receive_query_ne hdl hpeer s.dnsLog hp
  rw [← h.dns] at hsent
  simp only [step, hi]
  refine ⟨_, rfl, ?_⟩
  simp [client_set_self, Client.rank, hdns, haddress, hsent]

theorem readAddress_nears (h : Inv cfg dl rl ll s)
    (hdns : (s.client c).phase = .dns) (hi : (s.client c).address[0]? = some q) :
    ∃ u, step cfg s (.readAddress c 0) = some u ∧
      (u.client c).rank < (s.client c).rank := by
  obtain ⟨_, _, hinbox, _⟩ := (h.client c).phase.of_address hdns hi
  have hne : (s.client c).address ≠ [] := List.ne_nil_of_mem (List.mem_of_getElem? hi)
  have hrank : (s.client c).rank = 3 := by
    simp only [Client.rank, hdns, if_neg hne]
  rw [hrank]
  by_cases hempty : readReply q = []
  · simp only [step, hdns, hi, if_pos hempty]
    refine ⟨_, rfl, ?_⟩
    rw [client_set_self]
    exact Nat.zero_lt_succ 2
  · simp only [step, hdns, hi, if_neg hempty]
    refine ⟨_, rfl, ?_⟩
    rw [client_set_self]
    simp only [Client.rank, hinbox, if_true]
    omega

theorem serve_nears (h : Inv cfg dl rl ll s) (hll : 0 ≤ ll)
    (hi : (s.client c).request[0]? = some p) :
    ∃ u, step cfg s (.serve c 0) = some u ∧
      (u.client c).rank < (s.client c).rank := by
  obtain ⟨rsAddr, hserver, _, _, _, _, hinbox, _, rfl⟩ :=
    (h.client c).phase.of_request hi
  have hsent := delivered_reply_ne cfg c rl hll s.log
  rw [← h.server] at hsent
  simp only [step, hi]
  refine ⟨_, rfl, ?_⟩
  simp [State.handle, State.set, Client.rank, hserver, hinbox, hsent]

theorem readLocation_nears {rsAddr : PhysicalAddress}
    (hserver : (s.client c).phase = .server rsAddr)
    (hi : (s.client c).inbox[0]? = some q) :
    ∃ u, step cfg s (.readLocation c 0) = some u ∧
      (u.client c).rank < (s.client c).rank := by
  have hne : (s.client c).inbox ≠ [] := List.ne_nil_of_mem (List.mem_of_getElem? hi)
  simp only [step, hserver, hi]
  refine ⟨_, rfl, ?_⟩
  rw [client_set_self]
  simp only [Client.rank, hserver, if_neg hne]
  omega

/-- A call in progress has a step before it, and the server whose step it is lives
through it. -/
theorem exists_step (h : Inv cfg dl rl ll s) (hgiven : Given s.dnsLog) (hdl : 0 ≤ dl)
    (hll : 0 ≤ ll) (hpeer : cfg.peer c ≠ [])
    (hbrief : Brief (cfg.name c) ∧ Brief (cfg.peer c))
    (hserved : (s.client c).Served cfg) (hwaits : (s.client c).Waits cfg) :
    ∃ a ∈ ownSteps c, Logs s a ∧ ∃ u, step cfg s a = some u ∧
      (u.client c).rank < (s.client c).rank := by
  rw [Client.Waits] at hwaits
  rw [Client.Served] at hserved
  cases hphase : (s.client c).phase with
  | idle =>
      rw [hphase] at hwaits
      exact hwaits.elim
  | returned result =>
      rw [hphase] at hwaits
      exact hwaits.elim
  | dns =>
      rw [hphase] at hserved
      rcases hserved with hquery | haddress
      · obtain ⟨p, hi⟩ := getElem?_zero_of_ne hquery
        exact ⟨.resolve c 0, by simp [ownSteps], logs_resolve h hgiven hbrief.2 0,
          resolve_nears h hdl hpeer hi⟩
      · obtain ⟨q, hi⟩ := getElem?_zero_of_ne haddress
        exact ⟨.readAddress c 0, by simp [ownSteps], trivial,
          readAddress_nears h hphase hi⟩
  | server rsAddr =>
      rw [hphase] at hserved hwaits
      rcases hserved hwaits with hrequest | hinbox
      · obtain ⟨p, hi⟩ := getElem?_zero_of_ne hrequest
        exact ⟨.serve c 0, by simp [ownSteps], logs_serve h hbrief.1 0,
          serve_nears h hll hi⟩
      · obtain ⟨q, hi⟩ := getElem?_zero_of_ne hinbox
        exact ⟨.readLocation c 0, by simp [ownSteps], trivial,
          readLocation_nears hphase hi⟩

/-- Where nothing is lost, a call in progress has a step before it, of one of
the servers or of its own, that brings it nearer to its end, and whatever
happens before that does not take it back. -/
theorem call_completes {node : ι → SimpleMobileNode} (hdl : 0 ≤ dl) (hll : 0 ≤ ll)
    (hpeer : cfg.peer c ≠ []) (hbrief : Brief (cfg.name c) ∧ Brief (cfg.peer c))
    (h : Run (step cfg) (Kept cfg) (.init dl rl ll node) acts s) :
    ((s.client c).Waits cfg → ∃ a ∈ ownSteps c, Logs s a ∧ ∃ u, step cfg s a = some u ∧
      (u.client c).rank < (s.client c).rank) ∧
    ∀ a u, step cfg s a = some u → Lossless a → (∀ port, a ≠ .call c port) →
      (u.client c).rank ≤ (s.client c).rank := by
  obtain ⟨hinv, hserved, hgiven⟩ := served_run (c := c) hdl hll hpeer h
  refine ⟨exists_step hinv hgiven hdl hll hpeer hbrief hserved, fun a u hs hl hcall => ?_⟩
  exact rank_le hinv hcall (clientStepped hs hl c)

end Progress

instance (s : State Unit) (a : Action Unit) : Decidable (Kept sample s a) :=
  decidable_of_iff (Expected sample s a ∧ Lossless a ∧ Logs s a)
    ⟨fun h => ⟨h.1, h.2.1, h.2.2⟩, fun h => ⟨h.expected, h.lossless, h.logs⟩⟩

/-- The call of A in the middle of its two requests -/
theorem call_completes_example : ∃ s : State Unit,
    ((s.client ()).Waits sample ∧ ∃ a ∈ ownSteps (), Logs s a ∧
      ∃ u, step sample s a = some u ∧
      (u.client ()).rank < (s.client ()).rank) ∧
    ∀ a u, step sample s a = some u → Lossless a → (∀ port, a ≠ .call () port) →
      (u.client ()).rank ≤ (s.client ()).rank := by
  have hend : ∀ s ∈ exec (step sample) (Kept sample) (.init 3 4 5
      fun _ => .new (ascii "A") (ascii "1.2.3.9") (ascii "1.2.3.4") 1)
      (finds.take 5), (s.client ()).phase = .server (ascii "1.2.3.4") := by
    decide +kernel
  obtain ⟨s, _, hrun, hphase⟩ := Run.exists_of_exec hend (by decide +kernel)
  have hwaits : (s.client ()).Waits sample := by
    rw [Client.Waits, hphase]
    rfl
  obtain ⟨hstep, hrank⟩ := call_completes (c := ()) (by decide) (by decide) (by decide)
    (by decide) hrun
  exact ⟨s, ⟨hwaits, hstep hwaits⟩, hrank⟩

end Resolution

end PermanentIP

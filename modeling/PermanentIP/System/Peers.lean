import PermanentIP.Proofs.PollCalls
import PermanentIP.Proofs.Requests
import PermanentIP.Proofs.Subscriptions
import PermanentIP.System.Device
import PermanentIP.System.StartLoop

/-!
# Several peers

One node, its sockets, and the rendezvous server. The node registers peers, any
number of them on any of its sockets, and the server then pushes the peers'
registrations to where the node last registered from, which may be where it is. A
push carries an address and not the name it is about, so
each one is tagged here with the name whose registration caused it, and the tag
is followed from the server into the socket's queue and into the round of
`PollSubscriptions` that takes it. The tag is the model's own; no function of
the program sees it.

The daemon keeps one `sockaddr` for a socket, the one it returned last. What the
server keeps is a set of names for each socket's port, those that were asked for
an odd number of times. So a push reaches the `sockaddr` of its own peer, and no
other, exactly if on every socket the name asked for an odd number of times is
that of the last peer registered there (`updates_own_peer_iff`).
-/

namespace PermanentIP

open Lib SimpleMobileNode SimpleRendezvousServer

namespace Peers

/-- A daemon that serves no peer yet, under a name it can register, and where its
device is; the descriptor of its socket at each port, and the listeners of the
server. -/
structure Config where
  node : SimpleMobileNode
  noPeers : node.appSockets = ∅
  sendable : StartLoop.Sendable node.logicalAddress
  ip : UInt32
  socket : UInt16 → Int
  registrationListener : Int
  lookupListener : Int

/-- A peer that `RegisterPeer` returned a `sockaddr` for, and on which port. -/
structure Peer where
  port : UInt16
  name : LogicalAddress
  ptr : Ptr
deriving DecidableEq

/-- A push on its way to a port of the node, tagged with whom it is about. -/
structure Update where
  about : LogicalAddress
  port : UInt16
  payload : Bytes

/-- `inbox` is what the node's sockets hold, each push with its tag. -/
structure State where
  server : SimpleRendezvousServer
  ip : UInt32
  node : SimpleMobileNode
  peers : List Peer
  inbox : Int → List (LogicalAddress × Packet)

def State.sockets (s : State) (fd : Int) : Socket :=
  ⟨(s.inbox fd).map Prod.snd, none⟩

inductive Action where
  | move (ip : UInt32)
  | registerPeer (port : UInt16) (rsAddr : PhysicalAddress) (peer : LogicalAddress)
  | serve (e : Event) (port : UInt16) (arrives : UInt16 → Bool)
  | poll (serverSize : Int → Int32)

namespace Config

def init (c : Config) : State where
  server := .new c.registrationListener c.lookupListener
  ip := c.ip
  node := c.node
  peers := []
  inbox := fun _ => []

def name (c : Config) : LogicalAddress := c.node.logicalAddress

/-- The lookup of a peer, from the port of the app socket. -/
def lookup (c : Config) (port : UInt16) (ip : UInt32) (peer : LogicalAddress) :
    Packet := ⟨⟨netV4, port, ip⟩, lookupRequest c.name peer⟩

/-- The pushes to this node's name that an event makes the server send to where
the node is. -/
def updates (c : Config) (ip : UInt32) (srv : SimpleRendezvousServer) (e : Event) :
    List Update :=
  match e.registers? with
  | none => []
  | some (about, _) =>
      (((srv.subscribers about).elems.zip (srv.pushes e)).filter fun x =>
        x.1.name = c.name ∧ x.2.dst.sinAddr = ip).map fun x =>
          ⟨about, x.2.dst.sinPort, x.2.payload⟩

/-- What of them arrives at a socket, from `port` of the server. -/
def arrivals (c : Config) (ip : UInt32) (srv : SimpleRendezvousServer) (e : Event)
    (port : UInt16) (arrives : UInt16 → Bool) (fd : Int) :
    List (LogicalAddress × Packet) :=
  ((c.updates ip srv e).filter fun u => c.socket u.port = fd && arrives u.port).map
    fun u => (u.about, ⟨⟨netV4, port, c.node.serverAddr⟩, u.payload⟩)

/-- The last peer that was registered on a socket. -/
def last (c : Config) (peers : List Peer) (fd : Int) : Option Peer :=
  lastWrite (fun r => some (c.socket r.port, r)) fd peers

/-- The `sockaddr` that `RegisterPeer` returned for a name on a socket. -/
def returned (c : Config) (peers : List Peer) (fd : Int) (name : LogicalAddress) :
    Option Ptr :=
  lastWrite (fun r => some ((c.socket r.port, r.name), r.ptr)) (fd, name) peers

/-- The lookup of this peer is one of `name` for the node's pair at `port`, as
the server reads it. -/
def asks (c : Config) (port : UInt16) (name : LogicalAddress) (r : Peer) : Bool :=
  r.port = port ∧ parseLookup (c.lookup r.port 0 r.name).text = (c.name, name)

end Config

/-- A move of the device, `RegisterPeer` where it succeeds, a datagram that reaches
the server (the node's own registrations among them), of which the pushes to where
the node is arrive or are lost, and a call of `PollSubscriptions`. -/
def step (c : Config) (s : State) : Action → Option State
  | .move ip => some { s with ip := ip }
  | .registerPeer port rsAddr peer =>
      let h := s.server.receive (.lookup (c.lookup port s.ip peer))
      match h.sent with
      | [] => none
      | d :: _ =>
          let reply := readReply ⟨⟨netV4, 0, c.node.serverAddr⟩, d.payload⟩
          match s.node.registerPeer (c.socket port) rsAddr reply with
          | (none, _) => none
          | (some ptr, node) =>
              some { s with
                server := h.server
                node := node
                peers := s.peers ++ [⟨port, peer, ptr⟩] }
  | .serve e port arrives =>
      -- registrations, and lookups under other names
      if ∀ r ∈ e.lookup?, r.1.name ≠ c.name then
        some { s with
          server := s.server.next e
          inbox := fun fd =>
            s.inbox fd ++ c.arrivals s.ip s.server e port arrives fd }
      else none
  | .poll serverSize =>
      let st := s.node.pollSubscriptions serverSize s.sockets
      some { s with
        node := st.node
        inbox := fun fd => (s.inbox fd).drop
          ((s.inbox fd).length - (st.sockets fd).queue.length) }

/-- The node registers its peers, and nothing is pushed to it meanwhile. -/
def SettingUp (c : Config) (s : State) : Action → Prop
  | .move _ | .registerPeer .. => True
  | .serve e _ _ => c.updates s.ip s.server e = []
  | .poll _ => False

/-- All peers are registered. -/
def Following (_ : State) : Action → Prop
  | .registerPeer .. => False
  | .move _ | .serve .. | .poll _ => True

/-- A call of `PollSubscriptions` that takes a push off the socket `fd` leaves
the pushed address in the `sockaddr` returned there for the peer it is about,
and its round on that socket changes no other. -/
def UpdatesOwnPeer (c : Config) (s : State) (serverSize : Int → Int32) : Prop :=
  ∀ fd ptr about p, s.node.appSockets.lookup fd = some ptr →
    (s.inbox fd).head? = some (about, p) →
    let before := s.node.beforeSocket serverSize s.sockets fd
    let after := pollSocket serverSize before fd ptr
    before.node.isUpdate (before.peek serverSize fd) →
    ∃ own, c.returned s.peers fd about = some own ∧
      (s.node.pollSubscriptions serverSize s.sockets).node.deref own =
        { s.node.deref own with sinAddr := Device.location p } ∧
      ∀ other, other ≠ own → after.node.deref other = before.node.deref other

variable {c : Config} {s u : State} {e : Event} {srv : SimpleRendezvousServer}
  {peers : List Peer} {r : Peer} {fd : Int} {port : UInt16} {name : LogicalAddress}
  {ip : UInt32} {ptr : Ptr} {acts : List Action}

/-! ## What the node remembers -/

theorem Config.last_snoc :
    c.last (peers ++ [r]) fd =
      if c.socket r.port = fd then some r else c.last peers fd := by
  rw [last, lastWrite_snoc]
  rfl

theorem Config.mem_of_last (h : c.last peers fd = some r) :
    r ∈ peers ∧ c.socket r.port = fd := by
  obtain ⟨r', hr', heq⟩ := exists_write_of_lastWrite h
  rw [Option.some.injEq, Prod.mk.injEq] at heq
  obtain ⟨hfd, rfl⟩ := heq
  exact ⟨hr', hfd⟩

theorem Config.last_isSome (hr : r ∈ peers) :
    (c.last peers (c.socket r.port)).isSome :=
  lastWrite_isSome_of_mem hr rfl

theorem Config.mem_of_returned (h : c.returned peers fd name = some ptr) :
    ∃ r ∈ peers, r.name = name ∧ r.ptr = ptr := by
  obtain ⟨r, hr, heq⟩ := exists_write_of_lastWrite h
  rw [Option.some.injEq, Prod.mk.injEq, Prod.mk.injEq] at heq
  exact ⟨r, hr, heq.1.2, heq.2⟩

theorem Config.returned_of_last (h : c.last peers fd = some r) :
    c.returned peers fd r.name = some r.ptr := by
  induction peers using List.reverseRecOn with
  | nil => cases h
  | append_singleton peers r' ih =>
      rw [last_snoc] at h
      split at h
      · next hfd =>
          rw [Option.some.injEq] at h
          subst h
          exact lastWrite_snoc_self (by rw [hfd])
      · next hfd =>
          have hne : (c.socket r'.port, r'.name) ≠ (fd, r.name) := by
            intro heq
            exact hfd (congrArg Prod.fst heq)
          rw [returned, lastWrite_snoc, overwrite]
          simp only
          rw [if_neg hne]
          exact ih h

/-! ## What the server sends to the node -/

/-- Each push beside whom it is to -/
theorem zip_pushes {a : UInt32} (he : e.registers? = some (name, a))
    (hsock : 0 ≤ e.updateSocket) :
    (srv.subscribers name).elems.zip (srv.pushes e) = (srv.subscribers name).elems.map
      fun i => (i, ⟨e.updateSocket, pushAddr (srv.next e).registeredNames i,
        intToIPString a.toInt32 ++ [0]⟩) := by
  rw [pushes_of_registers he hsock, List.map_prod_left_eq_zip]

theorem Config.mem_updates {x : Update} (hx : x ∈ c.updates ip srv e) :
    ⟨c.name, x.port⟩ ∈ srv.subscribers x.about ∧
      ∃ a, e.registers? = some (x.about, a) ∧
        x.payload = intToIPString a.toInt32 ++ [0] := by
  rw [updates] at hx
  split at hx
  · cases hx
  · next about a he =>
      obtain ⟨⟨i, d⟩, hmem, rfl⟩ := List.mem_map.mp hx
      rw [List.mem_filter, decide_eq_true_eq] at hmem
      obtain ⟨hmem, hname, _⟩ := hmem
      by_cases hsock : 0 ≤ e.updateSocket
      · rw [zip_pushes he hsock] at hmem
        obtain ⟨i', hi', heq⟩ := List.mem_map.mp hmem
        cases heq
        refine ⟨?_, a, he, rfl⟩
        rw [← hname]
        exact hi'
      · rw [pushes_of_no_socket hsock, List.zip_nil_right] at hmem
        cases hmem

/-- A node that is where it last registered gets what it is subscribed to. -/
theorem Config.mem_updates_of_subscribed {a : UInt32}
    (he : e.registers? = some (name, a)) (hsock : 0 ≤ e.updateSocket)
    (hs : ⟨c.name, port⟩ ∈ srv.subscribers name)
    (hwhere : UnorderedMap.get (srv.next e).registeredNames c.name =
      intToIPString ip.toInt32) :
    ⟨name, port, intToIPString a.toInt32 ++ [0]⟩ ∈ c.updates ip srv e := by
  rw [updates, he]
  simp only
  rw [zip_pushes he hsock, List.mem_map]
  refine ⟨(⟨c.name, port⟩, ⟨e.updateSocket,
    pushAddr (srv.next e).registeredNames ⟨c.name, port⟩,
    intToIPString a.toInt32 ++ [0]⟩), List.mem_filter.mpr ⟨?_, ?_⟩, rfl⟩
  · exact List.mem_map.mpr ⟨⟨c.name, port⟩, hs, rfl⟩
  · rw [decide_eq_true_eq, pushAddr, hwhere, ipStringToInt_intToIPString]
    exact ⟨rfl, rfl⟩

theorem Config.mem_arrivals {arrives : UInt16 → Bool} {port' : UInt16}
    {x : LogicalAddress × Packet}
    (hx : x ∈ c.arrivals ip srv e port' arrives fd) :
    (∃ port, c.socket port = fd ∧ ⟨c.name, port⟩ ∈ srv.subscribers x.1) ∧
      ∃ a, e.registers? = some (x.1, a) ∧
        x.2 = ⟨⟨netV4, port', c.node.serverAddr⟩, intToIPString a.toInt32 ++ [0]⟩ := by
  obtain ⟨y, hy, rfl⟩ := List.mem_map.mp hx
  rw [List.mem_filter, Bool.and_eq_true, decide_eq_true_eq] at hy
  obtain ⟨hsub, a, he, hpayload⟩ := mem_updates hy.1
  exact ⟨⟨y.port, hy.2.1, hsub⟩, a, he, by rw [hpayload]⟩

/-! ## One call of `RegisterPeer` -/

/-- A lookup of a key switches one name of the port it came from. -/
theorem Config.mem_next_lookup {peer : LogicalAddress} (ptr : Ptr)
    (hclient : (parseLookup (c.lookup port ip peer).text).2 ∈ srv.registeredNames)
    (port' : UInt16) (name : LogicalAddress) :
    ⟨c.name, port'⟩ ∈
        (srv.next (.lookup (c.lookup port ip peer))).subscribers name ↔
      if c.asks port' name ⟨port, peer, ptr⟩ then
        ⟨c.name, port'⟩ ∉ srv.subscribers name
      else ⟨c.name, port'⟩ ∈ srv.subscribers name := by
  have hpayload : (c.lookup port ip peer).payload ≠ [] := lookupRequest_ne_nil _ _
  rw [next_eq_call, Event.call?, Event.lookup?, if_neg hpayload, Option.map_some]
  simp only
  split
  · next h =>
      obtain ⟨rfl, hparse⟩ := of_decide_eq_true h
      change parseLookup (c.lookup port ip peer).text = _ at hparse
      rw [hparse] at hclient ⊢
      exact mem_call_of_toggles ⟨rfl, hclient⟩
  · next h =>
      refine mem_call_of_not_toggles fun htoggles => h (decide_eq_true ?_)
      injection htoggles.1 with hsub hname
      injection hsub with hsub hport
      exact ⟨hport, Prod.ext hsub hname⟩

/-- A lookup that brings back an address has found it in the registry. -/
theorem registerPeer_cases {rsAddr : PhysicalAddress}
    {peer : LogicalAddress}
    (hs : step c s (.registerPeer port rsAddr peer) = some u) :
    (∀ es, s.server = (new c.registrationListener c.lookupListener).run es →
      Registered (parseLookup (c.lookup port s.ip peer).text).2 es) ∧
    u.server = s.server.next (.lookup (c.lookup port s.ip peer)) ∧
    u.peers = s.peers ++ [⟨port, peer, s.node.heap.length⟩] ∧
    u.inbox = s.inbox ∧
    u.node.rendezvousServer = s.node.rendezvousServer ∧
    u.node.heap.length = s.node.heap.length + 1 ∧
    u.node.appSockets =
      s.node.appSockets.insert (c.socket port) s.node.heap.length := by
  simp only [step] at hs
  split at hs
  · cases hs
  · next d rest hsent =>
      split at hs
      · cases hs
      · next ptr node hnode =>
          cases hs
          rw [(receive_lookup (lookupRequest_ne_nil _ _)).2, sendto] at hsent
          split at hsent
          · cases hsent
          · injection hsent with hd _
            rcases SimpleMobileNode.registerPeer_cases s.node (c.socket port)
              rsAddr (readReply ⟨⟨netV4, 0, c.node.serverAddr⟩, d.payload⟩) with
              ⟨_, hreply, heq⟩ | ⟨_, heq⟩
            · rw [heq] at hnode
              cases hnode
              refine ⟨fun es hes => ?_, rfl, rfl, rfl, rfl, by simp, rfl⟩
              rw [← hd, hes, get_run, readReply_addressText, Ne,
                addressText_eq_nil] at hreply
              exact lastRegistration_isSome_iff.mp
                (Option.isSome_iff_ne_none.mpr hreply)
            · rw [heq] at hnode
              cases hnode

theorem serve_cases {port' : UInt16} {arrives : UInt16 → Bool}
    (hs : step c s (.serve e port' arrives) = some u) :
    (∀ r ∈ e.lookup?, r.1.name ≠ c.name) ∧
      u = { s with
        server := s.server.next e
        inbox := fun fd =>
          s.inbox fd ++ c.arrivals s.ip s.server e port' arrives fd } := by
  rw [step, Option.ite_none_right_eq_some] at hs
  exact ⟨hs.1, (Option.some.inj hs.2).symm⟩

/-- The tagged queues after a call are the queues the call left. -/
theorem sockets_poll {serverSize : Int → Int32}
    (hs : step c s (.poll serverSize) = some u) :
    u.sockets = (s.node.pollSubscriptions serverSize s.sockets).sockets := by
  rw [step, Option.some.injEq] at hs
  subst hs
  funext fd
  obtain ⟨herr, hsuffix⟩ :=
    suffix_pollSubscriptions s.node serverSize s.sockets fd rfl
  have hqueue := (List.suffix_iff_eq_drop.mp hsuffix).symm
  have hlen : (s.sockets fd).queue.length = (s.inbox fd).length := List.length_map _
  rw [hlen] at hqueue
  rw [State.sockets, List.map_drop]
  exact congrArg₂ Socket.mk hqueue herr.symm

/-! ## The invariant -/

/-- The server has the names asked for an odd number of times, the daemon the
last peer of each socket, and what is queued is about one the server has. -/
structure Inv (c : Config) (s : State) : Prop where
  reachable : ∃ es, s.server = (new c.registrationListener c.lookupListener).run es ∧
    ∀ port name, ⟨c.name, port⟩ ∈ s.server.subscribers name → Registered name es
  parity : ∀ port name, ⟨c.name, port⟩ ∈ s.server.subscribers name ↔
    Odd (s.peers.countP (c.asks port name))
  server : s.node.rendezvousServer = c.node.rendezvousServer
  appSockets : ∀ fd,
    s.node.appSockets.lookup fd = (c.last s.peers fd).map Peer.ptr
  valid : ∀ r ∈ s.peers, r.ptr < s.node.heap.length
  nodup : (s.peers.map Peer.ptr).Nodup
  inbox : ∀ fd, ∀ x ∈ s.inbox fd,
    ∃ port, c.socket port = fd ∧ ⟨c.name, port⟩ ∈ s.server.subscribers x.1

theorem inv_init : Inv c c.init where
  reachable := ⟨[], rfl, fun _ _ h => absurd h (OrdSet.not_mem_empty _)⟩
  parity _ _ := iff_of_false (OrdSet.not_mem_empty _) (by simp [Config.init])
  server := rfl
  appSockets fd := by
    show c.node.appSockets.lookup fd = none
    rw [c.noPeers]
    rfl
  valid _ h := by cases h
  nodup := List.nodup_nil
  inbox _ _ h := by cases h

namespace Inv

theorem ptr_inj (h : Inv c s) {r r' : Peer} (hr : r ∈ s.peers) (hr' : r' ∈ s.peers)
    (hptr : r.ptr = r'.ptr) : r = r' :=
  List.inj_on_of_nodup_map h.nodup hr hr' hptr

theorem pointersDistinct (h : Inv c s) : PointersDistinct s.node := by
  intro fd fd' ptr h₁ h₂
  rw [h.appSockets, Option.map_eq_some_iff] at h₁ h₂
  obtain ⟨r, hr, rfl⟩ := h₁
  obtain ⟨r', hr', hptr⟩ := h₂
  obtain ⟨hmem, rfl⟩ := Config.mem_of_last hr
  obtain ⟨hmem', rfl⟩ := Config.mem_of_last hr'
  rw [h.ptr_inj hmem' hmem hptr]

theorem move (h : Inv c s) (ip : UInt32) : Inv c { s with ip := ip } :=
  ⟨h.reachable, h.parity, h.server, h.appSockets, h.valid, h.nodup, h.inbox⟩

theorem registerPeer (h : Inv c s) (hempty : ∀ fd, s.inbox fd = [])
    {rsAddr : PhysicalAddress} {peer : LogicalAddress}
    (hs : step c s (.registerPeer port rsAddr peer) = some u) : Inv c u := by
  obtain ⟨hreg, hserver, hpeers, hinbox, hrs, hheap, hsockets⟩ :=
    registerPeer_cases hs
  obtain ⟨es, hes, hsubs⟩ := h.reachable
  have hclient : (parseLookup (c.lookup port s.ip peer).text).2 ∈
      s.server.registeredNames := by
    rw [hes]
    exact mem_registeredNames_run (hreg es hes)
  have hmem := Config.mem_next_lookup s.node.heap.length hclient
  refine ⟨⟨es ++ [.lookup (c.lookup port s.ip peer)], ?_, ?_⟩, ?_, hrs.trans h.server,
    ?_, ?_, ?_, ?_⟩
  · rw [hserver, hes, run_snoc]
  · intro port' name hs'
    have hold : Registered name es := by
      rw [hserver, hmem] at hs'
      split at hs'
      · next hasks =>
          have hname : (parseLookup (c.lookup port s.ip peer).text).2 = name :=
            congrArg Prod.snd (of_decide_eq_true hasks).2
          rw [← hname]
          exact hreg es hes
      · exact hsubs port' name hs'
    obtain ⟨e, he, a, hr⟩ := hold
    exact ⟨e, List.mem_append_left _ he, a, hr⟩
  · intro port' name
    rw [hserver, hmem, hpeers, List.countP_append, List.countP_singleton, h.parity]
    split
    · rw [Nat.odd_add_one]
    · rfl
  · intro fd
    rw [hsockets, hpeers, Config.last_snoc]
    split
    · next hfd =>
        subst hfd
        rw [AList.lookup_insert]
        rfl
    · next hfd =>
        rw [AList.lookup_insert_ne (Ne.symm hfd), h.appSockets]
  · intro r hr
    rw [hpeers, List.mem_append, List.mem_singleton] at hr
    rw [hheap]
    rcases hr with hr | rfl
    · exact Nat.lt_succ_of_lt (h.valid r hr)
    · exact Nat.lt_succ_self _
  · rw [hpeers, List.map_append, List.nodup_append]
    refine ⟨h.nodup, List.nodup_singleton _, ?_⟩
    rintro ptr hptr _ hnew rfl
    obtain ⟨r, hr, rfl⟩ := List.mem_map.mp hptr
    rw [List.map_singleton, List.mem_singleton] at hnew
    exact absurd (h.valid r hr) (by rw [hnew]; exact Nat.lt_irrefl _)
  · intro fd x hx
    rw [hinbox, hempty] at hx
    cases hx

theorem serve (h : Inv c s) {port' : UInt16} {arrives : UInt16 → Bool}
    (hs : step c s (.serve e port' arrives) = some u) : Inv c u := by
  obtain ⟨hother, rfl⟩ := serve_cases hs
  have hmem : ∀ port name,
      ⟨c.name, port⟩ ∈ (s.server.next e).subscribers name ↔
        ⟨c.name, port⟩ ∈ s.server.subscribers name := by
    intro port name
    exact mem_subscribers_next fun m hl => hother _ hl rfl
  obtain ⟨es, hes, hsubs⟩ := h.reachable
  refine ⟨⟨es ++ [e], ?_, ?_⟩, ?_, h.server, h.appSockets, h.valid, h.nodup, ?_⟩
  · rw [hes, run_snoc]
  · intro port name hs'
    obtain ⟨e', he', hr⟩ := hsubs port name ((hmem port name).mp hs')
    exact ⟨e', List.mem_append_left _ he', hr⟩
  · intro port name
    rw [hmem, h.parity]
  · intro fd x hx
    simp only [hmem]
    rcases List.mem_append.mp hx with hx | hx
    · exact h.inbox fd x hx
    · exact (Config.mem_arrivals hx).1

theorem poll (h : Inv c s) {serverSize : Int → Int32}
    (hs : step c s (.poll serverSize) = some u) : Inv c u := by
  rw [step, Option.some.injEq] at hs
  subst hs
  have hpolled := polled_pollSubscriptions s.node serverSize s.sockets
  refine ⟨h.reachable, h.parity, hpolled.rendezvousServer.trans h.server,
    fun fd => ?_, fun r hr => ?_, h.nodup, fun fd x hx => ?_⟩
  · exact (congrArg (AList.lookup fd) hpolled.appSockets).trans (h.appSockets fd)
  · exact Nat.lt_of_lt_of_eq (h.valid r hr) hpolled.heap.symm
  · exact h.inbox fd x (List.mem_of_mem_drop hx)

/-- The round that takes a push writes the `sockaddr` the daemon has for the
socket, whosever it is. -/
theorem round (h : Inv c s) {about : LogicalAddress} {p : Packet}
    {serverSize : Int → Int32} (hptr : s.node.appSockets.lookup fd = some ptr)
    (hhead : (s.inbox fd).head? = some (about, p)) :
    let before := s.node.beforeSocket serverSize s.sockets fd
    let after := pollSocket serverSize before fd ptr
    before.node.isUpdate (before.peek serverSize fd) →
    (s.node.pollSubscriptions serverSize s.sockets).node.deref ptr =
        { s.node.deref ptr with sinAddr := Device.location p } ∧
      ∀ other, other ≠ ptr → after.node.deref other = before.node.deref other := by
  intro before after hup
  obtain ⟨hbefore, hafter⟩ :=
    pollSubscriptions_at hptr h.pointersDistinct serverSize s.sockets
  obtain ⟨p', rest, hsock, _, heq⟩ := pollSocket_of_isUpdate before ptr hup
  have hp : p' = p := by
    obtain ⟨tail, htail⟩ := List.head?_eq_some_iff.mp hhead
    have hqueue := congrArg Socket.queue (hbefore.socket.symm.trans hsock)
    change (s.inbox fd).map Prod.snd = p' :: rest at hqueue
    rw [htail] at hqueue
    injection hqueue with hp _
    exact hp.symm
  have hvalid : ptr < before.node.heap.length := by
    rw [hbefore.heap]
    rw [h.appSockets, Option.map_eq_some_iff] at hptr
    obtain ⟨r, hr, rfl⟩ := hptr
    exact h.valid r (Config.mem_of_last hr).1
  have hnode : after.node = before.node.applyUpdate fd ptr p := by
    rw [← hp]
    exact congrArg PollState.node heq
  constructor
  · rw [hafter.peer]
    show after.node.deref ptr = _
    rw [hnode]
    refine (deref_setSinAddr_self hvalid).trans ?_
    rw [hbefore.peer]
    rfl
  · intro other hne
    rw [hnode]
    exact deref_setSinAddr_ne hne

/-- With room for the source address the round sees the push at the head. -/
theorem isUpdate_of_push (h : Inv c s) {about : LogicalAddress} {p : Packet}
    {rest : List (LogicalAddress × Packet)}
    (hptr : s.node.appSockets.lookup fd = some ptr)
    (hinbox : s.inbox fd = (about, p) :: rest)
    (hsrc : p.src.sinAddr = c.node.serverAddr) (hp : p.payload ≠ []) :
    let before := s.node.beforeSocket (fun _ => sizeofSockAddr) s.sockets fd
    before.node.isUpdate (before.peek (fun _ => sizeofSockAddr) fd) := by
  intro before
  obtain ⟨hbefore, _⟩ := pollSubscriptions_at hptr h.pointersDistinct
    (fun _ => sizeofSockAddr) s.sockets
  have hsock : before.sockets fd = ⟨p :: rest.map Prod.snd, none⟩ := by
    refine hbefore.socket.trans ?_
    show (⟨(s.inbox fd).map Prod.snd, none⟩ : Socket) = _
    rw [hinbox, List.map_cons]
  have hrs : before.node.rendezvousServer = c.node.rendezvousServer :=
    hbefore.server.trans h.server
  rw [PollState.peek, hsock, recvfrom_cons _ _ _ _ _ le_sizeofSockAddr, isUpdate,
    hsrc, serverAddr, serverAddr, hrs, Bool.and_eq_true, decide_eq_true_eq]
  exact ⟨length_take_pos.mpr hp, beq_self_eq_true _⟩

end Inv

/-! ## Runs -/

theorem inv_of_settingUp (h : Run (step c) (SettingUp c) c.init acts s) :
    Inv c s ∧ ∀ fd, s.inbox fd = [] := by
  refine h.invariant (I := fun s => Inv c s ∧ ∀ fd, s.inbox fd = [])
    ⟨inv_init, fun _ => rfl⟩ ?_
  intro s a u ⟨hinv, hempty⟩ hg hs
  cases a with
  | move ip =>
      cases hs
      exact ⟨hinv.move ip, hempty⟩
  | registerPeer port rsAddr peer =>
      refine ⟨hinv.registerPeer hempty hs, fun fd => ?_⟩
      rw [(registerPeer_cases hs).2.2.2.1, hempty]
  | serve e port arrives =>
      refine ⟨hinv.serve hs, fun fd => ?_⟩
      obtain ⟨_, rfl⟩ := serve_cases hs
      have hnone : c.updates s.ip s.server e = [] := hg
      simp [hempty, Config.arrivals, hnone]
  | poll serverSize => exact absurd hg id

theorem inv_of_following {t : State} (hinv : Inv c s)
    (h : Run (step c) Following s acts t) : Inv c t ∧ t.peers = s.peers := by
  refine h.invariant (I := fun u => Inv c u ∧ u.peers = s.peers) ⟨hinv, rfl⟩ ?_
  intro u a v ⟨hu, hpeers⟩ hg hs
  cases a with
  | move ip =>
      cases hs
      exact ⟨hu.move ip, hpeers⟩
  | registerPeer port rsAddr peer => exact absurd hg id
  | serve e port arrives =>
      refine ⟨hu.serve hs, ?_⟩
      obtain ⟨_, rfl⟩ := serve_cases hs
      exact hpeers
  | poll serverSize =>
      refine ⟨hu.poll hs, ?_⟩
      rw [step, Option.some.injEq] at hs
      rw [← hs]
      exact hpeers

/-- Every name asked for an odd number of times on a socket is that of the last
peer registered there. -/
def LastAskedFor (c : Config) (peers : List Peer) : Prop :=
  ∀ port name, Odd (peers.countP (c.asks port name)) →
    (c.last peers (c.socket port)).map Peer.name = some name

theorem updatesOwnPeer_of_last (h : Inv c s) (hlast : LastAskedFor c s.peers)
    (serverSize : Int → Int32) : UpdatesOwnPeer c s serverSize := by
  intro fd ptr about p hptr hhead before after hup
  obtain ⟨port, hfd, hsub⟩ := h.inbox fd (about, p) (List.mem_of_mem_head? hhead)
  obtain ⟨r, hr, hname⟩ := Option.map_eq_some_iff.mp
    (hlast port about ((h.parity port about).mp hsub))
  have hown := Config.returned_of_last hr
  rw [hfd, hname] at hown
  have hptr' : r.ptr = ptr := by
    rw [h.appSockets, ← hfd, hr] at hptr
    exact Option.some.inj hptr
  rw [hptr'] at hown
  exact ⟨ptr, hown, h.round hptr hhead hup⟩

/-- A datagram that registered a name registers it from anywhere. -/
theorem exists_registration {es : List Event} (h : Registered name es)
    (a : UInt32) (sock : Int) : ∃ q, (Event.registration q sock).registers? =
      some (name, a) := by
  obtain ⟨e, _, b, he⟩ := h
  cases e with
  | lookup q => cases he
  | registration q sock' =>
      rw [Event.registers?] at he
      split at he
      · cases he
      · next hq =>
          injection he with he
          have hname : q.text = name := congrArg Prod.fst he
          refine ⟨⟨⟨netV4, 0, a⟩, q.payload⟩, ?_⟩
          rw [Event.registers?, if_neg hq, ← hname]
          rfl

/-- The node can go anywhere and register there. -/
theorem exists_registered (s : State) (a : UInt32) :
    ∃ acts t, Run (step c) Following s acts t ∧ t.ip = a ∧ t.node = s.node ∧
      t.inbox = s.inbox ∧ t.peers = s.peers ∧
      UnorderedMap.get t.server.registeredNames c.name = intToIPString a.toInt32 := by
  let e := Event.registration (c.node.registration a.toInt32 0) 0
  have he : e.registers? = some (c.name, a) := c.sendable.registers? rfl a.toInt32 0 0
  have hmove : step c s (.move a) = some { s with ip := a } := rfl
  have hserve : step c { s with ip := a } (.serve e 0 fun _ => false) = some
      { s with ip := a, server := s.server.next e } := by
    rw [step, if_pos (by intro r hr; cases hr)]
    simp [Config.arrivals]
  have hstart : Following s (.move a) := trivial
  have hserving : Following { s with ip := a } (.serve e 0 fun _ => false) := trivial
  refine ⟨_, _, (Run.nil.snoc hstart hmove).snoc hserving hserve, rfl, rfl, rfl, rfl, ?_⟩
  rw [get_next, he]
  exact if_pos rfl

/-- A peer that the server has for a port can register, and the push comes to the
socket. -/
theorem exists_push (h : Inv c s) (hempty : ∀ fd, s.inbox fd = [])
    (hsub : ⟨c.name, port⟩ ∈ s.server.subscribers name) (a : UInt32) :
    ∃ acts t p rest, Run (step c) Following s acts t ∧ t.node = s.node ∧
      t.inbox (c.socket port) = (name, p) :: rest ∧
      p.src.sinAddr = c.node.serverAddr ∧ p.payload ≠ [] ∧ Device.location p = a := by
  obtain ⟨acts, t, hrun, hip, hnode, hinbox, hpeers, hwhere⟩ :=
    exists_registered (c := c) s a
  have ht := (inv_of_following h hrun).1
  have hsub' : ⟨c.name, port⟩ ∈ t.server.subscribers name := by
    rw [ht.parity, hpeers, ← h.parity]
    exact hsub
  obtain ⟨es, _, hsubs⟩ := ht.reachable
  obtain ⟨q, hq⟩ := exists_registration (hsubs port name hsub') a 0
  let e := Event.registration q 0
  let arrived := c.arrivals t.ip t.server e 0 fun _ => true
  have hstep : step c t (.serve e 0 fun _ => true) = some
      { t with
        server := t.server.next e
        inbox := fun fd => t.inbox fd ++ arrived fd } := by
    rw [step, if_pos (by intro r hr; cases hr)]
  have hwhere' : UnorderedMap.get (t.server.next e).registeredNames c.name =
      intToIPString t.ip.toInt32 := by
    rw [get_next, hq, hip]
    simp only [hwhere, ite_self]
  obtain ⟨x, rest, hx⟩ : ∃ x rest, arrived (c.socket port) = x :: rest := by
    have hmem := Config.mem_updates_of_subscribed hq (Int.le_refl 0) hsub' hwhere'
    refine List.exists_cons_of_ne_nil (List.ne_nil_of_mem
      (List.mem_map_of_mem (List.mem_filter.mpr ⟨hmem, ?_⟩)))
    simp
  obtain ⟨_, b, hb, hpacket⟩ := Config.mem_arrivals
    (show x ∈ arrived (c.socket port) by rw [hx]; exact List.mem_cons_self)
  rw [hq, Option.some.injEq, Prod.mk.injEq] at hb
  have hguard : Following t (.serve e 0 fun _ => true) := trivial
  refine ⟨_, _, x.2, rest, hrun.snoc hguard hstep, hnode, ?_, ?_, ?_, ?_⟩
  · show t.inbox (c.socket port) ++ arrived (c.socket port) = _
    rw [hinbox, hempty, List.nil_append, hx, hb.1]
  · rw [hpacket]
  · rw [hpacket]
    simp
  · rw [hpacket, hb.2]
    exact ipStringToInt_push _ b

theorem last_of_updatesOwnPeer (h : Inv c s) (hempty : ∀ fd, s.inbox fd = [])
    (hall : ∀ acts t, Run (step c) Following s acts t →
      ∀ serverSize, UpdatesOwnPeer c t serverSize) : LastAskedFor c s.peers := by
  intro port name hodd
  obtain ⟨r, hr, hasks⟩ := List.countP_pos_iff.mp hodd.pos
  obtain ⟨rfl, _⟩ := of_decide_eq_true hasks
  obtain ⟨l, hl⟩ := Option.isSome_iff_exists.mp (Config.last_isSome (c := c) hr)
  -- the name's peer registers from where the last one's `sockaddr` does not say
  let a := (s.node.deref l.ptr).sinAddr
  obtain ⟨acts, t, p, rest, hrun, hnode, hinbox, hsrc, hpayload, hloc⟩ :=
    exists_push h hempty ((h.parity r.port name).mpr hodd) (a + 1)
  obtain ⟨ht, hpeers⟩ := inv_of_following h hrun
  have hptr : t.node.appSockets.lookup (c.socket r.port) = some l.ptr := by
    rw [ht.appSockets, hpeers, hl]
    rfl
  have hhead : (t.inbox (c.socket r.port)).head? = some (name, p) := by
    rw [hinbox]
    rfl
  have hup := ht.isUpdate_of_push hptr hinbox hsrc hpayload
  obtain ⟨own, hown, _, hother⟩ := hall acts t hrun _ _ _ _ _ hptr hhead hup
  have hwrite := (ht.round hptr hhead hup).1
  obtain ⟨hbefore, hafter⟩ := pollSubscriptions_at hptr ht.pointersDistinct
    (fun _ => sizeofSockAddr) t.sockets
  by_cases heq : l.ptr = own
  · obtain ⟨r', hr', hname, hptr'⟩ := Config.mem_of_returned hown
    rw [hpeers] at hr'
    have hrl : r' = l :=
      h.ptr_inj hr' (Config.mem_of_last hl).1 (hptr'.trans heq.symm)
    rw [hl, ← hname, hrl]
    rfl
  · rw [hafter.peer, hother _ heq, hbefore.peer] at hwrite
    have haddr : a = a + 1 := by
      refine Eq.trans ?_ ((congrArg SockAddr.sinAddr hwrite).trans hloc)
      show a = (t.node.deref l.ptr).sinAddr
      rw [hnode]
    exact absurd haddr (by simp)

/-- One peer a socket is enough, where the server reads the names as they are
meant. -/
theorem lastAskedFor_of_one_peer
    (hread : ∀ r ∈ peers, (parseLookup (c.lookup r.port 0 r.name).text).2 = r.name)
    (hone : ∀ r ∈ peers, ∀ r' ∈ peers, c.socket r.port = c.socket r'.port →
      r.name = r'.name) : LastAskedFor c peers := by
  intro port name hodd
  obtain ⟨r, hr, hasks⟩ := List.countP_pos_iff.mp hodd.pos
  obtain ⟨rfl, hparse⟩ := of_decide_eq_true hasks
  obtain ⟨l, hl⟩ := Option.isSome_iff_exists.mp (Config.last_isSome (c := c) hr)
  obtain ⟨hmem, hfd⟩ := Config.mem_of_last hl
  rw [hl, Option.map_some, hone l hmem r hr hfd, ← hread r hr, hparse]

instance (c : Config) (s : State) (a : Action) : Decidable (SettingUp c s a) := by
  cases a with
  | move ip => exact inferInstanceAs (Decidable True)
  | registerPeer port rsAddr peer => exact inferInstanceAs (Decidable True)
  | serve e port arrives =>
      exact decidable_of_iff _ List.isEmpty_iff
  | poll serverSize => exact inferInstanceAs (Decidable False)

instance (s : State) (a : Action) : Decidable (Following s a) := by
  cases a <;> unfold Following <;> infer_instance

/-- A node A, with a socket on each port. -/
def Config.sample : Config where
  node := .new (ascii "A") (ascii "1.2.3.9") (ascii "1.2.3.4") 1
  noPeers := rfl
  sendable := ⟨by decide, by decide, by decide⟩
  ip := 1
  socket port := port.toNat
  registrationListener := 3
  lookupListener := 4

end Peers

end PermanentIP

import PermanentIP.System.StartLoop
import PermanentIP.System.StationarySubscriber
import PermanentIP.Lib.Channel

/-!
# Two nodes that both move

One server, and two devices that are registered there and subscribed to each
other. Each runs the daemon's loop and moves whenever it likes. The network
keeps the order of what it carries, and loses what is addressed to an address
its recipient no longer has when it arrives; what goes to the server arrives.
What the applications say to each other, the daemons' resends among it, is not
followed: the datagrams are registrations, their answers, and pushes.

A push goes to the address under which the server knows the subscriber, and is
sent once. If the subscriber has moved meanwhile it is lost, and when the
subscriber registers again the server does not repeat it. So two nodes that move
at the same time can lose each other: whichever is registered second is pushed
to the first, but the push about the first went to where the second was.

What decides is the last push to each node. With everything at rest the nodes
have each other's addresses if and only if the last push to each got through, or
carried the address that the last one to get through did (`in_touch_iff`).
-/

namespace PermanentIP

open Lib SimpleMobileNode SimpleRendezvousServer

namespace TwoNodes

inductive Side where
  | a
  | b
deriving DecidableEq

def Side.other : Side → Side
  | .a => .b
  | .b => .a

/-- The two nodes' names, their app ports and where each keeps its peer's
`sockaddr`; and the rendezvous server's address as they have it. -/
structure Config where
  name : Side → LogicalAddress
  port : Side → UInt16
  ptr : Side → Ptr
  rendezvousServer : PhysicalAddress
  sendable : ∀ x, StartLoop.Sendable (name x)
  name_ne : name .a ≠ name .b

/-- One device with its application and its daemon. `requests` are its
registrations under way, `pushes` and `replies` what the server sends it, and
`handled` is where the last registration the server handled was from. -/
structure Host where
  device : Device
  ip : Int32
  pc : StartLoop.Pc
  requests : List Packet
  pushes : Channel Sent
  replies : List Sent
  handled : UInt32

structure State where
  server : SimpleRendezvousServer
  host : Side → Host

def State.set (s : State) (x : Side) (h : Host) : State :=
  { s with host := Function.update s.host x h }

def Host.node (h : Host) : SimpleMobileNode := h.device.app.mobileNode

def Host.peer (h : Host) (ptr : Ptr) : SockAddr := h.node.deref ptr

/-- The address the peer will have there once what is queued is applied. -/
def Host.holds (h : Host) (ptr : Ptr) : UInt32 :=
  (h.device.socket.queue.map Device.location).getLastD (h.peer ptr).sinAddr

def address (d : Sent) : UInt32 := Device.location ⟨.zero, d.payload⟩

inductive Action where
  | move (x : Side) (ip : Int32)
  | compare (x : Side)
  | register (x : Side) (port : UInt16)
  | serve (x : Side) (updateSocket : Int)
  | arrive (x : Side) (port : UInt16)
  | answer (x : Side)
  | poll (x : Side) (serverSize : Int → Int32) (server : SockAddr)
  | store (x : Side)
  | loop (x : Side)

/-- A datagram from the server as the app socket gets it, from the port of the
socket it was sent on. -/
def Config.update (c : Config) (port : UInt16) (d : Sent) : Packet :=
  ⟨⟨netV4, port, (ipStringToInt c.rendezvousServer).toUInt32⟩, d.payload⟩

def step (c : Config) (s : State) : Action → Option State
  | .move x ip => some (s.set x { s.host x with ip := ip })
  | .compare x =>
      let h := s.host x
      if h.pc = .compare then
        some (s.set x { h with
          pc := if h.node.hasMoved (currentIPAddress h.ip) then .update else .poll })
      else none
  | .register x port =>
      let h := s.host x
      if h.pc = .update then
        some (s.set x { h with
          pc := .updateWait
          requests := h.requests ++ [h.node.registration h.ip port] })
      else none
  | .serve x updateSocket =>
      let h := s.host x
      match h.requests with
      | [] => none
      | p :: requests =>
          -- `UpdateAddress` gets a socket; its pushes go out before the reply
          if 0 ≤ updateSocket then
            let e := Event.registration p updateSocket
            let pushes := s.server.pushes e
            let replies := (s.server.receive e).sent.drop pushes.length
            let s := s.set x { h with
              requests := requests
              replies := h.replies ++ replies
              handled := p.src.sinAddr }
            let g := s.host x.other
            some ({ s with server := s.server.next e }.set x.other
              { g with pushes := g.pushes.send pushes })
          else none
  | .arrive x port =>
      let h := s.host x
      match h.pushes.flight with
      | [] => none
      | d :: _ =>
          if d.dst.sinAddr = h.ip.toUInt32 then
            let queue := h.device.socket.queue ++ [c.update port d]
            some (s.set x { h with
              device := { h.device with
                socket := { h.device.socket with queue := queue } }
              pushes := h.pushes.deliver })
          else some (s.set x { h with pushes := h.pushes.lose })
  | .answer x =>
      let h := s.host x
      match h.replies with
      | [] => none
      | d :: replies =>
          let pc :=
            if h.pc = .updateWait ∧ d.dst.sinAddr = h.ip.toUInt32 then .poll
            else h.pc
          some (s.set x { h with pc := pc, replies := replies })
  | .poll x serverSize server =>
      let h := s.host x
      if h.pc = .poll then
        let st := h.device.poll (c.ptr x) serverSize server
        some (s.set x { h with
          pc := .store
          device :=
            { app := { h.device.app with mobileNode := st.node }
              socket := st.sockets h.device.app.appSocket } })
      else none
  | .store x =>
      let h := s.host x
      if h.pc = .store then
        let node := h.node.storeIpAddress (currentIPAddress h.ip)
        some (s.set x { h with
          pc := .bottom
          device := { h.device with
            app := { h.device.app with mobileNode := node } } })
      else none
  | .loop x =>
      let h := s.host x
      if h.pc = .bottom then some (s.set x { h with pc := .compare }) else none

/-- Both nodes are registered, at `b`, and subscribed to each other; each has
the address the other is registered at; no registration and no push is under
way. -/
structure Introduced (c : Config) (b : Side → UInt32) (s : State) : Prop where
  name : ∀ x, (s.host x).node.logicalAddress = c.name x
  peer : ∀ x, Device.AtLastUpdate c.rendezvousServer (c.ptr x) (b x.other) []
    (s.host x).device
  queue : ∀ x, (s.host x).device.socket.queue = []
  requests : ∀ x, (s.host x).requests = []
  pushes : ∀ x, (s.host x).pushes = .empty
  handled : ∀ x, (s.host x).handled = b x
  registered : ∀ x, UnorderedMap.get s.server.registeredNames (c.name x) =
    intToIPString (b x).toInt32
  subscribed : ∀ x, (s.server.subscribers (c.name x)).elems =
    [⟨c.name x.other, c.port x.other⟩]

/-- No datagram is in flight or queued. -/
def AtRest (s : State) : Prop :=
  ∀ x, (s.host x).requests = [] ∧ (s.host x).pushes.flight = [] ∧
    (s.host x).replies = [] ∧ (s.host x).device.socket.queue = []

/-- The last registration the server handled from each node came from where the
node is. -/
def Current (s : State) : Prop :=
  ∀ x, (s.host x).handled = (s.host x).ip.toUInt32

/-- Each node has the other's address. -/
def InTouch (c : Config) (s : State) : Prop :=
  ∀ x, ((s.host x).peer (c.ptr x)).sinAddr = (s.host x.other).ip.toUInt32

/-- A push that is lost has another behind it, or carries the address that the
node will have without it. -/
def KeepsLastPush (c : Config) (s : State) : Action → Prop
  | .arrive x _ => (s.host x).pushes.flight.tail = [] →
      ∀ d ∈ (s.host x).pushes.flight.head?,
        d.dst.sinAddr = (s.host x).ip.toUInt32 ∨
          address d = (s.host x).holds (c.ptr x)
  | .move .. | .compare _ | .register .. | .serve .. | .answer _ | .poll .. |
    .store _ | .loop _ => True

instance (c : Config) (s : State) (a : Action) : Decidable (KeepsLastPush c s a) := by
  cases a <;> unfold KeepsLastPush <;> infer_instance

variable {c : Config} {b : Side → UInt32} {s u : State} {a : Action}
  {acts : List Action} {x y : Side} {h g : Host}

theorem Side.other_ne (x : Side) : x.other ≠ x := by
  cases x <;> simp [Side.other]

@[simp] theorem Side.other_other (x : Side) : x.other.other = x := by
  cases x <;> rfl

theorem Side.eq_or_eq_other (x y : Side) : y = x ∨ y = x.other := by
  cases x <;> cases y <;> simp [Side.other]

/-- What is not the same for both tells them apart. -/
theorem Side.injective_of_ne {β : Type*} {f : Side → β} (h : f .a ≠ f .b) :
    Function.Injective f := by
  intro x y hf
  cases x with
  | a =>
      cases y with
      | a => rfl
      | b => exact absurd hf h
  | b =>
      cases y with
      | a => exact absurd hf.symm h
      | b => rfl

@[simp] theorem State.host_set_self : (s.set x h).host x = h :=
  Function.update_self ..

theorem State.host_set_ne (hne : y ≠ x) : (s.set x h).host y = s.host y :=
  Function.update_of_ne hne ..

/-! ## One device -/

/-- The device has taken what got through to it, in order, and what it has sent
or will send registers its name. -/
structure HostInv (c : Config) (b : Side → UInt32) (x : Side) (h : Host) : Prop where
  name : h.node.logicalAddress = c.name x
  requests : ∀ p ∈ h.requests, ∀ sock,
    (Event.registration p sock).registers? = some (c.name x, p.src.sinAddr)
  queue : ∀ p ∈ h.device.socket.queue, Device.fromServer c.rendezvousServer p
  device : ∃ arrived,
    Device.AtLastUpdate c.rendezvousServer (c.ptr x) (b x.other) arrived h.device ∧
      (∀ p ∈ arrived, Device.fromServer c.rendezvousServer p) ∧
      arrived.map Device.location = h.pushes.received.map address

theorem HostInv.congr (hi : HostInv c b x h) (hdevice : g.device = h.device)
    (hreq : ∀ p ∈ g.requests, p ∈ h.requests)
    (hreceived : g.pushes.received = h.pushes.received) : HostInv c b x g where
  name := by rw [Host.node, hdevice]; exact hi.name
  requests p hp := hi.requests p (hreq p hp)
  queue := by rw [hdevice]; exact hi.queue
  device := by rw [hdevice, hreceived]; exact hi.device

theorem HostInv.register (hi : HostInv c b x h) (port : UInt16) :
    HostInv c b x { h with
      pc := .updateWait
      requests := h.requests ++ [h.node.registration h.ip port] } where
  name := hi.name
  requests p hp sock := by
    rcases List.mem_append.mp hp with hp | hp
    · exact hi.requests p hp sock
    · rw [List.mem_singleton.mp hp]
      exact (c.sendable x).registers? hi.name h.ip port sock
  queue := hi.queue
  device := hi.device

theorem HostInv.deliver (hi : HostInv c b x h) {d : Sent} {rest : List Sent}
    (hflight : h.pushes.flight = d :: rest) (port : UInt16) :
    HostInv c b x { h with
      device := { h.device with
        socket := { h.device.socket with
          queue := h.device.socket.queue ++ [c.update port d] } }
      pushes := h.pushes.deliver } where
  name := hi.name
  requests := hi.requests
  queue p hp := by
    rcases List.mem_append.mp hp with hp | hp
    · exact hi.queue p hp
    · rw [List.mem_singleton.mp hp]
      exact decide_eq_true rfl
  device := by
    obtain ⟨arrived, hlaw, hfrom, hmap⟩ := hi.device
    refine ⟨arrived ++ [c.update port d], hlaw.arrive _, fun p hp => ?_, ?_⟩
    · rcases List.mem_append.mp hp with hp | hp
      · exact hfrom p hp
      · rw [List.mem_singleton.mp hp]
        exact decide_eq_true rfl
    · show _ = (h.pushes.received ++ h.pushes.flight.head?.toList).map address
      rw [hflight, List.map_append, List.map_append, hmap]
      rfl

/-- With only the server's datagrams on the socket a poll needs no room for
anyone else's address. -/
theorem HostInv.fillsAddress (hi : HostInv c b x h) (serverSize : Int → Int32)
    (server : SockAddr) :
    Device.FillsAddress h.device (.poll serverSize server) := by
  obtain ⟨arrived, hlaw, _⟩ := hi.device
  intro p hp hnot
  have hmem : p ∈ h.device.socket.queue := List.mem_of_mem_head? hp
  rw [hlaw.appServer, hi.queue p hmem] at hnot
  cases hnot

theorem HostInv.poll (hi : HostInv c b x h) (serverSize : Int → Int32)
    (server : SockAddr) :
    HostInv c b x { h with
      pc := .store
      device :=
        { app := { h.device.app with
            mobileNode := (h.device.poll (c.ptr x) serverSize server).node }
          socket := (h.device.poll (c.ptr x) serverSize server).sockets
            h.device.app.appSocket } } where
  name := by
    rcases node_pollSocket serverSize
        ⟨h.node, fun _ => h.device.socket, server, [], false⟩
        h.device.app.appSocket (c.ptr x) with heq | ⟨p, heq⟩
    · exact (congrArg SimpleMobileNode.logicalAddress heq).trans hi.name
    · exact (congrArg SimpleMobileNode.logicalAddress heq).trans hi.name
  requests := hi.requests
  queue p hp := hi.queue p (mem_queue_pollSocket hp)
  device := by
    obtain ⟨arrived, hlaw, hfrom, hmap⟩ := hi.device
    exact ⟨arrived, hlaw.poll (hi.fillsAddress serverSize server), hfrom, hmap⟩

theorem HostInv.store (hi : HostInv c b x h) (seen : Int32) :
    HostInv c b x { h with
      pc := .bottom
      device := { h.device with
        app := { h.device.app with
          mobileNode := h.node.storeIpAddress seen } } } where
  name := hi.name
  requests := hi.requests
  queue := hi.queue
  device := by
    obtain ⟨arrived, hlaw, hfrom, hmap⟩ := hi.device
    exact ⟨arrived, hlaw.keep ⟨rfl, rfl, rfl, rfl⟩ rfl, hfrom, hmap⟩

theorem HostInv.holds_eq (hi : HostInv c b x h) :
    h.holds (c.ptr x) = h.pushes.lastReceived address (b x.other) := by
  obtain ⟨arrived, hlaw, hfrom, hmap⟩ := hi.device
  obtain ⟨taken, harr, hpeer⟩ := hlaw.taken
  rw [List.filter_eq_self.mpr hfrom, List.filter_eq_self.mpr hi.queue] at harr
  rw [Channel.lastReceived, ← hmap, harr, List.map_append, Channel.getLastD_append,
    ← hpeer]
  rfl

/-! ## The two devices and the server -/

/-- Each device is as it should be, and the server has each where it last
registered from and has sent that to the other. -/
structure Inv (c : Config) (b : Side → UInt32) (s : State) : Prop where
  host : ∀ x, HostInv c b x (s.host x)
  registered : ∀ x, UnorderedMap.get s.server.registeredNames (c.name x) =
    intToIPString (s.host x).handled.toInt32
  subscribed : ∀ x, (s.server.subscribers (c.name x)).elems =
    [⟨c.name x.other, c.port x.other⟩]
  pushed : ∀ x, (s.host x).pushes.lastSent address (b x.other) =
    (s.host x.other).handled

theorem Introduced.inv (h : Introduced c b s) : Inv c b s where
  host x := by
    refine ⟨h.name x, ?_, ?_, [], h.peer x, ?_, ?_⟩
    · rw [h.requests x]
      exact fun p hp => (by cases hp)
    · rw [h.queue x]
      exact fun p hp => (by cases hp)
    · exact fun p hp => (by cases hp)
    · rw [h.pushes x]
      rfl
  registered x := by rw [h.registered x, h.handled x]
  subscribed := h.subscribed
  pushed x := by
    rw [h.pushes x, h.handled x.other]
    rfl

/-- A step of one device that handles no registration and pushes nothing. -/
theorem Inv.set (hi : Inv c b s) (hhost : HostInv c b x h)
    (hhandled : h.handled = (s.host x).handled)
    (hsent : h.pushes.sent = (s.host x).pushes.sent) : Inv c b (s.set x h) := by
  have hhandled' : ∀ y, ((s.set x h).host y).handled = (s.host y).handled := by
    intro y
    by_cases hy : y = x
    · rw [hy, State.host_set_self, hhandled]
    · rw [State.host_set_ne hy]
  refine ⟨fun y => ?_, fun y => ?_, hi.subscribed, fun y => ?_⟩
  · by_cases hy : y = x
    · subst hy
      rw [State.host_set_self]
      exact hhost
    · rw [State.host_set_ne hy]
      exact hi.host y
  · rw [hhandled']
    exact hi.registered y
  · rw [hhandled', ← hi.pushed y]
    by_cases hy : y = x
    · subst hy
      rw [State.host_set_self, Channel.lastSent, hsent, Channel.lastSent]
    · rw [State.host_set_ne hy]

theorem Config.name_other_ne (c : Config) (x : Side) : c.name x ≠ c.name x.other := by
  cases x with
  | a => exact c.name_ne
  | b => exact c.name_ne.symm

/-- `UpdateAddress` sends one datagram: the address the registration came from,
to where the server has the other node. -/
theorem Inv.pushes_eq (hi : Inv c b s) {p : Packet} {sock : Int}
    (hreg : (Event.registration p sock).registers? =
      some (c.name x, p.src.sinAddr)) (hsock : 0 ≤ sock) :
    s.server.pushes (.registration p sock) =
      [⟨sock, ⟨netV4, c.port x.other, (s.host x.other).handled⟩,
        intToIPString p.src.sinAddr.toInt32 ++ [0]⟩] := by
  have hdst : UnorderedMap.get
      (s.server.next (.registration p sock)).registeredNames (c.name x.other) =
        intToIPString (s.host x.other).handled.toInt32 := by
    rw [get_next, hreg]
    simp only [if_neg (c.name_other_ne x)]
    exact hi.registered x.other
  rw [pushes_of_registers hreg hsock, hi.subscribed x, List.map_singleton, pushAddr,
    hdst, ipStringToInt_intToIPString]
  rfl

theorem serve_cases {sock : Int} (hs : step c s (.serve x sock) = some u) :
    ∃ p requests, (s.host x).requests = p :: requests ∧ 0 ≤ sock ∧
      u.server = s.server.next (.registration p sock) ∧
      (u.host x).device = (s.host x).device ∧
      (u.host x).requests = requests ∧
      (u.host x).pushes = (s.host x).pushes ∧
      (u.host x).handled = p.src.sinAddr ∧
      u.host x.other = { s.host x.other with
        pushes := (s.host x.other).pushes.send
          (s.server.pushes (.registration p sock)) } := by
  rw [step] at hs
  simp only [] at hs
  split at hs
  · cases hs
  · next p requests hreq =>
      split at hs
      · next hsock =>
          injection hs with hs
          subst hs
          refine ⟨p, requests, hreq, hsock, rfl, ?_⟩
          rw [State.host_set_ne x.other_ne.symm, State.host_set_self,
            State.host_set_ne x.other_ne]
          simp only [State.set, Function.update_self, and_self]
      · cases hs

theorem Inv.serve (hi : Inv c b s) {sock : Int}
    (hs : step c s (.serve x sock) = some u) : Inv c b u := by
  obtain ⟨p, requests, hreq, hsock, hserver, hdevice, hrequests, hpushes, hhandled,
    hother⟩ := serve_cases hs
  have hreg := (hi.host x).requests p (by rw [hreq]; exact List.mem_cons_self) sock
  have hpush := hi.pushes_eq hreg hsock
  refine ⟨fun y => ?_, fun y => ?_, fun y => ?_, fun y => ?_⟩
  · rcases x.eq_or_eq_other y with rfl | rfl
    · refine (hi.host y).congr hdevice (fun q hq => ?_) (by rw [hpushes])
      rw [hrequests] at hq
      rw [hreq]
      exact List.mem_cons_of_mem _ hq
    · rw [hother]
      exact (hi.host x.other).congr rfl (fun _ hq => hq) rfl
  · rw [hserver, get_next, hreg]
    rcases x.eq_or_eq_other y with rfl | rfl
    · simp only [if_true, hhandled]
    · simp only [if_neg (c.name_other_ne x), hother]
      exact hi.registered x.other
  · rw [hserver, subscribers_next_of_lookup_none rfl]
    exact hi.subscribed y
  · rcases x.eq_or_eq_other y with rfl | rfl
    · rw [hpushes, hother]
      exact hi.pushed y
    · rw [hother, Side.other_other, hhandled, hpush, Channel.lastSent_send_singleton]
      exact location_of_payload rfl

theorem arrive_cases {port : UInt16} (hs : step c s (.arrive x port) = some u) :
    ∃ d rest, (s.host x).pushes.flight = d :: rest ∧
      ((d.dst.sinAddr = (s.host x).ip.toUInt32 ∧
          ∃ h, u = s.set x h ∧ h.pushes = (s.host x).pushes.deliver ∧
            h.handled = (s.host x).handled ∧
            (HostInv c b x (s.host x) → HostInv c b x h)) ∨
        (d.dst.sinAddr ≠ (s.host x).ip.toUInt32 ∧
          u = s.set x { s.host x with pushes := (s.host x).pushes.lose })) := by
  rw [step] at hs
  simp only [] at hs
  split at hs
  · cases hs
  · next d rest hflight =>
      refine ⟨d, rest, hflight, ?_⟩
      split at hs
      · next hdst =>
          injection hs with hs
          exact Or.inl ⟨hdst, _, hs.symm, rfl, rfl, fun hi => hi.deliver hflight port⟩
      · next hdst =>
          injection hs with hs
          exact Or.inr ⟨hdst, hs.symm⟩

/-- Every other step is one device's, which leaves its pushes where they are. -/
theorem step_cases (b : Side → UInt32) (hs : step c s a = some u) :
    (∃ x sock, a = .serve x sock) ∨ (∃ x port, a = .arrive x port) ∨
      ∃ x h, u = s.set x h ∧ h.pushes = (s.host x).pushes ∧
        h.handled = (s.host x).handled ∧
        (HostInv c b x (s.host x) → HostInv c b x h) := by
  cases a with
  | move x ip =>
      injection hs with hs
      exact Or.inr (Or.inr ⟨x, _, hs.symm, rfl, rfl,
        fun hi => hi.congr rfl (fun _ hp => hp) rfl⟩)
  | compare x =>
      rw [step] at hs
      split at hs
      · injection hs with hs
        exact Or.inr (Or.inr ⟨x, _, hs.symm, rfl, rfl,
          fun hi => hi.congr rfl (fun _ hp => hp) rfl⟩)
      · cases hs
  | register x port =>
      rw [step] at hs
      split at hs
      · injection hs with hs
        exact Or.inr (Or.inr ⟨x, _, hs.symm, rfl, rfl, fun hi => hi.register port⟩)
      · cases hs
  | serve x sock => exact Or.inl ⟨x, sock, rfl⟩
  | arrive x port => exact Or.inr (Or.inl ⟨x, port, rfl⟩)
  | answer x =>
      rw [step] at hs
      simp only [] at hs
      split at hs
      · cases hs
      · injection hs with hs
        exact Or.inr (Or.inr ⟨x, _, hs.symm, rfl, rfl,
          fun hi => hi.congr rfl (fun _ hp => hp) rfl⟩)
  | poll x serverSize server =>
      rw [step] at hs
      split at hs
      · injection hs with hs
        exact Or.inr (Or.inr ⟨x, _, hs.symm, rfl, rfl,
          fun hi => hi.poll serverSize server⟩)
      · cases hs
  | store x =>
      rw [step] at hs
      split at hs
      · injection hs with hs
        exact Or.inr (Or.inr ⟨x, _, hs.symm, rfl, rfl, fun hi => hi.store _⟩)
      · cases hs
  | loop x =>
      rw [step] at hs
      split at hs
      · injection hs with hs
        exact Or.inr (Or.inr ⟨x, _, hs.symm, rfl, rfl,
          fun hi => hi.congr rfl (fun _ hp => hp) rfl⟩)
      · cases hs

theorem Inv.step (hi : Inv c b s) (hs : step c s a = some u) : Inv c b u := by
  rcases step_cases b hs with
    ⟨x, sock, rfl⟩ | ⟨x, port, rfl⟩ | ⟨x, h, rfl, hpushes, hhandled, hhost⟩
  · exact hi.serve hs
  · obtain ⟨d, rest, _, ⟨_, h, rfl, hpushes, hhandled, hhost⟩ | ⟨_, rfl⟩⟩ :=
      arrive_cases (b := b) hs
    · exact hi.set (hhost (hi.host x)) hhandled (by rw [hpushes]; rfl)
    · exact hi.set ((hi.host x).congr rfl (fun _ hp => hp) rfl) rfl rfl
  · exact hi.set (hhost (hi.host x)) hhandled (by rw [hpushes])

theorem Introduced.inv_run {s₀ : State} (h₀ : Introduced c b s₀)
    {guard : State → Action → Prop} (h : Run (TwoNodes.step c) guard s₀ acts s) :
    Inv c b s :=
  h.invariant h₀.inv fun _ _ _ hi _ hs => hi.step hs

/-! ## Which losses matter -/

def UpToDate (b : Side → UInt32) (s : State) : Prop :=
  ∀ x, (s.host x).pushes.UpToDate address (b x.other)

theorem Introduced.upToDate (h : Introduced c b s) : UpToDate b s := by
  intro x
  rw [h.pushes x]
  exact Channel.upToDate_empty

theorem UpToDate.set (hup : UpToDate b s)
    (h' : h.pushes.UpToDate address (b x.other)) : UpToDate b (s.set x h) := by
  intro y
  by_cases hy : y = x
  · subst hy
    rw [State.host_set_self]
    exact h'
  · rw [State.host_set_ne hy]
    exact hup y

theorem UpToDate.step (hup : UpToDate b s) (hi : Inv c b s)
    (hg : KeepsLastPush c s a) (hs : TwoNodes.step c s a = some u) :
    UpToDate b u := by
  rcases step_cases b hs with
    ⟨x, sock, rfl⟩ | ⟨x, port, rfl⟩ | ⟨x, h, rfl, hpushes, _, _⟩
  · obtain ⟨p, _, hreq, hsock, _, _, _, hpushes, _, hother⟩ := serve_cases hs
    have hreg := (hi.host x).requests p (by rw [hreq]; exact List.mem_cons_self) sock
    intro y
    rcases x.eq_or_eq_other y with rfl | rfl
    · rw [hpushes]
      exact hup y
    · rw [hother, hi.pushes_eq hreg hsock]
      exact Channel.upToDate_send_singleton
  · obtain ⟨d, rest, hflight, ⟨_, h, rfl, hpushes, _, _⟩ | ⟨hdst, rfl⟩⟩ :=
      arrive_cases (b := b) hs
    · refine hup.set ?_
      rw [hpushes]
      exact (hup x).deliver
    · refine hup.set ?_
      cases rest with
      | cons d' rest => exact (hup x).lose_of_ne_nil hflight (by simp)
      | nil =>
          refine (Channel.upToDate_lose_iff (hup x) hflight).mpr ?_
          rw [KeepsLastPush, hflight] at hg
          rw [← (hi.host x).holds_eq]
          exact (hg rfl d rfl).resolve_left hdst
  · exact hup.set (hpushes ▸ hup x)

theorem Introduced.upToDate_run {s₀ : State} (h₀ : Introduced c b s₀)
    (h : Run (TwoNodes.step c) (KeepsLastPush c) s₀ acts s) : UpToDate b s :=
  (h.invariant (I := fun s => Inv c b s ∧ UpToDate b s) ⟨h₀.inv, h₀.upToDate⟩
    fun _ _ _ ht hg hs => ⟨ht.1.step hs, ht.2.step ht.1 hg hs⟩).2

theorem Inv.inTouch_iff (hi : Inv c b s) (hrest : AtRest s) (hcurrent : Current s) :
    InTouch c s ↔ UpToDate b s := by
  refine forall_congr' fun x => ?_
  obtain ⟨_, hflight, _, hqueue⟩ := hrest x
  have hpeer : ((s.host x).peer (c.ptr x)).sinAddr =
      (s.host x).pushes.lastReceived address (b x.other) := by
    rw [← (hi.host x).holds_eq, Host.holds, hqueue]
    rfl
  rw [hpeer, Channel.upToDate_iff_of_flight_nil hflight, hi.pushed x,
    hcurrent x.other]

/-- With nothing in flight or queued and each node's last registration from
where it is, the nodes have each other's addresses if and only if for each of
them the last push that got through carried the address that the last push
carried; and so they have in every run that loses no push but one with another
behind it, or one that repeats what the node has. -/
theorem in_touch_iff {s₀ : State} (h₀ : Introduced c b s₀)
    (h : Run (step c) Always s₀ acts s) (hrest : AtRest s) (hcurrent : Current s) :
    (InTouch c s ↔ ∀ x, (s.host x).pushes.lastReceived address (b x.other) =
      (s.host x).pushes.lastSent address (b x.other)) ∧
    (Run (step c) (KeepsLastPush c) s₀ acts s → InTouch c s) := by
  have hiff := (h₀.inv_run h).inTouch_iff hrest hcurrent
  refine ⟨hiff.trans (forall_congr' fun x => ?_), fun hkeeps => ?_⟩
  · exact Channel.upToDate_iff_of_flight_nil (hrest x).2.1
  · exact hiff.mpr (h₀.upToDate_run hkeeps)

instance {P : Side → Prop} [DecidablePred P] : Decidable (∀ x, P x) :=
  decidable_of_iff (P .a ∧ P .b)
    ⟨fun h x => match x with | .a => h.1 | .b => h.2, fun h => ⟨h .a, h .b⟩⟩

instance (s : State) : Decidable (AtRest s) :=
  inferInstanceAs (Decidable (∀ _, _ ∧ _))

instance (s : State) : Decidable (Current s) :=
  inferInstanceAs (Decidable (∀ _, _ = _))

instance (c : Config) (s : State) : Decidable (InTouch c s) :=
  inferInstanceAs (Decidable (∀ _, _ = _))

/-- "A" and "B", and the server at 1.2.3.4. -/
def Config.sample : Config where
  name
    | .a => ascii "A"
    | .b => ascii "B"
  port
    | .a => 7
    | .b => 8
  ptr _ := 0
  rendezvousServer := ascii "1.2.3.4"
  sendable x := by cases x <;> exact ⟨by decide, by decide, by decide⟩
  name_ne := by decide

/-- "A" is registered at 192.168.1.1 and "B" at 192.168.1.2. -/
def sampleAddress : Side → UInt32
  | .a => (StartLoop.lan 1).toUInt32
  | .b => (StartLoop.lan 2).toUInt32

def sampleApp (x : Side) : EchoApp :=
  { EchoApp.sample with
    logicalAddress := Config.sample.name x
    peerAddr := Config.sample.name x.other
    mobileNode := .new (Config.sample.name x) (ascii "1.2.3.9") (ascii "1.2.3.4")
      (sampleAddress x).toInt32 }

def Host.sample (x : Side) : Host where
  device := ⟨((sampleApp x).registerPeer (ascii "1.2.3.4")
    (intToIPString (sampleAddress x.other).toInt32)).fillPeerContainer, ⟨[], none⟩⟩
  ip := (sampleAddress x).toInt32
  pc := .compare
  requests := []
  pushes := .empty
  replies := []
  handled := sampleAddress x

/-- Both have registered and looked each other up. -/
def State.sample : State where
  server := (new 3 4).run
    [.registration ⟨⟨netV4, 5, sampleAddress .a⟩, ascii "A"⟩ 5,
      .registration ⟨⟨netV4, 5, sampleAddress .b⟩, ascii "B"⟩ 5,
      .lookup ⟨⟨netV4, 7, sampleAddress .a⟩, lookupRequest (ascii "A") (ascii "B")⟩,
      .lookup ⟨⟨netV4, 8, sampleAddress .b⟩, lookupRequest (ascii "B") (ascii "A")⟩]
  host := Host.sample

theorem sample_introduced : Introduced .sample sampleAddress .sample where
  name x := by cases x <;> rfl
  peer x := by
    have hsame : (sampleApp x).mobileNode.rendezvousServer =
        (sampleApp x).rendezvousServer := rfl
    have hrs : ascii "1.2.3.4" ≠ [] := by decide
    exact Device.atLastUpdate_connected hsame hrs _ rfl
  queue _ := rfl
  requests _ := rfl
  pushes _ := rfl
  handled _ := rfl
  registered := by decide +kernel
  subscribed := by decide +kernel

/-- One round of a node's loop that finds it has moved, up to its poll. -/
def registers (x : Side) : List Action :=
  [.compare x, .register x 5, .serve x 6, .arrive x.other 6, .answer x]

def polls (x : Side) : List Action :=
  [.poll x (fun _ => 16) .zero, .store x, .loop x]

def oneMoves : List Action :=
  .move .a (StartLoop.lan 11) :: registers .a ++ polls .a ++ .compare .b :: polls .b

theorem in_touch_iff_example : ∃ s,
    exec (step .sample) (KeepsLastPush .sample) .sample oneMoves = some s ∧
      InTouch .sample s := by
  have hend : ∀ s ∈ exec (step .sample) (KeepsLastPush .sample) .sample oneMoves,
      AtRest s ∧ Current s := by
    decide +kernel
  obtain ⟨s, hs, hrun, hrest, hcurrent⟩ :=
    Run.exists_of_exec hend (by decide +kernel)
  exact ⟨s, hs, (in_touch_iff sample_introduced (hrun.mono fun _ _ _ => trivial)
    hrest hcurrent).2 hrun⟩

/-- Both move before either has registered. "A" is first, and what is pushed to
"B" goes to where "B" was. -/
def bothMove : List Action :=
  .move .a (StartLoop.lan 11) :: .move .b (StartLoop.lan 12) :: registers .a ++
    polls .a ++ registers .b ++ polls .b ++ .compare .a :: polls .a

theorem lost_each_other : ¬ ∀ acts s, Run (step .sample) Always .sample acts s →
    AtRest s → Current s → InTouch .sample s := by
  intro h
  have hend : ∀ s ∈ exec (step .sample) Always .sample bothMove,
      AtRest s ∧ Current s ∧ ¬ InTouch .sample s := by
    decide +kernel
  obtain ⟨s, _, hrun, hrest, hcurrent, hlost⟩ :=
    Run.exists_of_exec hend (by decide +kernel)
  exact hlost (h _ s hrun hrest hcurrent)

end TwoNodes

end PermanentIP

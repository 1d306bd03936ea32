import PermanentIP.System.ResolvesInCall
import PermanentIP.System.TwoNodes

/-!
# Any number of followers

One rendezvous server that handles whatever comes in, from anybody, and any
number of applications that are subscribed to their peers there. Their devices
move and register as they like. The network keeps the order of what it carries
to one device and loses what it likes; what is addressed to an address that the
device no longer has is lost. The applications' own traffic comes and goes on
the same sockets.

A push says where a registration came from and not whose it was, and it goes to
an address and not to a name. So an address that passes from one device to
another takes the pushes with it, and `owner` is the assumption that none does.
Then each follower hears of its own peer only, and of its moves in their order,
some of them not at all: where it thinks its peer is never goes back to a place
the peer had left before (`locations_advance`). And with nothing more under way
it has the address the server has, if and only if the last push that got through
says the same as the last one sent (`at_rest_in_touch`).

The server and the processes log what they handle; the runs are those in which every
line can be written.
-/

namespace PermanentIP

open Lib SimpleMobileNode SimpleRendezvousServer

namespace Followers

open TwoNodes (address)

/-- The followers' names, their app ports, whom each follows and where it keeps
its peer's `sockaddr`; which of them, if any, may have an address; and the
rendezvous server's address as they have it. -/
structure Config (ι : Type*) where
  name : ι → LogicalAddress
  port : ι → UInt16
  peer : ι → LogicalAddress
  ptr : ι → Ptr
  owner : UInt32 → Option ι
  rendezvousServer : PhysicalAddress
  owner_zero : owner 0 = none

/-- One device, where it is, and what the server sends to its app socket. -/
structure Follower where
  device : Device
  ip : UInt32
  pushes : Channel Sent

/-- The server with all it has handled, and the followers. -/
structure State (ι : Type*) where
  server : SimpleRendezvousServer
  log : List Event
  follower : ι → Follower

inductive Action (ι : Type*) where
  | handle (e : Event)
  | move (c : ι) (ip : UInt32)
  | arrive (c : ι) (port : UInt16)
  | lose (c : ι)
  | message (c : ι) (p : Packet)
  | poll (c : ι) (serverSize : Int → Int32) (server : SockAddr)
  | print (c : ι)
  | send (c : ι) (message : NetworkMsg)

variable {ι : Type*}

def Config.subscriber (cfg : Config ι) (c : ι) : Subscriber :=
  ⟨cfg.name c, cfg.port c⟩

/-- A datagram from the server as the app socket gets it. -/
def Config.update (cfg : Config ι) (port : UInt16) (d : Sent) : Packet :=
  ⟨⟨netV4, port, (ipStringToInt cfg.rendezvousServer).toUInt32⟩, d.payload⟩

def Follower.receive (f : Follower) (p : Packet) : Follower :=
  { f with device := { f.device with
      socket := { f.device.socket with queue := f.device.socket.queue ++ [p] } } }

section Step

variable [DecidableEq ι]

/-- A datagram of the server's that is for the follower's app socket. -/
def Config.bound (cfg : Config ι) (c : ι) (addr : SockAddr) : Bool :=
  cfg.owner addr.sinAddr = some c && addr.sinPort == cfg.port c

def State.set (s : State ι) (c : ι) (f : Follower) : State ι :=
  { s with follower := Function.update s.follower c f }

def step (cfg : Config ι) (s : State ι) : Action ι → Option (State ι)
  | .handle e =>
      some
        { server := s.server.next e
          log := s.log ++ [e]
          follower := fun c =>
            let f := s.follower c
            let sent := (s.server.receive e).sent.filter (cfg.bound c ·.dst)
            { f with pushes := f.pushes.send sent } }
  | .move c ip =>
      if cfg.owner ip = some c then some (s.set c { s.follower c with ip := ip })
      else none
  | .arrive c port =>
      let f := s.follower c
      match f.pushes.flight with
      | [] => none
      | d :: _ =>
          if d.dst.sinAddr = f.ip then
            some (s.set c { f.receive (cfg.update port d) with
              pushes := f.pushes.deliver })
          else some (s.set c { f with pushes := f.pushes.lose })
  | .lose c =>
      let f := s.follower c
      match f.pushes.flight with
      | [] => none
      | _ :: _ => some (s.set c { f with pushes := f.pushes.lose })
  | .message c p =>
      if Device.fromServer cfg.rendezvousServer p then none
      else some (s.set c ((s.follower c).receive p))
  | .poll c serverSize server =>
      let f := s.follower c
      let st := f.device.poll (cfg.ptr c) serverSize server
      some (s.set c { f with device :=
        { app := { f.device.app with mobileNode := st.node }
          socket := st.sockets f.device.app.appSocket } })
  | .print c =>
      let f := s.follower c
      let r := f.device.app.printReceivedData f.device.socket
      some (s.set c { f with device := ⟨r.app, r.socket⟩ })
  | .send c message =>
      let f := s.follower c
      some (s.set c { f with device := { f.device with
        app := (f.device.app.sendMessage message none).2.2 } })

/-- What the others keep to. The server gets a socket for its pushes; nobody
sends it anything from a follower's app socket or looks anything up in a
follower's name and from its port; a follower registers from addresses it owns,
and nobody else does from those. A poll has room for the address of a datagram
that is not the server's. -/
def Assumed (cfg : Config ι) (s : State ι) : Action ι → Prop
  | .handle e =>
      (∀ r ∈ e.registers?, 0 ≤ e.updateSocket ∧
        ∀ c, cfg.owner r.2 = some c ↔ r.1 = cfg.name c) ∧
      ∀ c, cfg.bound c e.packet.src = false ∧
        ∀ r ∈ e.lookup?, r.1 ≠ cfg.subscriber c
  | .poll c serverSize server =>
      Device.FillsAddress (s.follower c).device (.poll serverSize server)
  | .move .. | .arrive .. | .lose _ | .message .. | .print _ | .send .. => True

/-- The server and the followers' processes can write the lines they have to. -/
def Logs (cfg : Config ι) (s : State ι) : Action ι → Prop
  | .handle e => s.server.LogsEvent e
  | .poll c serverSize server =>
      (s.follower c).device.Logs (cfg.ptr c) (.poll serverSize server)
  | .print c => (s.follower c).device.Logs (cfg.ptr c) .printReceivedData
  | .send c message => (s.follower c).device.Logs (cfg.ptr c) (.sendMessage message)
  | .move .. | .arrive .. | .lose _ | .message .. => True

/-- The others keep to it, and the server and the followers live. -/
def Expected (cfg : Config ι) (s : State ι) (a : Action ι) : Prop :=
  Assumed cfg s a ∧ Logs cfg s a

end Step

/-- Where a registration of the follower's peer came from. -/
def Config.moved (cfg : Config ι) (c : ι) (e : Event) : Option UInt32 :=
  (e.registers?.filter (·.1 = cfg.peer c)).map Prod.snd

/-- The moves of the follower's peer that the server has handled. -/
def Config.moves (cfg : Config ι) (c : ι) (acts : List (Action ι)) : List UInt32 :=
  acts.filterMap fun a =>
    match a with
    | .handle e => cfg.moved c e
    | .move .. | .arrive .. | .lose _ | .message .. | .poll .. | .print _
    | .send .. => none

/-- The address that the follower's messages go to. -/
def State.location (s : State ι) (c : ι) : Option UInt32 :=
  ((s.follower c).device.app.destination none).map SockAddr.sinAddr

/-- The address under which the server knows a name. -/
def State.registered (s : State ι) (n : LogicalAddress) : UInt32 :=
  (ipStringToInt (UnorderedMap.get s.server.registeredNames n)).toUInt32

/-- Each follower is registered, subscribed to its peer and nothing else, and
has the peer's address, `b`; nothing is under way to it. -/
structure Initial (cfg : Config ι) (b : ι → UInt32) (rl ll : Int) (s : State ι) :
    Prop where
  server : s.server = (new rl ll).run s.log
  subscribed : ∀ c n, cfg.subscriber c ∈ s.server.subscribers n ↔ n = cfg.peer c
  owned : ∀ n a, lastRegistration n s.log = some a →
    ∀ c, cfg.owner a = some c ↔ n = cfg.name c
  registered : ∀ c, (lastRegistration (cfg.name c) s.log).isSome
  located : ∀ c, lastRegistration (cfg.peer c) s.log = some (b c)
  peer : ∀ c, Device.AtLastUpdate cfg.rendezvousServer (cfg.ptr c) (b c) []
    (s.follower c).device
  pushes : ∀ c, (s.follower c).pushes = .empty

variable {cfg : Config ι} {b : ι → UInt32} {rl ll : Int} {s t u : State ι}
  {a : Action ι} {acts : List (Action ι)} {c d : ι} {f g : Follower} {e : Event}
  {log : List Event} {srv : SimpleRendezvousServer}

/-! ## One follower -/

/-- The datagrams from the server that wait for the daemon. -/
def Follower.waiting (cfg : Config ι) (f : Follower) : Nat :=
  (f.device.socket.queue.filter (Device.fromServer cfg.rendezvousServer)).length

/-- The addresses the daemon has stored. -/
def Follower.applied (cfg : Config ι) (f : Follower) : List UInt32 :=
  (f.pushes.received.map address).take (f.pushes.received.length - f.waiting cfg)

/-- The device has got what got through to it, in the order it was sent. -/
structure FollowerInv (cfg : Config ι) (b : ι → UInt32) (c : ι) (f : Follower) :
    Prop where
  device : ∃ arrived, Device.AtLastUpdate cfg.rendezvousServer (cfg.ptr c) (b c)
      arrived f.device ∧
    (arrived.filter (Device.fromServer cfg.rendezvousServer)).map Device.location =
      f.pushes.received.map address
  ordered : f.pushes.Ordered

theorem FollowerInv.waiting_le (h : FollowerInv cfg b c f) :
    f.waiting cfg ≤ f.pushes.received.length := by
  obtain ⟨arrived, hlaw, hmap⟩ := h.device
  obtain ⟨taken, harr, _⟩ := hlaw.taken
  have hlength := congrArg List.length hmap
  rw [List.length_map, List.length_map, harr, List.length_append] at hlength
  rw [Follower.waiting]
  omega

theorem FollowerInv.destination (h : FollowerInv cfg b c f) :
    (f.device.app.destination none).map SockAddr.sinAddr =
      some ((f.applied cfg).getLastD (b c)) := by
  obtain ⟨arrived, hlaw, hmap⟩ := h.device
  obtain ⟨taken, harr, hpeer⟩ := hlaw.taken
  have hlength := congrArg List.length hmap
  rw [List.length_map, List.length_map, harr, List.length_append] at hlength
  have hleft : f.pushes.received.length - f.waiting cfg =
      (taken.map Device.location).length := by
    rw [Follower.waiting, List.length_map]
    omega
  rw [Follower.applied, hleft, ← hmap, harr, List.map_append, List.take_left, ← hpeer,
    EchoApp.destination, hlaw.peerInfo]
  rfl

theorem FollowerInv.applied_sublist (h : FollowerInv cfg b c f) :
    (f.applied cfg).Sublist (f.pushes.sent.map address) :=
  (List.take_sublist _ _).trans (h.ordered.received.map address)

/-- What was stored stays stored first, as long as the daemon takes the server's
datagrams and puts none back. -/
theorem FollowerInv.applied_prefix (h : FollowerInv cfg b c f)
    (hreceived : f.pushes.received <+: g.pushes.received)
    (hwaiting : g.waiting cfg + f.pushes.received.length ≤
      f.waiting cfg + g.pushes.received.length) :
    f.applied cfg <+: g.applied cfg := by
  have hle := h.waiting_le
  rw [Follower.applied, Follower.applied]
  refine List.prefix_take_iff.mpr ⟨?_, ?_⟩
  · exact (List.take_prefix _ _).trans (hreceived.map address)
  · rw [List.length_take, List.length_map]
    omega

/-- The follower after a step: as the invariant has it, with nothing more sent to
it and what was stored still stored. -/
structure Advances (cfg : Config ι) (b : ι → UInt32) (c : ι) (f g : Follower) :
    Prop where
  inv : FollowerInv cfg b c g
  sent : g.pushes.sent = f.pushes.sent
  applied : f.applied cfg <+: g.applied cfg

theorem FollowerInv.move (h : FollowerInv cfg b c f) (ip : UInt32) :
    Advances cfg b c f { f with ip := ip } :=
  ⟨⟨h.device, h.ordered⟩, rfl, List.prefix_refl _⟩

theorem FollowerInv.lose (h : FollowerInv cfg b c f) :
    Advances cfg b c f { f with pushes := f.pushes.lose } :=
  ⟨⟨h.device, h.ordered.lose⟩, rfl, List.prefix_refl _⟩

theorem fromServer_update (cfg : Config ι) (port : UInt16) (x : Sent) :
    Device.fromServer cfg.rendezvousServer (cfg.update port x) = true :=
  decide_eq_true rfl

theorem FollowerInv.deliver (h : FollowerInv cfg b c f) {x : Sent} {rest : List Sent}
    (hflight : f.pushes.flight = x :: rest) (port : UInt16) :
    Advances cfg b c f { f.receive (cfg.update port x) with
      pushes := f.pushes.deliver } := by
  have hmore : f.pushes.deliver.received = f.pushes.received ++ [x] := by
    rw [Channel.deliver, hflight]
    rfl
  obtain ⟨arrived, hlaw, hmap⟩ := h.device
  refine ⟨⟨⟨arrived ++ [cfg.update port x], hlaw.arrive _, ?_⟩, h.ordered.deliver⟩,
    rfl, h.applied_prefix ?_ ?_⟩
  · rw [hmore, List.filter_append, List.map_append, List.map_append, hmap,
      List.filter_cons_of_pos (fromServer_update cfg port x)]
    rfl
  · rw [hmore]
    exact List.prefix_append _ _
  · rw [hmore, Follower.waiting, Follower.waiting, Follower.receive]
    simp only [List.filter_append, List.length_append, List.length_singleton,
      List.filter_cons_of_pos (fromServer_update cfg port x), List.filter_nil]
    omega

theorem FollowerInv.message (h : FollowerInv cfg b c f) {p : Packet}
    (hp : ¬ Device.fromServer cfg.rendezvousServer p = true) :
    Advances cfg b c f (f.receive p) := by
  obtain ⟨arrived, hlaw, hmap⟩ := h.device
  refine ⟨⟨⟨arrived ++ [p], hlaw.arrive p, ?_⟩, h.ordered⟩, rfl,
    h.applied_prefix (List.prefix_refl _) ?_⟩
  · rw [List.filter_append, List.filter_cons_of_neg hp, List.filter_nil,
      List.append_nil, hmap]
    rfl
  · rw [Follower.waiting, Follower.receive]
    simp only [List.filter_append, List.filter_cons_of_neg hp, List.filter_nil,
      List.append_nil]
    exact Nat.le_refl _

/-- A step of the device itself. -/
theorem FollowerInv.device_step (h : FollowerInv cfg b c f) {dev : Device}
    (hlaw : ∀ arrived, Device.AtLastUpdate cfg.rendezvousServer (cfg.ptr c) (b c)
        arrived f.device →
      Device.AtLastUpdate cfg.rendezvousServer (cfg.ptr c) (b c) arrived dev)
    (hqueue : dev.socket.queue <:+ f.device.socket.queue) :
    Advances cfg b c f { f with device := dev } := by
  obtain ⟨arrived, hold, hmap⟩ := h.device
  refine ⟨⟨⟨arrived, hlaw arrived hold, hmap⟩, h.ordered⟩, rfl,
    h.applied_prefix (List.prefix_refl _) ?_⟩
  exact Nat.add_le_add_right (hqueue.sublist.filter _).length_le _

theorem FollowerInv.poll (h : FollowerInv cfg b c f) {serverSize : Int → Int32}
    {server : SockAddr} (hfill : Device.FillsAddress f.device (.poll serverSize server)) :
    Advances cfg b c f { f with device :=
      { app := { f.device.app with
          mobileNode := (f.device.poll (cfg.ptr c) serverSize server).node }
        socket := (f.device.poll (cfg.ptr c) serverSize server).sockets
          f.device.app.appSocket } } := by
  refine h.device_step (fun arrived hlaw => hlaw.poll hfill) ?_
  rw [Device.poll]
  by_cases hup : f.device.app.mobileNode.isUpdate
      (recvfrom f.device.socket true bufferSize server
        (serverSize f.device.app.appSocket))
  · obtain ⟨p, rest, hsock, _, heq⟩ := pollSocket_of_isUpdate
      ⟨f.device.app.mobileNode, fun _ => f.device.socket, server, [], false⟩
      (cfg.ptr c) hup
    change f.device.socket = ⟨p :: rest, none⟩ at hsock
    rw [heq, hsock]
    simp only [Function.update_self]
    exact List.suffix_cons p rest
  · rw [pollSocket_of_not_isUpdate
      ⟨f.device.app.mobileNode, fun _ => f.device.socket, server, [], false⟩
      (cfg.ptr c) hup]
    simp only [Function.update_self, PollState.peek, queue_recvfrom_peek]
    exact List.suffix_refl _

theorem FollowerInv.print (h : FollowerInv cfg b c f) :
    Advances cfg b c f { f with device :=
      ⟨(f.device.app.printReceivedData f.device.socket).app,
        (f.device.app.printReceivedData f.device.socket).socket⟩ } := by
  refine h.device_step (fun arrived hlaw => hlaw.print) ?_
  by_cases hreq : f.device.app.isRequest (EchoApp.peek f.device.socket)
  · obtain ⟨p, rest, hsock, _, heq⟩ := EchoApp.printReceivedData_of_isRequest hreq
    rw [heq, hsock]
    exact List.suffix_cons p rest
  · have hq := (EchoApp.printReceivedData_of_not_isRequest hreq).2.2
    exact hq ▸ List.suffix_refl _

theorem FollowerInv.send (h : FollowerInv cfg b c f) (m : NetworkMsg) :
    Advances cfg b c f { f with device := { f.device with
      app := (f.device.app.sendMessage m none).2.2 } } :=
  h.device_step (fun _ hlaw => hlaw.keep EchoApp.keeps_sendMessage rfl)
    (List.suffix_refl _)

/-! ## The invariant -/

/-- The server knows where the followers are, and nobody else is there. -/
structure Known (cfg : Config ι) (rl ll : Int) (s : State ι) : Prop where
  server : s.server = (new rl ll).run s.log
  owned : ∀ n a, lastRegistration n s.log = some a →
    ∀ c, cfg.owner a = some c ↔ n = cfg.name c
  registered : ∀ c, (lastRegistration (cfg.name c) s.log).isSome

/-- The server keeps each follower's subscription, has sent each its peer's moves,
and each device is as it should be. -/
structure Inv (cfg : Config ι) (b : ι → UInt32) (rl ll : Int)
    (acts : List (Action ι)) (s : State ι) : Prop extends Known cfg rl ll s where
  subscribed : ∀ c n, cfg.subscriber c ∈ s.server.subscribers n ↔ n = cfg.peer c
  located : ∀ c, lastRegistration (cfg.peer c) s.log =
    some ((cfg.moves c acts).getLastD (b c))
  sent : ∀ c, (s.follower c).pushes.sent.map address = cfg.moves c acts
  follower : ∀ c, FollowerInv cfg b c (s.follower c)

theorem Initial.inv (h : Initial cfg b rl ll s) : Inv cfg b rl ll [] s where
  server := h.server
  subscribed := h.subscribed
  owned := h.owned
  registered := h.registered
  located := h.located
  sent c := by
    rw [h.pushes c]
    rfl
  follower c := by
    refine ⟨⟨[], h.peer c, ?_⟩, ?_⟩
    · rw [h.pushes c]
      rfl
    · rw [h.pushes c]
      exact Channel.ordered_empty

theorem moves_append (more : List (Action ι)) :
    cfg.moves c (acts ++ more) = cfg.moves c acts ++ cfg.moves c more :=
  List.filterMap_append

theorem moves_handle (c : ι) (e : Event) :
    cfg.moves c [.handle e] = (cfg.moved c e).toList := by
  rw [Config.moves]
  cases h : cfg.moved c e with
  | none => exact List.filterMap_cons_none h
  | some x => exact List.filterMap_cons_some h

theorem lastRegistration_snoc (n : LogicalAddress) (e : Event) (log : List Event) :
    lastRegistration n (log ++ [e]) =
      ((e.registers?.filter (·.1 = n)).map Prod.snd).or (lastRegistration n log) := by
  rw [lastRegistration, lastRegistration]
  rcases hr : e.registers? with _ | ⟨m, x⟩
  · rw [lastWrite_snoc_none hr]
    rfl
  · rcases eq_or_ne m n with rfl | hne
    · rw [lastWrite_snoc_self hr, Option.filter_some_pos (by simp)]
      rfl
    · rw [lastWrite_snoc_ne hr hne, Option.filter_some_neg (by simpa using hne)]
      rfl

/-! ## What the server sends to a follower -/

variable [DecidableEq ι]

theorem address_push (sock : Int) (dst : SockAddr) (x : UInt32) :
    address ⟨sock, dst, intToIPString x.toInt32 ++ [0]⟩ = x :=
  ipStringToInt_push .zero x

omit [DecidableEq ι] in
theorem sinAddr_pushAddr (rl ll : Int) (log : List Event) (i : Subscriber) :
    (pushAddr ((new rl ll).run log).registeredNames i).sinAddr =
      (lastRegistration i.name log).getD 0 := by
  rw [pushAddr, get_run, ipStringToInt_addressText]

/-- Of the pushes of a registration only the subscriber's own is for its
socket. -/
theorem bound_push_iff (rl ll : Int)
    (hregistered : (lastRegistration (cfg.name c) log).isSome)
    (howned : ∀ n a, lastRegistration n log = some a →
      ∀ c, cfg.owner a = some c ↔ n = cfg.name c) (i : Subscriber) :
    cfg.bound c (pushAddr ((new rl ll).run log).registeredNames i) = true ↔
      i = cfg.subscriber c := by
  rw [Config.bound, sinAddr_pushAddr, Bool.and_eq_true, decide_eq_true_eq, beq_iff_eq]
  constructor
  · rintro ⟨howner, hport⟩
    rcases hl : lastRegistration i.name log with _ | x
    · rw [hl, Option.getD_none, cfg.owner_zero] at howner
      cases howner
    · rw [hl, Option.getD_some] at howner
      have hname := (howned i.name x hl c).mp howner
      rw [Config.subscriber, ← hname, ← hport]
      rfl
  · rintro rfl
    obtain ⟨x, hx⟩ := Option.isSome_iff_exists.mp hregistered
    refine ⟨?_, rfl⟩
    rw [Config.subscriber, hx, Option.getD_some]
    exact (howned (cfg.name c) x hx c).mpr rfl

/-- What comes to the follower's socket of the server's handling a datagram that is
no registration. -/
theorem sent_of_other (hr : e.registers? = none)
    (hsrc : cfg.bound c e.packet.src = false) :
    (srv.receive e).sent.filter (cfg.bound c ·.dst) = [] := by
  obtain ⟨reply, hsent, hreply⟩ := receive_sent srv e
  rw [hsent, pushes_of_registers_none hr, List.nil_append, List.filter_eq_nil_iff]
  intro x hx
  rw [hreply x hx, hsrc]
  exact Bool.false_ne_true

/-- And of a registration: its address, if the follower is subscribed. -/
theorem sent_of_registration (rl ll : Int) {n : LogicalAddress} {x : UInt32}
    (hr : e.registers? = some (n, x))
    (hregistered : (lastRegistration (cfg.name c) (log ++ [e])).isSome)
    (howned : ∀ n a, lastRegistration n (log ++ [e]) = some a →
      ∀ c, cfg.owner a = some c ↔ n = cfg.name c)
    (hsock : 0 ≤ e.updateSocket) (hsrc : cfg.bound c e.packet.src = false) :
    ((((new rl ll).run log).receive e).sent.filter (cfg.bound c ·.dst)).map address =
      if cfg.subscriber c ∈ ((new rl ll).run log).subscribers n then [x] else [] := by
  obtain ⟨reply, hsent, hreply⟩ := receive_sent ((new rl ll).run log) e
  have hback : reply.filter (cfg.bound c ·.dst) = [] := by
    rw [List.filter_eq_nil_iff]
    intro x hx
    rw [hreply x hx, hsrc]
    exact Bool.false_ne_true
  rw [hsent, List.filter_append, hback, List.append_nil,
    pushes_of_registers hr hsock, List.filter_map, List.map_map, ← run_snoc]
  have hmine (i : Subscriber) := bound_push_iff rl ll hregistered howned i
  split
  · next hmem =>
      have hone : (((new rl ll).run log).subscribers n).elems.filter
          ((cfg.bound c ·.dst) ∘ fun i => (⟨e.updateSocket,
            pushAddr ((new rl ll).run (log ++ [e])).registeredNames i,
            intToIPString x.toInt32 ++ [0]⟩ : Sent)) = [cfg.subscriber c] :=
        OrdSet.filter_elems_eq_singleton hmem fun i _ => hmine i
      rw [hone, List.map_singleton, Function.comp_apply, address_push]
  · next hmem =>
      have hnone : (((new rl ll).run log).subscribers n).elems.filter
          ((cfg.bound c ·.dst) ∘ fun i => (⟨e.updateSocket,
            pushAddr ((new rl ll).run (log ++ [e])).registeredNames i,
            intToIPString x.toInt32 ++ [0]⟩ : Sent)) = [] := by
        rw [List.filter_eq_nil_iff]
        intro i hi hbound
        have heq := (hmine i).mp hbound
        subst heq
        exact hmem hi
      rw [hnone]
      rfl

/-- The address its peer has registered from comes to a follower's socket, if that
is what the server handled, and nothing else does. -/
theorem sent_to_follower
    (hsubscribed : ∀ n, cfg.subscriber c ∈ ((new rl ll).run log).subscribers n ↔
      n = cfg.peer c)
    (hregistered : (lastRegistration (cfg.name c) (log ++ [e])).isSome)
    (howned : ∀ n a, lastRegistration n (log ++ [e]) = some a →
      ∀ c, cfg.owner a = some c ↔ n = cfg.name c)
    (hsock : ∀ r ∈ e.registers?, 0 ≤ e.updateSocket)
    (hsrc : cfg.bound c e.packet.src = false) :
    ((((new rl ll).run log).receive e).sent.filter (cfg.bound c ·.dst)).map address =
      (cfg.moved c e).toList := by
  rw [Config.moved]
  rcases hr : e.registers? with _ | ⟨n, x⟩
  · rw [sent_of_other hr hsrc]
    rfl
  · rw [sent_of_registration rl ll hr hregistered howned (hsock _ hr) hsrc]
    by_cases hn : n = cfg.peer c
    · rw [if_pos ((hsubscribed n).mpr hn), Option.filter_some_pos (by simpa using hn)]
      rfl
    · rw [if_neg ((hsubscribed n).not.mpr hn),
        Option.filter_some_neg (by simpa using hn)]
      rfl

/-! ## A step, and a run -/

/-- A step of one device, at which the server handles nothing. -/
theorem Inv.set (hi : Inv cfg b rl ll acts s) (hmoves : ∀ c, cfg.moves c [a] = [])
    (hf : Advances cfg b d (s.follower d) f) :
    Inv cfg b rl ll (acts ++ [a]) (s.set d f) ∧
      ∀ c, (s.follower c).applied cfg <+: ((s.set d f).follower c).applied cfg := by
  have hkept (c : ι) : cfg.moves c (acts ++ [a]) = cfg.moves c acts := by
    rw [moves_append, hmoves, List.append_nil]
  refine ⟨⟨⟨hi.server, hi.owned, hi.registered⟩, hi.subscribed, fun c => ?_,
    fun c => ?_, fun c => ?_⟩, fun c => ?_⟩
  · rw [hkept]
    exact hi.located c
  · rw [hkept, ← hi.sent c, State.set]
    rcases eq_or_ne c d with rfl | hne
    · simp only [Function.update_self, hf.sent]
    · simp only [Function.update_of_ne hne]
  · rw [State.set]
    rcases eq_or_ne c d with rfl | hne
    · simp only [Function.update_self]
      exact hf.inv
    · simp only [Function.update_of_ne hne]
      exact hi.follower c
  · rw [State.set]
    rcases eq_or_ne c d with rfl | hne
    · simp only [Function.update_self]
      exact hf.applied
    · simp only [Function.update_of_ne hne]
      exact List.prefix_refl _

theorem Known.handle (hk : Known cfg rl ll s) (he : Assumed cfg s (.handle e))
    (hs : step cfg s (.handle e) = some u) : Known cfg rl ll u := by
  injection hs with hs
  subst hs
  refine ⟨?_, fun n a hl => ?_, fun c => ?_⟩
  · show s.server.next e = _
    rw [run_snoc, ← hk.server]
  · rw [lastRegistration_snoc] at hl
    rcases hr : e.registers? with _ | ⟨m, x⟩
    · rw [hr] at hl
      exact hk.owned n a hl
    · rw [hr] at hl
      rcases eq_or_ne m n with rfl | hne
      · rw [Option.filter_some_pos (by simp)] at hl
        cases hl
        exact (he.1 _ hr).2
      · rw [Option.filter_some_neg (by simpa using hne)] at hl
        exact hk.owned n a hl
  · rw [lastRegistration_snoc, Option.isSome_or, hk.registered c, Bool.or_true]

theorem Inv.handle (hi : Inv cfg b rl ll acts s)
    (he : Assumed cfg s (.handle e)) (hs : step cfg s (.handle e) = some u) :
    Inv cfg b rl ll (acts ++ [.handle e]) u ∧
      ∀ c, (s.follower c).applied cfg <+: (u.follower c).applied cfg := by
  have hknown := hi.toKnown.handle he hs
  injection hs with hs
  subst hs
  obtain ⟨hregisters, hquiet⟩ := he
  have hsent (c : ι) : (((s.server.receive e).sent.filter
      (cfg.bound c ·.dst)).map address) = (cfg.moved c e).toList := by
    rw [hi.server]
    refine sent_to_follower (fun n => ?_) (hknown.registered c) hknown.owned
      (fun r hr => (hregisters r hr).1) (hquiet c).1
    rw [← hi.server]
    exact hi.subscribed c n
  refine ⟨⟨hknown, fun c n => ?_, fun c => ?_, fun c => ?_, fun c =>
    ⟨(hi.follower c).device, (hi.follower c).ordered.send _⟩⟩,
    fun c => List.prefix_refl _⟩
  · show cfg.subscriber c ∈ (s.server.next e).subscribers n ↔ _
    rw [mem_subscribers_next (s := cfg.subscriber c) fun m hm => (hquiet c).2 _ hm rfl]
    exact hi.subscribed c n
  · rw [moves_append, moves_handle, lastRegistration_snoc, hi.located c,
      Channel.getLastD_append, Config.moved]
    cases (e.registers?.filter (·.1 = cfg.peer c)).map Prod.snd with
    | none => rfl
    | some x => rfl
  · show ((s.follower c).pushes.sent ++ _).map address = _
    rw [List.map_append, hi.sent c, hsent c, moves_append, moves_handle]

/-- Whatever the step, either the server handles a datagram or one device, as it
should be, goes on as it should. -/
theorem step_cases (hf : ∀ c, FollowerInv cfg b c (s.follower c))
    (he : Assumed cfg s a) (hs : step cfg s a = some u) :
    (∃ e, a = .handle e) ∨
      (∀ c, cfg.moves c [a] = []) ∧
        ∃ d f, u = s.set d f ∧ Advances cfg b d (s.follower d) f := by
  cases a with
  | handle e => exact Or.inl ⟨e, rfl⟩
  | move d ip =>
      rw [step] at hs
      split at hs
      · cases hs
        exact Or.inr ⟨fun _ => rfl, d, _, rfl, (hf d).move ip⟩
      · cases hs
  | arrive d port =>
      rw [step] at hs
      simp only [] at hs
      split at hs
      · cases hs
      · next x rest hflight =>
          split at hs
          · cases hs
            exact Or.inr ⟨fun _ => rfl, d, _, rfl, (hf d).deliver hflight port⟩
          · cases hs
            exact Or.inr ⟨fun _ => rfl, d, _, rfl, (hf d).lose⟩
  | lose d =>
      rw [step] at hs
      split at hs
      · cases hs
      · cases hs
        exact Or.inr ⟨fun _ => rfl, d, _, rfl, (hf d).lose⟩
  | message d p =>
      rw [step] at hs
      split at hs
      · cases hs
      · next hp =>
          cases hs
          exact Or.inr ⟨fun _ => rfl, d, _, rfl, (hf d).message hp⟩
  | poll d serverSize server =>
      cases hs
      exact Or.inr ⟨fun _ => rfl, d, _, rfl, (hf d).poll he⟩
  | print d =>
      cases hs
      exact Or.inr ⟨fun _ => rfl, d, _, rfl, (hf d).print⟩
  | send d m =>
      cases hs
      exact Or.inr ⟨fun _ => rfl, d, _, rfl, (hf d).send m⟩

theorem Inv.step (hi : Inv cfg b rl ll acts s) (he : Assumed cfg s a)
    (hs : Followers.step cfg s a = some u) :
    Inv cfg b rl ll (acts ++ [a]) u ∧
      ∀ c, (s.follower c).applied cfg <+: (u.follower c).applied cfg := by
  rcases step_cases hi.follower he hs with ⟨e, rfl⟩ | ⟨hmoves, d, f, rfl, hf⟩
  · exact hi.handle he hs
  · exact hi.set hmoves hf

theorem inv_run (h : Inv cfg b rl ll acts s) {more : List (Action ι)}
    (hrun : Run (step cfg) (Assumed cfg) s more t) :
    Inv cfg b rl ll (acts ++ more) t ∧
      ∀ c, (s.follower c).applied cfg <+: (t.follower c).applied cfg := by
  induction hrun with
  | nil =>
      rw [List.append_nil]
      exact ⟨h, fun c => List.prefix_refl _⟩
  | snoc _ hg hs ih =>
      obtain ⟨hi, happlied⟩ := ih.1.step hg hs
      rw [← List.append_assoc]
      exact ⟨hi, fun c => (ih.2 c).trans (happlied c)⟩

/-- What a follower has heard of so far, and will have. -/
theorem Inv.heard (hi : Inv cfg b rl ll acts s) (c : ι) :
    ∃ heard : List UInt32, heard.Sublist (cfg.moves c acts) ∧
      s.location c = some (heard.getLastD (b c)) ∧
      ∀ more v, Run (Followers.step cfg) (Assumed cfg) s more v →
        ∃ later : List UInt32, (heard ++ later).Sublist (cfg.moves c (acts ++ more)) ∧
          v.location c = some ((heard ++ later).getLastD (b c)) := by
  have hsub := (hi.follower c).applied_sublist
  rw [hi.sent c] at hsub
  refine ⟨_, hsub, (hi.follower c).destination, fun more v hmore => ?_⟩
  obtain ⟨hv, happlied⟩ := inv_run hi hmore
  obtain ⟨later, hlater⟩ := happlied c
  have hsub' := (hv.follower c).applied_sublist
  rw [hv.sent c, ← hlater] at hsub'
  refine ⟨later, hsub', ?_⟩
  rw [hlater]
  exact (hv.follower c).destination

/-- Where a follower thinks its peer is, over any run: at the last of the moves it
has heard of, which are some of the peer's moves in the order the server handled
them; and what it hears of later are moves after those. -/
theorem locations_advance (h : Initial cfg b rl ll s)
    (hrun : Run (step cfg) (Expected cfg) s acts t) (c : ι) :
    ∃ heard : List UInt32, heard.Sublist (cfg.moves c acts) ∧
      t.location c = some (heard.getLastD (b c)) ∧
      ∀ more v, Run (step cfg) (Expected cfg) t more v →
        ∃ later : List UInt32, (heard ++ later).Sublist (cfg.moves c (acts ++ more)) ∧
          v.location c = some ((heard ++ later).getLastD (b c)) := by
  obtain ⟨hi, _⟩ := inv_run h.inv (hrun.mono fun _ _ he => he.1)
  obtain ⟨heard, hsub, hlocation, hlater⟩ := hi.heard c
  exact ⟨heard, hsub, hlocation, fun more v hmore =>
    hlater more v (hmore.mono fun _ _ he => he.1)⟩

instance (cfg : Config Bool) (s : State Bool) (a : Action Bool) :
    Decidable (Assumed cfg s a) := by
  cases a <;> unfold Assumed <;> infer_instance

instance (cfg : Config Bool) (s : State Bool) (a : Action Bool) :
    Decidable (Logs cfg s a) := by
  cases a <;> unfold Logs <;> infer_instance

instance (cfg : Config Bool) (s : State Bool) (a : Action Bool) :
    Decidable (Expected cfg s a) :=
  inferInstanceAs (Decidable (_ ∧ _))

/-- "A" and "B" follow a third name, "N". -/
def Config.sample : Config Bool where
  name c := if c then ascii "B" else ascii "A"
  port c := if c then 8 else 7
  peer _ := ascii "N"
  ptr _ := 0
  owner ip := if ip = 1 then some false else if ip = 2 then some true else none
  rendezvousServer := ascii "1.2.3.4"
  owner_zero := rfl

def sampleApp (c : Bool) : EchoApp :=
  { EchoApp.sample with
    logicalAddress := Config.sample.name c
    peerAddr := ascii "N"
    mobileNode := .new (Config.sample.name c) (ascii "1.2.3.9") (ascii "1.2.3.4") 1 }

/-- "N" is registered at 9, and both have looked it up. -/
def sampleLog : List Event :=
  [.registration ⟨⟨netV4, 5, 9⟩, ascii "N"⟩ 5,
    .registration ⟨⟨netV4, 5, 1⟩, ascii "A"⟩ 5,
    .registration ⟨⟨netV4, 5, 2⟩, ascii "B"⟩ 5,
    .lookup ⟨⟨netV4, 7, 1⟩, lookupRequest (ascii "A") (ascii "N")⟩,
    .lookup ⟨⟨netV4, 8, 2⟩, lookupRequest (ascii "B") (ascii "N")⟩]

def State.sample : State Bool where
  server := (new 3 4).run sampleLog
  log := sampleLog
  follower c :=
    { device := ⟨((sampleApp c).registerPeer (ascii "1.2.3.4")
        (intToIPString (9 : UInt32).toInt32)).fillPeerContainer, ⟨[], none⟩⟩
      ip := if c then 2 else 1
      pushes := .empty }

theorem initial_sample : Initial .sample (fun _ => 9) 3 4 .sample where
  server := rfl
  subscribed c n := by
    by_cases hn : n ∈ State.sample.server.subscriptions
    · have hkeys : ∀ c, ∀ n ∈ State.sample.server.subscriptions.keys,
          (Config.sample.subscriber c ∈ State.sample.server.subscribers n ↔
            n = Config.sample.peer c) := by
        decide +kernel
      exact hkeys c n (AList.mem_keys.mp hn)
    · rw [subscribers, UnorderedMap.get_of_notMem hn]
      constructor
      · intro hmem
        exact absurd hmem (OrdSet.not_mem_empty _)
      · rintro rfl
        have hpeer : ∀ c, Config.sample.peer c ∈ State.sample.server.subscriptions := by
          decide +kernel
        exact absurd (hpeer c) hn
  owned n a h c := by
    obtain ⟨e, he, hr⟩ := exists_write_of_lastWrite h
    have hall : ∀ e ∈ sampleLog, ∀ r ∈ e.registers?, ∀ c,
        (Config.sample.owner r.2 = some c ↔ r.1 = Config.sample.name c) := by
      decide +kernel
    exact hall e he _ hr c
  registered := by decide +kernel
  located := by decide +kernel
  peer c := by
    have hsame : (sampleApp c).mobileNode.rendezvousServer =
        (sampleApp c).rendezvousServer := rfl
    have hrs : ascii "1.2.3.4" ≠ [] := by decide
    exact Device.atLastUpdate_connected hsame hrs _ rfl
  pushes _ := rfl

/-- A registration of "N" from somewhere else. -/
def moved (ip : UInt32) : Action Bool :=
  .handle (.registration ⟨⟨netV4, 5, ip⟩, ascii "N"⟩ 6)

def polls (c : Bool) : Action Bool := .poll c (fun _ => 16) .zero

/-- "B" hears of the first move before the second, and "A" of neither. -/
theorem locations_advance_example : ∃ t,
    exec (step .sample) (Expected .sample) .sample
      [moved 10, .lose false, .arrive true 5, polls true] = some t ∧
    ∃ heard : List UInt32,
      heard.Sublist (Config.sample.moves true
        [moved 10, .lose false, .arrive true 5, polls true]) ∧
      t.location true = some (heard.getLastD 9) ∧
      ∀ more v, Run (step .sample) (Expected .sample) t more v →
        ∃ later : List UInt32, (heard ++ later).Sublist (Config.sample.moves true
            ([moved 10, .lose false, .arrive true 5, polls true] ++ more)) ∧
          v.location true = some ((heard ++ later).getLastD 9) := by
  have hsome : (exec (step .sample) (Expected .sample) .sample
      [moved 10, .lose false, .arrive true 5, polls true]).isSome := by
    decide +kernel
  obtain ⟨t, ht⟩ := Option.isSome_iff_exists.mp hsome
  exact ⟨t, ht, locations_advance initial_sample (.of_exec ht) true⟩

/-! ## At rest -/

/-- A push to the follower that is lost has another behind it, or carries the
address of the last that got through. -/
def KeepsLastPush (b : ι → UInt32) (c : ι) (s : State ι) : Action ι → Prop
  | .arrive d _ => d = c → (s.follower c).pushes.flight.tail = [] →
      ∀ x ∈ (s.follower c).pushes.flight.head?,
        x.dst.sinAddr = (s.follower c).ip ∨
          address x = (s.follower c).pushes.lastReceived address (b c)
  | .lose d => d = c → (s.follower c).pushes.flight.tail = [] →
      ∀ x ∈ (s.follower c).pushes.flight.head?,
        address x = (s.follower c).pushes.lastReceived address (b c)
  | .handle _ | .move .. | .message .. | .poll .. | .print _ | .send .. => True

def UpToDate (b : ι → UInt32) (c : ι) (s : State ι) : Prop :=
  (s.follower c).pushes.UpToDate address (b c)

theorem UpToDate.set (h : UpToDate b c s)
    (hf : c = d → f.pushes.UpToDate address (b d)) : UpToDate b c (s.set d f) := by
  rw [UpToDate, State.set]
  rcases eq_or_ne c d with rfl | hne
  · simp only [Function.update_self]
    exact hf rfl
  · simp only [Function.update_of_ne hne]
    exact h

theorem upToDate_lose {p : Channel Sent} {x : Sent} {rest : List Sent} {y : UInt32}
    (h : p.UpToDate address y) (hflight : p.flight = x :: rest)
    (hlast : p.flight.tail = [] → ∀ x ∈ p.flight.head?,
      address x = p.lastReceived address y) : p.lose.UpToDate address y := by
  cases rest with
  | nil =>
      refine (Channel.upToDate_lose_iff h hflight).mpr (hlast ?_ x ?_)
      · rw [hflight]
        rfl
      · rw [hflight]
        rfl
  | cons z rest => exact h.lose_of_ne_nil hflight (List.cons_ne_nil z rest)

theorem upToDate_send {p : Channel Sent} {l : List Sent} {o : Option UInt32} {y : UInt32}
    (h : p.UpToDate address y) (hl : l.map address = o.toList) :
    (p.send l).UpToDate address y := by
  match l, o, hl with
  | [], _, _ =>
      rw [Channel.UpToDate, Channel.lastSent, Channel.lastReceived, Channel.send,
        List.append_nil, List.append_nil]
      exact h
  | [x], _, _ => exact Channel.upToDate_send_singleton
  | _ :: _ :: _, none, hl => cases hl
  | _ :: _ :: _, some _, hl => cases hl

theorem UpToDate.step (h : UpToDate b c s) (hi : Inv cfg b rl ll acts s)
    (hi' : Inv cfg b rl ll (acts ++ [a]) u) (hkeep : KeepsLastPush b c s a)
    (hs : Followers.step cfg s a = some u) : UpToDate b c u := by
  cases a with
  | handle e =>
      have hsent := hi'.sent c
      injection hs with hs
      subst hs
      rw [moves_append, moves_handle] at hsent
      have hold := hi.sent c
      simp only [Channel.send, List.map_append, hold, List.append_cancel_left_eq]
        at hsent
      exact upToDate_send h hsent
  | move d ip =>
      rw [Followers.step] at hs
      split at hs
      · cases hs
        exact h.set fun hc => hc ▸ h
      · cases hs
  | arrive d port =>
      rw [Followers.step] at hs
      simp only [] at hs
      split at hs
      · cases hs
      · next x rest hflight =>
          split at hs
          · cases hs
            exact h.set fun hc => hc ▸ Channel.UpToDate.deliver h
          · next hip =>
              cases hs
              refine h.set fun hc => ?_
              subst hc
              refine upToDate_lose h hflight fun htail y hy => ?_
              refine (hkeep rfl htail y hy).resolve_left ?_
              rw [hflight] at hy
              cases hy
              exact hip
  | lose d =>
      rw [Followers.step] at hs
      split at hs
      · cases hs
      · next x rest hflight =>
          cases hs
          refine h.set fun hc => ?_
          subst hc
          exact upToDate_lose h hflight (hkeep rfl)
  | message d p =>
      rw [Followers.step] at hs
      split at hs
      · cases hs
      · cases hs
        exact h.set fun hc => hc ▸ h
  | poll d serverSize server =>
      cases hs
      exact h.set fun hc => hc ▸ h
  | print d =>
      cases hs
      exact h.set fun hc => hc ▸ h
  | send d m =>
      cases hs
      exact h.set fun hc => hc ▸ h

theorem upToDate_run (h : Initial cfg b rl ll s)
    (hrun : Run (step cfg) (fun s a => Assumed cfg s a ∧ KeepsLastPush b c s a)
      s acts t) : UpToDate b c t := by
  have hstart : UpToDate b c s := by
    rw [UpToDate, h.pushes c]
    exact Channel.upToDate_empty
  have hend := hrun.invariant
    (I := fun v => UpToDate b c v ∧ ∃ acts, Inv cfg b rl ll acts v)
    ⟨hstart, [], h.inv⟩ fun _ _ _ hv hg hs => by
      obtain ⟨hup, acts, hi⟩ := hv
      have hi' := (hi.step hg.1 hs).1
      exact ⟨hup.step hi hi' hg.2 hs, _, hi'⟩
  exact hend.1

/-- A follower to which nothing more is under way has the address under which the
server knows its peer if and only if the last push that got through says the
same as the last that was sent; and it has it in every run in which a push to it
that is lost has another behind it or repeats what got through. -/
theorem at_rest_in_touch (h : Initial cfg b rl ll s)
    (hrun : Run (step cfg) (Expected cfg) s acts t) (c : ι)
    (hflight : (t.follower c).pushes.flight = [])
    (hqueue : ∀ p ∈ (t.follower c).device.socket.queue,
      Device.fromServer cfg.rendezvousServer p = false) :
    (t.location c = some (t.registered (cfg.peer c)) ↔
      (t.follower c).pushes.lastReceived address (b c) =
        (t.follower c).pushes.lastSent address (b c)) ∧
    (Run (step cfg) (fun s a => Expected cfg s a ∧ KeepsLastPush b c s a)
      s acts t → t.location c = some (t.registered (cfg.peer c))) := by
  obtain ⟨hi, _⟩ := inv_run h.inv (hrun.mono fun _ _ he => he.1)
  rw [List.nil_append] at hi
  have hnone : (t.follower c).waiting cfg = 0 := by
    rw [Follower.waiting, List.filter_eq_nil_iff.mpr fun p hp =>
      Bool.eq_false_iff.mp (hqueue p hp)]
    rfl
  have hlocation : t.location c =
      some ((t.follower c).pushes.lastReceived address (b c)) := by
    refine (hi.follower c).destination.trans ?_
    rw [Follower.applied, hnone, Nat.sub_zero, ← List.length_map (f := address),
      List.take_length]
    rfl
  have hregistered : t.registered (cfg.peer c) =
      (t.follower c).pushes.lastSent address (b c) := by
    rw [State.registered, hi.server, get_run, ipStringToInt_addressText, hi.located c,
      Channel.lastSent, hi.sent c]
    rfl
  have hiff : t.location c = some (t.registered (cfg.peer c)) ↔
      (t.follower c).pushes.lastReceived address (b c) =
        (t.follower c).pushes.lastSent address (b c) := by
    rw [hlocation, hregistered, Option.some_inj]
  refine ⟨hiff, fun hkept => hiff.mpr ?_⟩
  exact (Channel.upToDate_iff_of_flight_nil hflight).mp (upToDate_run h
    (hkept.mono fun _ _ hg => ⟨hg.1.1, hg.2⟩))

instance (b : ι → UInt32) (c : ι) (s : State ι) (a : Action ι) :
    Decidable (KeepsLastPush b c s a) := by
  cases a <;> unfold KeepsLastPush <;> infer_instance

/-- "B" misses the first of two moves. -/
theorem at_rest_in_touch_example : ∃ t,
    exec (step .sample) (fun s a => Expected .sample s a ∧
      KeepsLastPush (fun _ => 9) true s a) State.sample
      [moved 10, moved 11, .lose true, .arrive true 5, polls true] = some t ∧
    t.location true = some (t.registered (ascii "N")) := by
  have hend : ∀ t ∈ exec (step .sample) (fun s a => Expected .sample s a ∧
      KeepsLastPush (fun _ => 9) true s a) State.sample
      [moved 10, moved 11, .lose true, .arrive true 5, polls true],
      (t.follower true).pushes.flight = [] ∧
      ∀ p ∈ (t.follower true).device.socket.queue,
        Device.fromServer Config.sample.rendezvousServer p = false := by
    decide +kernel
  obtain ⟨t, ht, hrun, hflight, hqueue⟩ :=
    Run.exists_of_exec hend (by decide +kernel)
  exact ⟨t, ht, (at_rest_in_touch initial_sample (hrun.mono fun _ _ h => h.1) true
    hflight hqueue).2 hrun⟩

end Followers

end PermanentIP

import PermanentIP.System.HeartbeatLoss

/-!
# What the updates do to the heartbeats

Two applications that say their keywords and echo the other's, on devices that
move, with their daemons. The application's loop receives and then sends, the
daemon comes by when it likes, the network loses and reorders, and whatever else
arrives on an app socket, an update from the rendezvous server says any address
at any time. What they receive, send and resend they log; the runs are those in which
every line can be written.

`SendMessage` lets a keyword out when the last one is back, so as not to
overload: a network at rest carries each keyword once. But an update makes the
daemon resend what its buffer holds, and nothing ever leaves the buffer. The own
keyword is in it once it was sent, the other's once it was echoed, whether it is
under way or not. So from then on every update that either daemon takes puts one
more copy of the keyword on the wire; and since each copy that comes back lets
the next one out, no copy goes but by being lost (`updates_add_heartbeats`).
-/

namespace PermanentIP

open Lib SimpleMobileNode

namespace MovingHeartbeats

open TwoNodes (Side)
open Heartbeats (allowance allowance_eq_zero countP_eraseIdx)

/-- The keywords, where each keeps its peer's `sockaddr`, and the rendezvous
server's address as both have it. -/
structure Config where
  keyword : Side → NetworkMsg
  ptr : Side → Ptr
  rendezvousServer : PhysicalAddress
  keyword_ne : keyword .a ≠ keyword .b
  keyword_ne_nil : ∀ x, keyword x ≠ []
  nulFree : ∀ x, NulFree (keyword x)
  short : ∀ x, (keyword x).length ≤ bufferSize

/-- Where the application's loop is: at `PrintReceivedData`, or at `SendMessage`. -/
inductive Pc where
  | print
  | send
deriving DecidableEq

/-- A device and the address its app socket has. -/
structure Host where
  device : Device
  addr : SockAddr
  pc : Pc

/-- A datagram under way, and where it is for. -/
structure Flight where
  packet : Packet
  dst : SockAddr

structure State where
  host : Side → Host
  transit : List Flight

inductive Action where
  | printReceivedData (x : Side)
  | sendMessage (x : Side)
  | poll (x : Side) (serverSize : Int → Int32) (server : SockAddr)
  | arrive (x : Side) (i : Nat)
  | lose (i : Nat)
  | outside (x : Side) (p : Packet)
  | move (x : Side) (addr : SockAddr)

/-- `x` is as `h` then, and has sent `sent`. -/
def State.act (s : State) (x : Side) (h : Host) (sent : List Sent) : State where
  host := Function.update s.host x h
  transit := s.transit ++ sent.map fun d => ⟨⟨(s.host x).addr, d.payload⟩, d.dst⟩

def Host.receive (h : Host) (p : Packet) : Host :=
  { h with device := { h.device with
      socket := { h.device.socket with queue := h.device.socket.queue ++ [p] } } }

def step (c : Config) (s : State) : Action → Option State
  | .printReceivedData x =>
      let h := s.host x
      if h.pc = .print then
        let r := h.device.app.printReceivedData h.device.socket
        some (s.act x { h with device := ⟨r.app, r.socket⟩, pc := .send } r.sent)
      else none
  | .sendMessage x =>
      let h := s.host x
      if h.pc = .send then
        let r := h.device.app.sendMessage h.device.app.keyword none
        some (s.act x
          { h with device := { h.device with app := r.2.2 }, pc := .print } r.2.1)
      else none
  | .poll x serverSize server =>
      let h := s.host x
      let st := h.device.poll (c.ptr x) serverSize server
      some (s.act x
        { h with device :=
          { app := { h.device.app with mobileNode := st.node }
            socket := st.sockets h.device.app.appSocket } } st.sent)
  | .arrive x i =>
      match s.transit[i]? with
      | some f =>
          if f.dst = (s.host x).addr then
            some
              { host := Function.update s.host x ((s.host x).receive f.packet)
                transit := s.transit.eraseIdx i }
          else none
      | none => none
  | .lose i =>
      if i < s.transit.length then some { s with transit := s.transit.eraseIdx i }
      else none
  | .outside x p =>
      some { s with host := Function.update s.host x ((s.host x).receive p) }
  | .move x addr =>
      some { s with host := Function.update s.host x { s.host x with addr := addr } }

/-- The keyword of `x`, and not the rendezvous server's doing. -/
def Config.beat (c : Config) (x : Side) (p : Packet) : Bool :=
  !Device.fromServer c.rendezvousServer p && decide (p.text = c.keyword x)

/-- Nobody else sends the keywords, and nobody else has the rendezvous server's
address; a poll has room for the address of a datagram that is not the server's. -/
def Assumed (c : Config) (s : State) : Action → Prop
  | .outside _ p => ∀ x, c.beat x p = false
  | .move _ addr => addr.sinAddr ≠ (ipStringToInt c.rendezvousServer).toUInt32
  | .poll x serverSize server =>
      Device.FillsAddress (s.host x).device (.poll serverSize server)
  | .printReceivedData _ | .sendMessage _ | .arrive .. | .lose _ => True

/-- The call can write the lines it has to. -/
def Logs (c : Config) (s : State) : Action → Prop
  | .printReceivedData x => (s.host x).device.Logs (c.ptr x) .printReceivedData
  | .sendMessage x =>
      (s.host x).device.Logs (c.ptr x) (.sendMessage (s.host x).device.app.keyword)
  | .poll x serverSize server =>
      (s.host x).device.Logs (c.ptr x) (.poll serverSize server)
  | .arrive .. | .lose _ | .outside .. | .move .. => True

/-- What is assumed, and both processes live. -/
def Expected (c : Config) (s : State) (a : Action) : Prop := Assumed c s a ∧ Logs c s a

def Host.queue (h : Host) : List Packet := h.device.socket.queue

def Host.received (h : Host) : Bool := h.device.app.received

/-- `app_socket_messages_[app_socket_]`, as a set -/
def Host.outstanding (h : Host) : OrdSet NetworkMsg :=
  h.device.app.mobileNode.outstanding h.device.app.appSocket

/-- How many datagrams under way or waiting in a queue carry the keyword of `x`. -/
def copies (c : Config) (x : Side) (s : State) : Nat :=
  s.transit.countP (c.beat x ·.packet) +
    ((s.host .a).queue.countP (c.beat x) + (s.host .b).queue.countP (c.beat x))

/-! ## What a step counts -/

/-- `SendMessage` lets the keyword of `x` out. -/
def sends (x : Side) (s : State) : Action → Nat
  | .sendMessage y => if y = x ∧ (s.host x).received then 1 else 0
  | _ => 0

def loses (c : Config) (x : Side) (s : State) : Action → Nat
  | .lose i => if (s.transit[i]?).any (c.beat x ·.packet) then 1 else 0
  | _ => 0

/-- The keyword of `x` is back at `x`. -/
def buries (c : Config) (x : Side) (s : State) : Action → Nat
  | .printReceivedData y =>
      if y = x ∧ (s.host y).queue.head?.any (c.beat x) then 1 else 0
  | _ => 0

/-- The other receives the keyword of `x`. -/
def echoes (c : Config) (x : Side) (s : State) : Action → Nat
  | .printReceivedData y =>
      if y ≠ x ∧ (s.host y).queue.head?.any (c.beat x) then 1 else 0
  | _ => 0

/-- How many of the datagrams that `PollSubscriptions` resends are the keyword of
`x`. -/
def resends (c : Config) (x : Side) (s : State) : Action → Nat
  | .poll y serverSize server =>
      ((s.host y).device.poll (c.ptr y) serverSize server).sent.countP
        (·.payload = c.keyword x)
  | _ => 0

/-- `PollSubscriptions` takes an update. -/
def updates (s : State) : Action → Nat
  | .poll y serverSize server =>
      let d := (s.host y).device
      if d.app.mobileNode.isUpdate (recvfrom d.socket true bufferSize server
        (serverSize d.app.appSocket)) then 1 else 0
  | _ => 0

/-- Connected, and what is in the buffer has been a message. -/
structure Settled (c : Config) (x : Side) (h : Host) : Prop where
  keyword : h.device.app.keyword = c.keyword x
  appServer : h.device.app.rendezvousServer = c.rendezvousServer
  nodeServer : h.device.app.mobileNode.rendezvousServer = c.rendezvousServer
  appSocket : 0 ≤ h.device.app.appSocket
  peerInfo : h.device.app.peerInfo = some (c.ptr x)
  soError : h.device.socket.soError = none
  addr : h.addr.sinAddr ≠ (ipStringToInt c.rendezvousServer).toUInt32
  buffered : ∀ m ∈ h.outstanding, NulFree m ∧ m.length ≤ bufferSize

/-- Connected, and no keyword sent yet. -/
structure Initial (c : Config) (s : State) : Prop where
  settled : ∀ x, Settled c x (s.host x)
  received : ∀ x, (s.host x).received
  copies : ∀ x, copies c x s = 0
  outstanding : ∀ x y, c.keyword x ∉ (s.host y).outstanding

variable {c : Config} {s t u v : State} {x y z : Side} {h h' : Host} {a : Action}
  {acts more : List Action} {m : NetworkMsg} {p : Packet} {rest : List Packet}
  {sent : List Sent}

/-! ## Texts -/

theorem sendable_text (p : Packet) : NulFree p.text ∧ p.text.length ≤ bufferSize :=
  ⟨nulFree_cstr _, (List.takeWhile_sublist _).length_le.trans (List.length_take_le _ _)⟩

/-- The other side reads what was echoed, also where the NUL is cut off. -/
theorem text_echoed (src : SockAddr) (hm : NulFree m ∧ m.length ≤ bufferSize) :
    Packet.text ⟨src, m ++ [0]⟩ = m := by
  rcases Nat.lt_or_eq_of_le hm.2 with hlt | heq
  · exact text_of_terminated hm.1 hlt
  · rw [Packet.text, List.take_left' heq, cstr_eq_self hm.1]

theorem beat_sent {addr : SockAddr} {payload : Bytes}
    (haddr : addr.sinAddr ≠ (ipStringToInt c.rendezvousServer).toUInt32)
    (htext : Packet.text ⟨addr, payload⟩ = m) :
    c.beat x ⟨addr, payload⟩ = decide (m = c.keyword x) := by
  rw [Config.beat, Device.fromServer, decide_eq_false haddr, Bool.not_false,
    Bool.true_and, htext]

theorem beat_of_text (hsrc : Device.fromServer c.rendezvousServer p = false) :
    c.beat x p = decide (p.text = c.keyword x) := by
  rw [Config.beat, hsrc, Bool.not_false, Bool.true_and]

theorem beat_fromServer (hsrc : Device.fromServer c.rendezvousServer p = true) :
    c.beat x p = false := by
  rw [Config.beat, hsrc, Bool.not_true, Bool.false_and]

/-! ## What a host can do -/

/-- A host later: its queue, its flag and its loop are these, and its buffer holds
`noted` besides. -/
structure Next (c : Config) (x : Side) (h h' : Host) (queue : List Packet)
    (received : Bool) (pc : Pc) (noted : List NetworkMsg) : Prop where
  settled : Settled c x h'
  queue : h'.queue = queue
  received : h'.received = received
  pc : h'.pc = pc
  outstanding : ∀ m, m ∈ h'.outstanding ↔ m ∈ noted ∨ m ∈ h.outstanding

/-- What a call on a device does: the host then, and what it sends. -/
inductive Does (c : Config) (x : Side) (h : Host) : Action → Host → List Sent → Prop
  | idle {h' : Host} (hhead : ∀ p ∈ h.queue.head?, ∀ z, c.beat z p = false)
      (hnext : Next c x h h' h.queue h.received .send []) :
      Does c x h (.printReceivedData x) h' []
  | echo {h' : Host} {p : Packet} {rest : List Packet} {fd : Int}
      (hq : h.queue = p :: rest)
      (hsrc : Device.fromServer c.rendezvousServer p = false)
      (hne : p.text ≠ c.keyword x)
      (hnext : Next c x h h' rest h.received .send [p.text]) :
      Does c x h (.printReceivedData x) h' [⟨fd, p.src, p.text ++ [0]⟩]
  | bury {h' : Host} {p : Packet} {rest : List Packet} (hpc : h.pc = .print)
      (hq : h.queue = p :: rest)
      (hsrc : Device.fromServer c.rendezvousServer p = false)
      (htext : p.text = c.keyword x) (hnext : Next c x h h' rest true .send []) :
      Does c x h (.printReceivedData x) h' []
  | start {h' : Host} {fd : Int} {dst : SockAddr} (hr : h.received = true)
      (hnext : Next c x h h' h.queue false .print [c.keyword x]) :
      Does c x h (.sendMessage x) h' [⟨fd, dst, c.keyword x ++ [0]⟩]
  | wait {h' : Host} (hr : h.received = false)
      (hnext : Next c x h h' h.queue false .print []) :
      Does c x h (.sendMessage x) h' []
  | update {h' : Host} {p : Packet} {rest : List Packet} {serverSize : Int → Int32}
      {server : SockAddr} {fd : Int} {dst : SockAddr} (hq : h.queue = p :: rest)
      (hsrc : Device.fromServer c.rendezvousServer p = true)
      (hup : h.device.app.mobileNode.isUpdate (recvfrom h.device.socket true
        bufferSize server (serverSize h.device.app.appSocket)) = true)
      (hsent : (h.device.poll (c.ptr x) serverSize server).sent =
        h.outstanding.elems.map fun m => ⟨fd, dst, m⟩)
      (hnext : Next c x h h' rest h.received h.pc []) :
      Does c x h (.poll x serverSize server) h'
        (h.outstanding.elems.map fun m => ⟨fd, dst, m⟩)
  | pass {h' : Host} {serverSize : Int → Int32} {server : SockAddr}
      (hup : h.device.app.mobileNode.isUpdate (recvfrom h.device.socket true
        bufferSize server (serverSize h.device.app.appSocket)) = false)
      (hsent : (h.device.poll (c.ptr x) serverSize server).sent = [])
      (hnext : Next c x h h' h.queue h.received h.pc []) :
      Does c x h (.poll x serverSize server) h' []

/-- The same device but for the flag, the peer's address, the buffer and the
socket. -/
theorem Settled.next (hset : Settled c x h) {app : EchoApp} {heap : List SockAddr}
    {messages : UnorderedMap Int (OrdSet NetworkMsg)} {received : Bool}
    {noted : List NetworkMsg} {socket : Socket} (pc : Pc)
    (happ : app = { h.device.app with
      received := received
      mobileNode := { h.device.app.mobileNode with
        heap := heap, appSocketMessages := messages } })
    (hsocket : socket.soError = none)
    (hout : ∀ m, m ∈ app.mobileNode.outstanding h.device.app.appSocket ↔
      m ∈ noted ∨ m ∈ h.outstanding)
    (hnoted : ∀ m ∈ noted, NulFree m ∧ m.length ≤ bufferSize) :
    Next c x h { h with device := ⟨app, socket⟩, pc := pc } socket.queue received pc
      noted := by
  subst happ
  refine ⟨⟨hset.keyword, hset.appServer, hset.nodeServer, hset.appSocket, hset.peerInfo,
    hsocket, hset.addr, fun m hm => ?_⟩, rfl, rfl, rfl, hout⟩
  exact ((hout m).mp hm).elim (hnoted m) (hset.buffered m)

theorem Settled.next_app (hset : Settled c x h) {socket : Socket} (pc : Pc)
    (hsocket : socket.soError = none) :
    Next c x h { h with device := ⟨h.device.app, socket⟩, pc := pc } socket.queue
      h.received pc [] :=
  hset.next pc rfl hsocket (fun _ => (or_iff_right List.not_mem_nil).symm)
    fun _ hm => absurd hm List.not_mem_nil

theorem Settled.socket_eq (hset : Settled c x h) : h.device.socket = ⟨h.queue, none⟩ := by
  rw [← hset.soError]
  rfl

theorem mem_outstanding_echo {app : EchoApp} {m' : NetworkMsg} :
    m' ∈ (((app.messageReceived m).messageSent m).messageReceived m).mobileNode.outstanding
        app.appSocket ↔ m' ∈ [m] ∨ m' ∈ app.mobileNode.outstanding app.appSocket := by
  show m' ∈ (SimpleMobileNode.messageReceived _ _ m).outstanding _ ↔ _
  rw [outstanding_messageReceived]
  refine mem_outstanding_messageSent.trans ?_
  show _ ∨ m' ∈ (SimpleMobileNode.messageReceived _ _ m).outstanding _ ↔ _
  rw [outstanding_messageReceived, List.mem_singleton]
  exact or_congr_left (and_iff_right rfl)

theorem does_print (hset : Settled c x h) (hpc : h.pc = .print) :
    Does c x h (.printReceivedData x)
      { h with
        device := ⟨(h.device.app.printReceivedData h.device.socket).app,
          (h.device.app.printReceivedData h.device.socket).socket⟩
        pc := .send }
      (h.device.app.printReceivedData h.device.socket).sent := by
  rw [hset.socket_eq]
  cases hq : h.queue with
  | nil =>
      rw [EchoApp.printReceivedData_nil]
      refine .idle ?_ ?_
      · rw [hq]
        exact fun _ hp => nomatch hp
      · rw [hq]
        exact hset.next_app .send rfl
  | cons p rest =>
      by_cases hskip : p.payload = [] ∨
          p.src.sinAddr = (ipStringToInt h.device.app.rendezvousServer).toUInt32
      · rw [EchoApp.printReceivedData_ignored hskip]
        refine .idle ?_ ?_
        · rw [hq]
          intro p' hp' z
          cases hp'
          rcases hskip with hnil | hsrc
          · obtain ⟨src, payload⟩ := p
            subst hnil
            have hne : Packet.text ⟨src, []⟩ ≠ c.keyword z := (c.keyword_ne_nil z).symm
            rw [Config.beat, decide_eq_false hne, Bool.and_false]
          · rw [hset.appServer] at hsrc
            exact beat_fromServer (decide_eq_true hsrc)
        · rw [hq]
          exact hset.next_app .send rfl
      · obtain ⟨hp, hsrc⟩ := not_or.mp hskip
        rw [EchoApp.printReceivedData_request hp hsrc]
        rw [hset.appServer] at hsrc
        have hother := decide_eq_false hsrc
        by_cases htext : p.text = h.device.app.keyword
        · rw [EchoApp.handleMessage_keyword htext]
          refine .bury hpc hq hother (htext.trans hset.keyword) ?_
          refine hset.next .send rfl rfl (fun m => ?_) fun _ hm =>
            absurd hm List.not_mem_nil
          show m ∈ (SimpleMobileNode.messageReceived _ _ p.text).outstanding _ ↔ _
          rw [outstanding_messageReceived, or_iff_right List.not_mem_nil]
          exact Iff.rfl
        · rw [EchoApp.handleMessage_of_ne htext hset.appSocket]
          refine .echo hq hother (fun hkey => htext (hkey.trans hset.keyword.symm)) ?_
          refine hset.next .send rfl rfl (fun m => mem_outstanding_echo) fun m hm => ?_
          rw [List.mem_singleton.mp hm]
          exact sendable_text p

theorem does_send (hset : Settled c x h) :
    Does c x h (.sendMessage x)
      { h with
        device := { h.device with
          app := (h.device.app.sendMessage h.device.app.keyword none).2.2 }
        pc := .print }
      (h.device.app.sendMessage h.device.app.keyword none).2.1 := by
  by_cases hr : h.device.app.received
  · have hnot : ¬ h.device.app.appSocket < 0 := Int.not_lt.mpr hset.appSocket
    have hdst : h.device.app.destination none =
        some (h.device.app.mobileNode.deref (c.ptr x)) := by
      rw [EchoApp.destination, hset.peerInfo]
      rfl
    have htransmit : h.device.app.transmit h.device.app.keyword none =
        some ([⟨h.device.app.appSocket, h.device.app.mobileNode.deref (c.ptr x),
          c.keyword x ++ [0]⟩], { h.device.app with received := false }) := by
      rw [EchoApp.transmit, if_neg (by simp [hr])]
      simp only [hdst, sendto, if_neg hnot, hset.keyword, if_true]
    rw [EchoApp.sendMessage, htransmit]
    refine .start hr (hset.next .print rfl hset.soError (fun m => ?_) fun m hm => ?_)
    · rw [hset.keyword, List.mem_singleton]
      refine mem_outstanding_messageSent.trans (or_congr_left ?_)
      exact and_iff_right rfl
    · rw [List.mem_singleton.mp hm]
      exact ⟨c.nulFree x, c.short x⟩
  · rw [Heartbeats.sendMessage_waiting hr]
    have hwaits : h.received = false := Bool.eq_false_iff.mpr hr
    refine .wait hwaits ?_
    have hnext := hset.next_app .print hset.soError
    rw [hwaits] at hnext
    exact hnext

theorem resend_of_nonneg {fd : Int} (hfd : 0 ≤ fd) (peer : SockAddr)
    (unsent : OrdSet NetworkMsg) :
    resend fd peer unsent = unsent.elems.map fun m => ⟨fd, peer, m⟩ := by
  have hnot : ¬ fd < 0 := Int.not_lt.mpr hfd
  rw [resend, List.map_eq_flatMap]
  refine List.flatMap_congr fun m _ => ?_
  rw [sendto, if_neg hnot]

theorem does_poll (hset : Settled c x h) {serverSize : Int → Int32} {server : SockAddr}
    (hfill : Device.FillsAddress h.device (.poll serverSize server)) :
    Does c x h (.poll x serverSize server)
      { h with device :=
        { app := { h.device.app with
            mobileNode := (h.device.poll (c.ptr x) serverSize server).node }
          socket := (h.device.poll (c.ptr x) serverSize server).sockets
            h.device.app.appSocket } }
      (h.device.poll (c.ptr x) serverSize server).sent := by
  by_cases hup : h.device.app.mobileNode.isUpdate
      (recvfrom h.device.socket true bufferSize server
        (serverSize h.device.app.appSocket))
  · obtain ⟨p, rest, hsock, _, heq⟩ := pollSocket_of_isUpdate
      ⟨h.device.app.mobileNode, fun _ => h.device.socket, server, [], false⟩
      (c.ptr x) hup
    change h.device.socket = ⟨p :: rest, none⟩ at hsock
    have hsrc := Device.fromServer_of_isUpdate hfill
      (hset.nodeServer.trans hset.appServer.symm) hsock hup
    rw [hset.appServer] at hsrc
    have hq : h.queue = p :: rest := congrArg Socket.queue hsock
    have hsent : (h.device.poll (c.ptr x) serverSize server).sent =
        h.outstanding.elems.map fun m => ⟨h.device.app.appSocket,
          (h.device.app.mobileNode.applyUpdate h.device.app.appSocket (c.ptr x) p).deref
            (c.ptr x), m⟩ := by
      rw [Device.poll, heq, ← resend_of_nonneg hset.appSocket]
      rfl
    rw [hsent]
    refine .update hq hsrc hup hsent ?_
    rw [Device.poll, heq]
    simp only [Function.update_self]
    refine hset.next h.pc rfl rfl (fun m => ?_) fun _ hm => absurd hm List.not_mem_nil
    rw [outstanding_applyUpdate, or_iff_right List.not_mem_nil]
    exact Iff.rfl
  · have heq := pollSocket_of_not_isUpdate
      ⟨h.device.app.mobileNode, fun _ => h.device.socket, server, [], false⟩
      (c.ptr x) hup
    have hsent : (h.device.poll (c.ptr x) serverSize server).sent = [] := by
      rw [Device.poll, heq]
    rw [hsent]
    refine .pass (Bool.eq_false_iff.mpr hup) hsent ?_
    rw [Device.poll, heq]
    simp only [Function.update_self, PollState.peek, recvfrom_peek_socket hset.soError]
    exact hset.next_app h.pc hset.soError

/-- What a step can do. -/
inductive Effect (c : Config) (s : State) : Action → State → Prop
  | does {x : Side} {a : Action} {h' : Host} {sent : List Sent}
      (hd : Does c x (s.host x) a h' sent) : Effect c s a (s.act x h' sent)
  | arrive {x : Side} {i : Nat} {f : Flight} (hf : s.transit[i]? = some f) :
      Effect c s (.arrive x i)
        { host := Function.update s.host x ((s.host x).receive f.packet)
          transit := s.transit.eraseIdx i }
  | lose {i : Nat} {f : Flight} (hf : s.transit[i]? = some f) :
      Effect c s (.lose i) { s with transit := s.transit.eraseIdx i }
  | outside {x : Side} {p : Packet} (hp : ∀ z, c.beat z p = false) :
      Effect c s (.outside x p)
        { s with host := Function.update s.host x ((s.host x).receive p) }
  | move {x : Side} {addr : SockAddr}
      (haddr : addr.sinAddr ≠ (ipStringToInt c.rendezvousServer).toUInt32) :
      Effect c s (.move x addr)
        { s with host := Function.update s.host x { s.host x with addr := addr } }

theorem effect (hset : ∀ x, Settled c x (s.host x)) (he : Expected c s a)
    (hs : step c s a = some u) : Effect c s a u := by
  have hassumed := he.1
  cases a with
  | printReceivedData x =>
      rw [step] at hs
      simp only [] at hs
      split at hs
      · next hpc =>
          cases hs
          exact .does (does_print (hset x) hpc)
      · cases hs
  | sendMessage x =>
      rw [step] at hs
      simp only [] at hs
      split at hs
      · cases hs
        exact .does (does_send (hset x))
      · cases hs
  | poll x serverSize server =>
      cases hs
      exact .does (does_poll (hset x) hassumed)
  | arrive x i =>
      rw [step] at hs
      split at hs
      · next f hf =>
          split at hs
          · cases hs
            exact .arrive hf
          · cases hs
      · cases hs
  | lose i =>
      rw [step] at hs
      split at hs
      · next hi =>
          cases hs
          exact .lose (List.getElem?_eq_getElem hi)
      · cases hs
  | outside x p =>
      cases hs
      exact .outside hassumed
  | move x addr =>
      cases hs
      exact .move hassumed

/-! ## One step -/

/-- What a host takes and sends is what changes of a keyword's copies. -/
theorem copies_host (x y : Side) (h' : Host) (transit : List Flight) :
    copies c x ⟨Function.update s.host y h', transit⟩ +
        ((s.host y).queue.countP (c.beat x) + s.transit.countP (c.beat x ·.packet)) =
      copies c x s +
        (h'.queue.countP (c.beat x) + transit.countP (c.beat x ·.packet)) := by
  cases y with
  | a =>
      simp only [copies, Function.update_self,
        Function.update_of_ne (show Side.b ≠ .a by decide)]
      omega
  | b =>
      simp only [copies, Function.update_self,
        Function.update_of_ne (show Side.a ≠ .b by decide)]
      omega

/-- The keyword's copies among what a host has sent. -/
def sentCopies (c : Config) (x : Side) (h : Host) (sent : List Sent) : Nat :=
  sent.countP fun d => c.beat x ⟨h.addr, d.payload⟩

theorem copies_act (x y : Side) (h' : Host) (sent : List Sent) :
    copies c x (s.act y h' sent) + (s.host y).queue.countP (c.beat x) =
      copies c x s + (h'.queue.countP (c.beat x) + sentCopies c x (s.host y) sent) := by
  have hhost := copies_host (c := c) (s := s) x y h' (s.act y h' sent).transit
  have htransit : (s.act y h' sent).transit.countP (c.beat x ·.packet) =
      s.transit.countP (c.beat x ·.packet) + sentCopies c x (s.host y) sent := by
    rw [State.act, List.countP_append, List.countP_map]
    rfl
  rw [htransit] at hhost
  have hstate : copies c x ⟨Function.update s.host y h', (s.act y h' sent).transit⟩ =
      copies c x (s.act y h' sent) := rfl
  omega

theorem sentCopies_singleton (hset : Settled c y h) {d : Sent} {m : NetworkMsg}
    (htext : Packet.text ⟨h.addr, d.payload⟩ = m) :
    sentCopies c x h [d] = if m = c.keyword x then 1 else 0 := by
  rw [sentCopies, List.countP_singleton, beat_sent hset.addr htext]
  simp only [decide_eq_true_eq]

/-- Of what is resent exactly the keyword, if it is in the buffer, is the keyword. -/
theorem sentCopies_resent (hset : Settled c y h) (fd : Int) (dst : SockAddr) :
    sentCopies c x h (h.outstanding.elems.map fun m => ⟨fd, dst, m⟩) =
      if c.keyword x ∈ h.outstanding then 1 else 0 := by
  rw [sentCopies, List.countP_map]
  refine OrdSet.countP_elems fun m hm => ?_
  have hbuffered := hset.buffered m hm
  rw [Function.comp_apply, beat_sent hset.addr (text_of_lt hbuffered.1 hbuffered.2),
    decide_eq_true_eq]

theorem resends_poll {serverSize : Int → Int32} {server : SockAddr} {fd : Int}
    {dst : SockAddr} (hsent : ((s.host y).device.poll (c.ptr y) serverSize server).sent =
      (s.host y).outstanding.elems.map fun m => ⟨fd, dst, m⟩) :
    resends c x s (.poll y serverSize server) =
      if c.keyword x ∈ (s.host y).outstanding then 1 else 0 := by
  rw [resends, hsent, List.countP_map]
  exact OrdSet.countP_elems fun m _ => decide_eq_true_iff

theorem Does.wire (hset : Settled c y (s.host y)) (hd : Does c y (s.host y) a h' sent)
    (x : Side) :
    h'.queue.countP (c.beat x) + sentCopies c x (s.host y) sent + buries c x s a =
      (s.host y).queue.countP (c.beat x) + (sends x s a + resends c x s a) := by
  cases hd with
  | idle hhead hnext =>
      have hnone : buries c x s (.printReceivedData y) = 0 := by
        refine if_neg fun ⟨_, hany⟩ => ?_
        obtain ⟨p, hp, hbeat⟩ := (Option.any_eq_true _ _).mp hany
        rw [hhead p hp x] at hbeat
        cases hbeat
      rw [hnone, hnext.queue]
      rfl
  | echo hq hsrc hne hnext =>
      next p rest fd =>
      have hnone : buries c x s (.printReceivedData y) = 0 := by
        rw [buries, hq, List.head?_cons, Option.any_some, beat_of_text hsrc]
        refine if_neg fun ⟨hyx, htext⟩ => ?_
        subst hyx
        exact hne (of_decide_eq_true htext)
      rw [hnone, hnext.queue, hq, List.countP_cons, beat_of_text hsrc,
        sentCopies_singleton hset (text_echoed _ (sendable_text p))]
      simp only [decide_eq_true_eq]
      rfl
  | bury hpc hq hsrc htext hnext =>
      next p rest =>
      have hburies : buries c x s (.printReceivedData y) =
          if c.beat x p then 1 else 0 := by
        rw [buries, hq, List.head?_cons, Option.any_some]
        by_cases hbeat : c.beat x p
        · have hyx : y = x := by
            rw [beat_of_text hsrc, htext] at hbeat
            exact Side.injective_of_ne c.keyword_ne (of_decide_eq_true hbeat)
          rw [if_pos ⟨hyx, hbeat⟩, if_pos hbeat]
        · rw [if_neg hbeat, if_neg fun h => hbeat h.2]
      rw [hburies, hnext.queue, hq, List.countP_cons]
      rfl
  | start hr hnext =>
      next fd dst =>
      have hsends : sends x s (.sendMessage y) = if c.keyword y = c.keyword x then 1
          else 0 := by
        rw [sends]
        rcases eq_or_ne y x with rfl | hyx
        · rw [if_pos ⟨rfl, hr⟩, if_pos rfl]
        · rw [if_neg fun h => hyx h.1, if_neg fun hk => hyx (Side.injective_of_ne c.keyword_ne hk)]
      rw [hsends, hnext.queue, sentCopies_singleton hset
        (text_echoed _ ⟨c.nulFree y, c.short y⟩)]
      rfl
  | wait hr hnext =>
      have hsends : sends x s (.sendMessage y) = 0 := by
        refine if_neg fun ⟨hyx, hrec⟩ => ?_
        subst hyx
        rw [hr] at hrec
        cases hrec
      rw [hsends, hnext.queue]
      rfl
  | update hq hsrc hup hsent hnext =>
      rw [sentCopies_resent hset, resends_poll hsent, hnext.queue, hq,
        List.countP_cons_of_neg (by rw [beat_fromServer hsrc]; exact Bool.false_ne_true)]
      show _ + 0 = _ + (0 + _)
      omega
  | pass hup hsent hnext =>
      rw [hnext.queue, resends, hsent]
      rfl

theorem Does.loses (hd : Does c y h a h' sent) (x : Side) : loses c x s a = 0 := by
  cases hd <;> rfl

theorem Effect.wire (hset : ∀ x, Settled c x (s.host x)) (he : Effect c s a u)
    (x : Side) :
    copies c x u + (loses c x s a + buries c x s a) =
      copies c x s + (sends x s a + resends c x s a) := by
  cases he with
  | does hd =>
      next y h' sent =>
      have hcopies := copies_act (c := c) (s := s) x y h' sent
      have hwire := hd.wire (hset y) x
      rw [hd.loses x]
      omega
  | arrive hf =>
      next y i f =>
      have hhost := copies_host (c := c) (s := s) x y ((s.host y).receive f.packet)
        (s.transit.eraseIdx i)
      have herase := countP_eraseIdx (c.beat x ·.packet) hf
      have hqueue : ((s.host y).receive f.packet).queue.countP (c.beat x) =
          (s.host y).queue.countP (c.beat x) + if c.beat x f.packet then 1 else 0 := by
        rw [← List.countP_singleton, ← List.countP_append]
        rfl
      show _ + (0 + 0) = _ + (0 + 0)
      omega
  | lose hf =>
      next i f =>
      have herase := countP_eraseIdx (c.beat x ·.packet) hf
      have hloses : loses c x s (.lose i) = if c.beat x f.packet then 1 else 0 := by
        rw [loses, hf, Option.any_some]
      have hcopies : copies c x { s with transit := s.transit.eraseIdx i } +
          s.transit.countP (c.beat x ·.packet) =
          copies c x s + (s.transit.eraseIdx i).countP (c.beat x ·.packet) := by
        simp only [copies]
        omega
      rw [hloses]
      show _ + (_ + 0) = _ + (0 + 0)
      omega
  | outside hp =>
      next y p =>
      have hhost := copies_host (c := c) (s := s) x y ((s.host y).receive p) s.transit
      have hqueue : ((s.host y).receive p).queue.countP (c.beat x) =
          (s.host y).queue.countP (c.beat x) := by
        rw [Host.receive, Host.queue, List.countP_append, List.countP_singleton, hp x]
        rfl
      show _ + (0 + 0) = _ + (0 + 0)
      omega
  | move haddr =>
      next y addr =>
      have hhost := copies_host (c := c) (s := s) x y { s.host y with addr := addr }
        s.transit
      exact Nat.add_right_cancel hhost

theorem sends_ne_zero : sends x s (.sendMessage y) ≠ 0 ↔ y = x ∧ (s.host x).received :=
  Nat.one_ne_zero.ite_ne_right_iff

theorem buries_ne_zero : buries c x s (.printReceivedData y) ≠ 0 ↔
    y = x ∧ (s.host y).queue.head?.any (c.beat x) :=
  Nat.one_ne_zero.ite_ne_right_iff

theorem echoes_ne_zero : echoes c x s (.printReceivedData y) ≠ 0 ↔
    y ≠ x ∧ (s.host y).queue.head?.any (c.beat x) :=
  Nat.one_ne_zero.ite_ne_right_iff

theorem any_head_iff (hq : h.queue = p :: rest)
    (hsrc : Device.fromServer c.rendezvousServer p = false) :
    h.queue.head?.any (c.beat x) = true ↔ p.text = c.keyword x := by
  rw [hq, List.head?_cons, Option.any_some, beat_of_text hsrc, decide_eq_true_eq]

theorem any_head_eq_false (hhead : ∀ p ∈ h.queue.head?, ∀ z, c.beat z p = false) :
    h.queue.head?.any (c.beat x) = false := by
  rw [Bool.eq_false_iff]
  intro hany
  obtain ⟨p, hp, hbeat⟩ := (Option.any_eq_true _ _).mp hany
  rw [hhead p hp x] at hbeat
  cases hbeat

/-- The keyword enters a buffer when its owner sends it and when the other echoes
it. -/
theorem Does.outstanding (hd : Does c y (s.host y) a h' sent) (x : Side) :
    c.keyword x ∈ h'.outstanding ↔ c.keyword x ∈ (s.host y).outstanding ∨
      (sends x s a ≠ 0 ∨ echoes c x s a ≠ 0) := by
  cases hd with
  | idle hhead hnext =>
      have hechoes : ¬ echoes c x s (.printReceivedData y) ≠ 0 := by
        rw [echoes_ne_zero, any_head_eq_false hhead]
        exact fun h => Bool.false_ne_true h.2
      rw [hnext.outstanding, or_iff_right List.not_mem_nil, or_iff_left]
      exact not_or.mpr ⟨fun h => h rfl, hechoes⟩
  | echo hq hsrc hne hnext =>
      rw [hnext.outstanding, List.mem_singleton, or_comm, echoes_ne_zero,
        any_head_iff hq hsrc]
      refine or_congr_right ⟨fun htext => Or.inr ⟨?_, htext.symm⟩, ?_⟩
      · rintro rfl
        exact hne htext.symm
      · rintro (hsends | ⟨_, htext⟩)
        · exact absurd rfl hsends
        · exact htext.symm
  | bury hpc hq hsrc htext hnext =>
      have hechoes : ¬ echoes c x s (.printReceivedData y) ≠ 0 := by
        rw [echoes_ne_zero, any_head_iff hq hsrc, htext]
        exact fun h => h.1 (Side.injective_of_ne c.keyword_ne h.2)
      rw [hnext.outstanding, or_iff_right List.not_mem_nil, or_iff_left]
      exact not_or.mpr ⟨fun h => h rfl, hechoes⟩
  | start hr hnext =>
      rw [hnext.outstanding, List.mem_singleton, or_comm, sends_ne_zero]
      refine or_congr_right ⟨fun hkey => ?_, ?_⟩
      · obtain rfl := Side.injective_of_ne c.keyword_ne hkey
        exact Or.inl ⟨rfl, hr⟩
      · rintro (⟨rfl, _⟩ | hechoes)
        · rfl
        · exact absurd rfl hechoes
  | wait hr hnext =>
      have hsends : ¬ sends x s (.sendMessage y) ≠ 0 := by
        rw [sends_ne_zero]
        rintro ⟨rfl, hrec⟩
        rw [hr] at hrec
        cases hrec
      rw [hnext.outstanding, or_iff_right List.not_mem_nil, or_iff_left]
      exact not_or.mpr ⟨hsends, fun h => h rfl⟩
  | update hq hsrc hup hsent hnext =>
      rw [hnext.outstanding, or_iff_right List.not_mem_nil, or_iff_left]
      exact not_or.mpr ⟨fun h => h rfl, fun h => h rfl⟩
  | pass hup hsent hnext =>
      rw [hnext.outstanding, or_iff_right List.not_mem_nil, or_iff_left]
      exact not_or.mpr ⟨fun h => h rfl, fun h => h rfl⟩

/-- Whose call the step is. -/
def Action.caller : Action → Option Side
  | .printReceivedData x | .sendMessage x | .poll x _ _ => some x
  | .arrive .. | .lose _ | .outside .. | .move .. => none

theorem Does.caller (hd : Does c y h a h' sent) : a.caller = some y := by
  cases hd <;> rfl

theorem caller_of_sends (hx : sends x s a ≠ 0) : a.caller = some x := by
  cases a with
  | sendMessage y => rw [Action.caller, (sends_ne_zero.mp hx).1]
  | _ => exact absurd rfl hx

theorem caller_of_buries (hx : buries c x s a ≠ 0) : a.caller = some x := by
  cases a with
  | printReceivedData y => rw [Action.caller, (buries_ne_zero.mp hx).1]
  | _ => exact absurd rfl hx

theorem caller_of_echoes (hx : echoes c x s a ≠ 0) : a.caller = some x.other := by
  cases a with
  | printReceivedData y =>
      rw [Action.caller, (x.eq_or_eq_other y).resolve_left (echoes_ne_zero.mp hx).1]
  | _ => exact absurd rfl hx

/-- A host at a step that is no call on its device. -/
structure Kept (c : Config) (x : Side) (h h' : Host) : Prop where
  settled : Settled c x h'
  app : h'.device.app = h.device.app
  pc : h'.pc = h.pc

theorem Kept.outstanding (hk : Kept c x h h') : h'.outstanding = h.outstanding := by
  rw [Host.outstanding, hk.app]
  rfl

theorem Kept.received (hk : Kept c x h h') : h'.received = h.received :=
  congrArg EchoApp.received hk.app

/-- To each host a step is a call on its device or nothing that matters to it. -/
theorem Effect.host (hset : ∀ x, Settled c x (s.host x)) (he : Effect c s a u)
    (z : Side) : (∃ sent, Does c z (s.host z) a (u.host z) sent) ∨
      (a.caller ≠ some z ∧ Kept c z (s.host z) (u.host z)) := by
  have hsame : Kept c z (s.host z) (s.host z) := ⟨hset z, rfl, rfl⟩
  have hupdate {y : Side} {h' : Host} (hk : Kept c y (s.host y) h') :
      Kept c z (s.host z) (Function.update s.host y h' z) := by
    rcases eq_or_ne z y with rfl | hne
    · rw [Function.update_self]
      exact hk
    · rw [Function.update_of_ne hne]
      exact hsame
  have hreceive (y : Side) (p : Packet) : Kept c y (s.host y) ((s.host y).receive p) :=
    ⟨⟨(hset y).keyword, (hset y).appServer, (hset y).nodeServer, (hset y).appSocket,
      (hset y).peerInfo, (hset y).soError, (hset y).addr, (hset y).buffered⟩, rfl, rfl⟩
  cases he with
  | does hd =>
      next y h' sent =>
      rcases eq_or_ne z y with rfl | hne
      · left
        refine ⟨sent, ?_⟩
        simp only [State.act, Function.update_self]
        exact hd
      · right
        simp only [State.act, Function.update_of_ne hne]
        rw [hd.caller]
        exact ⟨fun hcall => hne (Option.some.inj hcall).symm, hsame⟩
  | arrive hf => exact Or.inr ⟨nofun, hupdate (hreceive _ _)⟩
  | lose hf => exact Or.inr ⟨nofun, hsame⟩
  | outside hp => exact Or.inr ⟨nofun, hupdate (hreceive _ _)⟩
  | move haddr =>
      next y addr =>
      exact Or.inr ⟨nofun, hupdate ⟨⟨(hset y).keyword, (hset y).appServer,
        (hset y).nodeServer, (hset y).appSocket, (hset y).peerInfo, (hset y).soError,
        haddr, (hset y).buffered⟩, rfl, rfl⟩⟩

theorem Does.settled (hd : Does c y h a h' sent) : Settled c y h' := by
  cases hd with
  | idle _ hnext => exact hnext.settled
  | echo _ _ _ hnext => exact hnext.settled
  | bury _ _ _ _ hnext => exact hnext.settled
  | start _ hnext => exact hnext.settled
  | wait _ hnext => exact hnext.settled
  | update _ _ _ _ hnext => exact hnext.settled
  | pass _ _ hnext => exact hnext.settled

theorem Effect.settled (hset : ∀ x, Settled c x (s.host x)) (he : Effect c s a u)
    (z : Side) : Settled c z (u.host z) := by
  rcases he.host hset z with ⟨sent, hd⟩ | ⟨_, hk⟩
  · exact hd.settled
  · exact hk.settled

theorem Effect.sent_noted (hset : ∀ x, Settled c x (s.host x)) (he : Effect c s a u)
    (x : Side) : c.keyword x ∈ (u.host x).outstanding ↔
      c.keyword x ∈ (s.host x).outstanding ∨ sends x s a ≠ 0 := by
  rcases he.host hset x with ⟨sent, hd⟩ | ⟨hcall, hk⟩
  · have hechoes : ¬ echoes c x s a ≠ 0 := fun h => by
      have hother := hd.caller.symm.trans (caller_of_echoes h)
      exact TwoNodes.Side.other_ne x (Option.some.inj hother).symm
    rw [hd.outstanding x, or_iff_left hechoes]
  · rw [hk.outstanding, or_iff_left fun h => hcall (caller_of_sends h)]

theorem Effect.echo_noted (hset : ∀ x, Settled c x (s.host x)) (he : Effect c s a u)
    (x : Side) : c.keyword x ∈ (u.host x.other).outstanding ↔
      c.keyword x ∈ (s.host x.other).outstanding ∨ echoes c x s a ≠ 0 := by
  rcases he.host hset x.other with ⟨sent, hd⟩ | ⟨hcall, hk⟩
  · have hsends : ¬ sends x s a ≠ 0 := fun h => by
      have hown := hd.caller.symm.trans (caller_of_sends h)
      exact TwoNodes.Side.other_ne x (Option.some.inj hown)
    rw [hd.outstanding x, or_iff_right hsends]
  · rw [hk.outstanding, or_iff_left fun h => hcall (caller_of_echoes h)]

theorem Effect.resends_eq_zero (he : Effect c s a u)
    (hout : ∀ y, c.keyword x ∉ (s.host y).outstanding) : resends c x s a = 0 := by
  cases he with
  | does hd =>
      next y h' sent =>
      cases hd with
      | update hq hsrc hup hsent hnext => rw [resends_poll hsent, if_neg (hout y)]
      | pass hup hsent hnext =>
          rw [resends, hsent]
          rfl
      | _ => rfl
  | _ => rfl

theorem Effect.resends_eq_updates (he : Effect c s a u)
    (hout : ∀ y, c.keyword x ∈ (s.host y).outstanding) :
    resends c x s a = updates s a := by
  cases he with
  | does hd =>
      next y h' sent =>
      cases hd with
      | update hq hsrc hup hsent hnext =>
          rw [resends_poll hsent, if_pos (hout y)]
          exact (if_pos hup).symm
      | pass hup hsent hnext =>
          rw [resends, hsent]
          exact (if_neg (Bool.eq_false_iff.mp hup)).symm
      | _ => rfl
  | _ => rfl

/-! ## The invariant -/

/-- Both connected; and where an application is at its receive and may send, it
has not yet sent. -/
structure Inv (c : Config) (s : State) : Prop where
  settled : ∀ x, Settled c x (s.host x)
  fresh : ∀ x, (s.host x).pc = .print → (s.host x).received = true →
    copies c x s = 0 ∧ ∀ y, c.keyword x ∉ (s.host y).outstanding

theorem Initial.inv (h : Initial c s) : Inv c s :=
  ⟨h.settled, fun x _ _ => ⟨h.copies x, h.outstanding x⟩⟩

theorem copies_ne_zero (hany : (s.host y).queue.head?.any (c.beat x)) :
    copies c x s ≠ 0 := by
  obtain ⟨p, hp, hbeat⟩ := (Option.any_eq_true _ _).mp hany
  have hqueue : 0 < (s.host y).queue.countP (c.beat x) :=
    List.countP_pos_iff.mpr ⟨p, List.mem_of_mem_head? hp, hbeat⟩
  rw [copies]
  cases y with
  | a => omega
  | b => omega

theorem echoes_eq_zero (h : copies c x s = 0) : echoes c x s a = 0 := by
  by_contra hechoes
  cases a with
  | printReceivedData y => exact copies_ne_zero (echoes_ne_zero.mp hechoes).2 h
  | _ => exact hechoes rfl

/-- Only a call of `SendMessage` brings the loop back to its receive. -/
theorem Effect.still (hset : ∀ x, Settled c x (s.host x)) (he : Effect c s a u)
    (hpc : (u.host x).pc = .print) (hr : (u.host x).received = true) :
    (s.host x).pc = .print ∧ (s.host x).received = true ∧ sends x s a = 0 := by
  rcases he.host hset x with ⟨sent, hd⟩ | ⟨hcall, hk⟩
  · generalize u.host x = h' at hd hpc hr
    cases hd with
    | idle hhead hnext => cases hnext.pc.symm.trans hpc
    | echo hq hsrc hne hnext => cases hnext.pc.symm.trans hpc
    | bury hpc' hq hsrc htext hnext => cases hnext.pc.symm.trans hpc
    | start hr' hnext => cases hnext.received.symm.trans hr
    | wait hr' hnext => cases hnext.received.symm.trans hr
    | update hq hsrc hup hsent hnext =>
        exact ⟨hnext.pc ▸ hpc, hnext.received ▸ hr, rfl⟩
    | pass hup hsent hnext => exact ⟨hnext.pc ▸ hpc, hnext.received ▸ hr, rfl⟩
  · refine ⟨hk.pc ▸ hpc, hk.received ▸ hr, ?_⟩
    by_contra hsends
    exact hcall (caller_of_sends hsends)

theorem Inv.step (hi : Inv c s) (he : Expected c s a)
    (hs : MovingHeartbeats.step c s a = some u) : Inv c u := by
  have heffect := effect hi.settled he hs
  refine ⟨heffect.settled hi.settled, fun x hpc hr => ?_⟩
  obtain ⟨hpc', hr', hsends⟩ := heffect.still hi.settled hpc hr
  obtain ⟨hcopies, hout⟩ := hi.fresh x hpc' hr'
  have hresends := heffect.resends_eq_zero hout
  have hechoes : echoes c x s a = 0 := echoes_eq_zero hcopies
  have hwire := heffect.wire hi.settled x
  refine ⟨by omega, fun y => ?_⟩
  rcases x.eq_or_eq_other y with rfl | rfl
  · rw [heffect.sent_noted hi.settled, not_or]
    exact ⟨hout y, not_not.mpr hsends⟩
  · rw [heffect.echo_noted hi.settled, not_or]
    exact ⟨hout _, not_not.mpr hechoes⟩

theorem allowance_of_received (hr : h.received = true) :
    allowance h.device.app = 0 :=
  if_pos hr

theorem allowance_of_not_received (hr : h.received = false) :
    allowance h.device.app = 1 :=
  if_neg (Bool.eq_false_iff.mp hr)

theorem Inv.awaited (hi : Inv c s) (he : Expected c s a)
    (hs : MovingHeartbeats.step c s a = some u) (x : Side) :
    allowance (u.host x).device.app + buries c x s a =
      allowance (s.host x).device.app + sends x s a := by
  rcases (effect hi.settled he hs).host hi.settled x with ⟨sent, hd⟩ | ⟨hcall, hk⟩
  · have hflag {h' : Host} (hr : h'.received = (s.host x).received) :
        allowance h'.device.app = allowance (s.host x).device.app := by
      rw [allowance, allowance]
      exact congrArg (fun b : Bool => if b then 0 else 1) hr
    generalize u.host x = h' at hd
    cases hd with
    | idle hhead hnext =>
        have hburies : ¬ buries c x s (.printReceivedData x) ≠ 0 := by
          rw [buries_ne_zero, any_head_eq_false hhead]
          exact fun h => Bool.false_ne_true h.2
        rw [hflag hnext.received, not_not.mp hburies]
        rfl
    | echo hq hsrc hne hnext =>
        have hburies : ¬ buries c x s (.printReceivedData x) ≠ 0 := by
          rw [buries_ne_zero, any_head_iff hq hsrc]
          exact fun h => hne h.2
        rw [hflag hnext.received, not_not.mp hburies]
        rfl
    | bury hpc hq hsrc htext hnext =>
        have hany := (any_head_iff hq hsrc).mpr htext
        have hwaits : (s.host x).received = false := by
          by_contra hr
          exact copies_ne_zero hany (hi.fresh x hpc (Bool.not_eq_false _ ▸ hr)).1
        rw [allowance_of_received hnext.received, allowance_of_not_received hwaits]
        exact congrArg (0 + ·) (if_pos ⟨rfl, hany⟩)
    | start hr hnext =>
        rw [allowance_of_not_received hnext.received, allowance_of_received hr, sends,
          if_pos ⟨rfl, hr⟩]
        rfl
    | wait hr hnext =>
        rw [allowance_of_not_received hnext.received, allowance_of_not_received hr]
        have hsends : ¬ sends x s (.sendMessage x) ≠ 0 := by
          rw [sends_ne_zero, hr]
          exact fun h => Bool.false_ne_true h.2
        rw [not_not.mp hsends]
        rfl
    | update hq hsrc hup hsent hnext =>
        rw [hflag hnext.received]
        rfl
    | pass hup hsent hnext =>
        rw [hflag hnext.received]
        rfl
  · have hsends : sends x s a = 0 := by
      by_contra h
      exact hcall (caller_of_sends h)
    have hburies : buries c x s a = 0 := by
      by_contra h
      exact hcall (caller_of_buries h)
    rw [hk.app, hsends, hburies]

/-! ## A run -/

theorem inv_run (hi : Inv c s) (hrun : Run (step c) (Expected c) s acts t) : Inv c t :=
  hrun.invariant hi fun _ _ _ ht he hs => ht.step he hs

/-- The two ledgers of a keyword together: what is under way or lost has been let
out and not come back, or has been resent. -/
theorem ledger (hi : Inv c s) (hrun : Run (step c) (Expected c) s acts t) (x : Side) :
    copies c x t + tally (step c) (loses c x) s acts +
        allowance (s.host x).device.app =
      copies c x s + tally (step c) (resends c x) s acts +
        allowance (t.host x).device.app := by
  have hwire := hrun.balance (copies c x) (fun s a => loses c x s a + buries c x s a)
    (fun s a => sends x s a + resends c x s a) hi (fun _ _ _ ht he hs => ht.step he hs)
    fun _ _ _ ht he hs => (effect ht.settled he hs).wire ht.settled x
  have hawaited := hrun.balance (fun s => allowance (s.host x).device.app)
    (buries c x) (sends x) hi (fun _ _ _ ht he hs => ht.step he hs)
    fun _ _ _ ht he hs => ht.awaited he hs x
  rw [tally_add, tally_add] at hwire
  omega

theorem outstanding_run (hi : Inv c s) (hrun : Run (step c) (Expected c) s acts t)
    (x : Side) :
    (c.keyword x ∈ (t.host x).outstanding ↔ c.keyword x ∈ (s.host x).outstanding ∨
      tally (step c) (sends x) s acts ≠ 0) ∧
    (c.keyword x ∈ (t.host x.other).outstanding ↔
      c.keyword x ∈ (s.host x.other).outstanding ∨
        tally (step c) (echoes c x) s acts ≠ 0) :=
  ⟨hrun.latch (fun t => c.keyword x ∈ (t.host x).outstanding) (sends x) hi
      (fun _ _ _ ht he hs => ht.step he hs)
      fun _ _ _ ht he hs => (effect ht.settled he hs).sent_noted ht.settled x,
    hrun.latch (fun t => c.keyword x ∈ (t.host x.other).outstanding) (echoes c x) hi
      (fun _ _ _ ht he hs => ht.step he hs)
      fun _ _ _ ht he hs => (effect ht.settled he hs).echo_noted ht.settled x⟩

/-- Both daemons have the keyword in their buffers. -/
structure Buffered (c : Config) (x : Side) (s : State) : Prop where
  inv : Inv c s
  outstanding : ∀ y, c.keyword x ∈ (s.host y).outstanding

theorem Buffered.step (hb : Buffered c x s) (he : Expected c s a)
    (hs : MovingHeartbeats.step c s a = some u) : Buffered c x u := by
  have heffect := effect hb.inv.settled he hs
  refine ⟨hb.inv.step he hs, fun y => ?_⟩
  rcases x.eq_or_eq_other y with rfl | rfl
  · exact (heffect.sent_noted hb.inv.settled _).mpr (Or.inl (hb.outstanding _))
  · exact (heffect.echo_noted hb.inv.settled _).mpr (Or.inl (hb.outstanding _))

/-- The copies of a keyword that are under way or lost are those the daemons have
resent, and one more if its owner waits for it. Once the owner has sent it and the
other has echoed it, every update that either daemon takes adds one, and from then
on the number changes by the updates and the losses and by nothing else. -/
theorem updates_add_heartbeats (h : Initial c s)
    (hrun : Run (step c) (Expected c) s acts t) (x : Side) :
    copies c x t + tally (step c) (loses c x) s acts =
      tally (step c) (resends c x) s acts + (if (t.host x).received then 0 else 1) ∧
    (tally (step c) (sends x) s acts ≠ 0 → tally (step c) (echoes c x) s acts ≠ 0 →
      ∀ more v, Run (step c) (Expected c) t more v →
        copies c x v + tally (step c) (loses c x) t more +
            (if (t.host x).received then 0 else 1) =
          copies c x t + tally (step c) updates t more +
            (if (v.host x).received then 0 else 1)) := by
  have hi := inv_run h.inv hrun
  refine ⟨?_, fun hsent hechoed more v hmore => ?_⟩
  · have hledger := ledger h.inv hrun x
    rw [h.copies x, allowance_of_received (h.received x), Nat.zero_add] at hledger
    exact hledger
  · obtain ⟨hown, hother⟩ := outstanding_run h.inv hrun x
    have hbuffered : Buffered c x t := by
      refine ⟨hi, fun y => ?_⟩
      rcases x.eq_or_eq_other y with rfl | rfl
      · exact hown.mpr (Or.inr hsent)
      · exact hother.mpr (Or.inr hechoed)
    have hupdates : tally (step c) (resends c x) t more =
        tally (step c) updates t more :=
      hmore.tally_congr hbuffered (fun _ _ _ hb he hs => hb.step he hs)
        fun _ _ _ hb he hs =>
          (effect hb.inv.settled he hs).resends_eq_updates hb.outstanding
    rw [← hupdates]
    exact ledger hi hmore x

instance (c : Config) (s : State) (a : Action) : Decidable (Assumed c s a) := by
  cases a <;> unfold Assumed <;> infer_instance

instance (c : Config) (s : State) (a : Action) : Decidable (Logs c s a) := by
  cases a <;> unfold Logs <;> infer_instance

instance (c : Config) (s : State) (a : Action) : Decidable (Expected c s a) :=
  inferInstanceAs (Decidable (_ ∧ _))

/-- A says `tick` and B says `tock`. -/
def Config.sample : Config where
  keyword
    | .a => ascii "tick"
    | .b => ascii "tock"
  ptr _ := 0
  rendezvousServer := ascii "1.2.3.4"
  keyword_ne := by decide
  keyword_ne_nil x h := by
    cases x <;> exact absurd (congrArg List.length h) (by decide)
  nulFree := by decide
  short := by decide

/-- A at 7.0.0.1 and B at 8.0.0.1, connected. -/
def State.sample : State where
  host
    | .a => ⟨⟨({ EchoApp.sample with keyword := ascii "tick" }.registerPeer
        (ascii "1.2.3.4") (intToIPString 0x01000008)).fillPeerContainer, ⟨[], none⟩⟩,
        ⟨netV4, htons 9, 0x01000007⟩, .print⟩
    | .b => ⟨⟨({ EchoApp.sample with keyword := ascii "tock" }.registerPeer
        (ascii "1.2.3.4") (intToIPString 0x01000007)).fillPeerContainer, ⟨[], none⟩⟩,
        ⟨netV4, htons 9, 0x01000008⟩, .print⟩
  transit := []

theorem initial_sample : Initial .sample .sample where
  settled := by
    intro x
    cases x <;> exact ⟨by decide, by decide, by decide, by decide, by decide +kernel,
      by decide, by decide +kernel, by decide +kernel⟩
  received := by decide
  copies := by decide
  outstanding := by decide +kernel

/-- A's keyword is on its way back when A hears that B has moved. -/
theorem updates_add_heartbeats_example : ∃ t v,
    exec (step .sample) (Expected .sample) .sample
      [.printReceivedData .a, .sendMessage .a, .arrive .b 0,
        .printReceivedData .b] = some t ∧
    exec (step .sample) (Expected .sample) t
      [.outside .a ⟨⟨netV4, 5, 0x04030201⟩, ascii "9.0.0.1"⟩,
        .poll .a (fun _ => 16) .zero] = some v ∧
    copies .sample .a v = 2 := by
  have hcounts : tally (step .sample) (sends .a) .sample
        [.printReceivedData .a, .sendMessage .a, .arrive .b 0,
          .printReceivedData .b] ≠ 0 ∧
      tally (step .sample) (echoes .sample .a) .sample
        [.printReceivedData .a, .sendMessage .a, .arrive .b 0,
          .printReceivedData .b] ≠ 0 := by
    decide +kernel
  have hend : ∀ t ∈ exec (step .sample) (Expected .sample) .sample
      [.printReceivedData .a, .sendMessage .a, .arrive .b 0, .printReceivedData .b],
      copies .sample .a t = 1 ∧ (t.host .a).received = false ∧
      tally (step .sample) (loses .sample .a) t
        [.outside .a ⟨⟨netV4, 5, 0x04030201⟩, ascii "9.0.0.1"⟩,
          .poll .a (fun _ => 16) .zero] = 0 ∧
      tally (step .sample) updates t
        [.outside .a ⟨⟨netV4, 5, 0x04030201⟩, ascii "9.0.0.1"⟩,
          .poll .a (fun _ => 16) .zero] = 1 ∧
      (∀ v ∈ exec (step .sample) (Expected .sample) t
        [.outside .a ⟨⟨netV4, 5, 0x04030201⟩, ascii "9.0.0.1"⟩,
          .poll .a (fun _ => 16) .zero], (v.host .a).received = false) ∧
      (exec (step .sample) (Expected .sample) t
        [.outside .a ⟨⟨netV4, 5, 0x04030201⟩, ascii "9.0.0.1"⟩,
          .poll .a (fun _ => 16) .zero]).isSome := by
    decide +kernel
  obtain ⟨t, ht, hrun, hone, hwaits, hlost, hupdate, hlater, hsome⟩ :=
    Run.exists_of_exec hend (by decide +kernel)
  obtain ⟨v, hv, hmore, hwaits'⟩ := Run.exists_of_exec hlater hsome
  have hgrows := (updates_add_heartbeats initial_sample hrun .a).2 hcounts.1 hcounts.2
    _ v hmore
  rw [hone, hwaits, hlost, hupdate, hwaits'] at hgrows
  exact ⟨t, v, ht, hv, Nat.add_right_cancel hgrows⟩

end MovingHeartbeats

end PermanentIP

import PermanentIP.Proofs.EchoCalls
import PermanentIP.Proofs.ClientLog
import PermanentIP.Proofs.AddressCodec
import PermanentIP.Lib.Run

/-!
# A device: an application, its daemon, and the socket they share

One device at the grain of whole calls. Datagrams arrive on the app socket, the
daemon's loop comes by, the application receives and sends. Whatever the order,
the application leaves the rendezvous server's datagrams to the daemon, so the
daemon takes exactly those, in the order they came, and the peer is where the
last of them says (`AtLastUpdate`); as long as there was none it is where
`RegisterPeer` put it.
-/

namespace PermanentIP

open Lib SimpleMobileNode

structure Device where
  app : EchoApp
  socket : Socket

namespace Device

inductive Action where
  | arrive (p : Packet)
  /-- the round on the app socket, with the locals as it finds them -/
  | poll (serverSize : Int → Int32) (server : SockAddr)
  | printReceivedData
  | sendMessage (message : NetworkMsg)

def poll (d : Device) (ptr : Ptr) (serverSize : Int → Int32)
    (server : SockAddr) : PollState :=
  pollSocket serverSize
    { node := d.app.mobileNode
      sockets := fun _ => d.socket
      server := server
      sent := []
      shutDown := false } d.app.appSocket ptr

def step (ptr : Ptr) (d : Device) : Action → Option Device
  | .arrive p =>
      some { d with socket := { d.socket with queue := d.socket.queue ++ [p] } }
  | .poll serverSize server =>
      let st := d.poll ptr serverSize server
      some { app := { d.app with mobileNode := st.node }
             socket := st.sockets d.app.appSocket }
  | .printReceivedData =>
      let r := d.app.printReceivedData d.socket
      some { app := r.app, socket := r.socket }
  | .sendMessage message =>
      some { d with app := (d.app.sendMessage message none).2.2 }

def Action.arrival? : Action → Option Packet
  | .arrive p => some p
  | .poll .. | .printReceivedData | .sendMessage _ => none

def fromServer (rendezvousServer : PhysicalAddress) (p : Packet) : Bool :=
  p.src.sinAddr = (ipStringToInt rendezvousServer).toUInt32

/-- A poll that finds somebody else's datagram at the head has room for its
source address. -/
def FillsAddress (d : Device) : Action → Prop
  | .poll serverSize _ => ∀ p ∈ d.socket.queue.head?,
      fromServer d.app.rendezvousServer p = false →
        8 ≤ (serverSize d.app.appSocket).toInt
  | .arrive _ | .printReceivedData | .sendMessage _ => True

instance (d : Device) (a : Action) : Decidable (FillsAddress d a) := by
  cases a <;> unfold FillsAddress <;> infer_instance

/-- The call can write the lines it has to. -/
def Logs (ptr : Ptr) (d : Device) : Action → Prop
  | .poll serverSize server =>
      LogsRound serverSize ⟨d.app.mobileNode, fun _ => d.socket, server, [], false⟩
        d.app.appSocket ptr
  | .printReceivedData => d.app.LogsPrint d.socket
  | .sendMessage message => d.app.LogsSend message
  | .arrive _ => True

instance (ptr : Ptr) (d : Device) (a : Action) : Decidable (Logs ptr d a) := by
  cases a <;> unfold Logs <;> infer_instance

def location (update : Packet) : UInt32 := (ipStringToInt update.text).toUInt32

/-- The daemon has taken the front of what the rendezvous server sent, the rest
is queued, and the peer is where the last one taken says, or at `b` if none
was. -/
structure AtLastUpdate (rs : PhysicalAddress) (ptr : Ptr) (b : UInt32)
    (arrived : List Packet) (d : Device) : Prop where
  peerInfo : d.app.peerInfo = some ptr
  appServer : d.app.rendezvousServer = rs
  nodeServer : d.app.mobileNode.rendezvousServer = rs
  valid : ptr < d.app.mobileNode.heap.length
  taken : ∃ taken, arrived.filter (fromServer rs) =
      taken ++ d.socket.queue.filter (fromServer rs) ∧
    (d.app.mobileNode.deref ptr).sinAddr = (taken.map location).getLastD b

variable {rs : PhysicalAddress} {ptr : Ptr} {b : UInt32} {arrived : List Packet}
  {d u : Device} {acts : List Action}

theorem AtLastUpdate.arrive (h : AtLastUpdate rs ptr b arrived d) (p : Packet) :
    AtLastUpdate rs ptr b (arrived ++ [p])
      { d with socket := { d.socket with queue := d.socket.queue ++ [p] } } := by
  obtain ⟨taken, harr, hdst⟩ := h.taken
  refine ⟨h.peerInfo, h.appServer, h.nodeServer, h.valid, taken, ?_, hdst⟩
  rw [List.filter_append, harr, List.filter_append, List.append_assoc]

theorem AtLastUpdate.keep (h : AtLastUpdate rs ptr b arrived d)
    (hkeep : EchoApp.Keeps d.app u.app)
    (hq : u.socket.queue.filter (fromServer rs) =
      d.socket.queue.filter (fromServer rs)) :
    AtLastUpdate rs ptr b arrived u := by
  obtain ⟨taken, harr, hdst⟩ := h.taken
  refine ⟨hkeep.peerInfo.trans h.peerInfo, hkeep.appServer.trans h.appServer,
    hkeep.nodeServer.trans h.nodeServer, ?_, taken, ?_, ?_⟩
  · rw [hkeep.heap]
    exact h.valid
  · rw [harr, hq]
  · rw [← hdst, deref, deref, hkeep.heap]

theorem fromServer_of_isUpdate {serverSize : Int → Int32} {server : SockAddr}
    (hfill : FillsAddress d (.poll serverSize server))
    (hsame : d.app.mobileNode.rendezvousServer = d.app.rendezvousServer)
    {p : Packet} {rest : List Packet} (hsock : d.socket = ⟨p :: rest, none⟩)
    (hup : d.app.mobileNode.isUpdate
      (recvfrom d.socket true bufferSize server (serverSize d.app.appSocket))) :
    fromServer d.app.rendezvousServer p := by
  by_contra hsrc
  rw [Bool.not_eq_true] at hsrc
  have hlen := hfill p (by rw [hsock]; rfl) hsrc
  rw [hsock, recvfrom_cons _ _ _ _ _ hlen] at hup
  simp only [isUpdate, serverAddr, hsame, Bool.and_eq_true, beq_iff_eq] at hup
  rw [fromServer, decide_eq_false_iff_not] at hsrc
  exact hsrc hup.2

theorem AtLastUpdate.poll (h : AtLastUpdate rs ptr b arrived d)
    {serverSize : Int → Int32} {server : SockAddr}
    (hfill : FillsAddress d (.poll serverSize server)) :
    AtLastUpdate rs ptr b arrived
      { app := { d.app with mobileNode := (d.poll ptr serverSize server).node }
        socket := (d.poll ptr serverSize server).sockets d.app.appSocket } := by
  by_cases hup : d.app.mobileNode.isUpdate
      (recvfrom d.socket true bufferSize server (serverSize d.app.appSocket))
  · obtain ⟨p, rest, hsock, _, heq⟩ := pollSocket_of_isUpdate
      ⟨d.app.mobileNode, fun _ => d.socket, server, [], false⟩ ptr hup
    change d.socket = ⟨p :: rest, none⟩ at hsock
    have hsrc := fromServer_of_isUpdate hfill
      (h.nodeServer.trans h.appServer.symm) hsock hup
    rw [h.appServer] at hsrc
    obtain ⟨taken, harr, hdst⟩ := h.taken
    rw [Device.poll, heq]
    refine ⟨h.peerInfo, h.appServer, h.nodeServer, ?_, taken ++ [p], ?_, ?_⟩
    · show ptr < (d.app.mobileNode.setSinAddr ptr _).heap.length
      rw [length_heap_setSinAddr]
      exact h.valid
    · simp only [Function.update_self]
      rw [harr, hsock, List.filter_cons_of_pos hsrc, List.append_assoc,
        List.singleton_append]
    · show ((d.app.mobileNode.setSinAddr ptr _).deref ptr).sinAddr = _
      rw [deref_setSinAddr_self h.valid, List.map_append]
      simp [location]
  · have heq := pollSocket_of_not_isUpdate
      ⟨d.app.mobileNode, fun _ => d.socket, server, [], false⟩ ptr hup
    rw [Device.poll, heq]
    refine h.keep ⟨rfl, rfl, rfl, rfl⟩ ?_
    simp only [Function.update_self, PollState.peek, queue_recvfrom_peek]

theorem AtLastUpdate.print (h : AtLastUpdate rs ptr b arrived d) :
    AtLastUpdate rs ptr b arrived
      { app := (d.app.printReceivedData d.socket).app
        socket := (d.app.printReceivedData d.socket).socket } := by
  by_cases hreq : d.app.isRequest (EchoApp.peek d.socket)
  · obtain ⟨p, rest, hsock, hsrc, heq⟩ :=
      EchoApp.printReceivedData_of_isRequest hreq
    rw [heq]
    refine h.keep EchoApp.keeps_handleMessage ?_
    rw [h.appServer] at hsrc
    rw [hsock, List.filter_cons_of_neg (by simpa [fromServer] using hsrc)]
  · obtain ⟨happ, _, hq⟩ := EchoApp.printReceivedData_of_not_isRequest hreq
    refine h.keep ?_ ?_
    · rw [happ]
      exact ⟨rfl, rfl, rfl, rfl⟩
    · rw [hq]

theorem atLastUpdate_run (h : AtLastUpdate rs ptr b [] d)
    (hrun : Run (step ptr) FillsAddress d acts u) :
    AtLastUpdate rs ptr b (acts.filterMap Action.arrival?) u := by
  induction hrun with
  | nil => exact h
  | snoc _ hfill hs ih =>
      next acts t u a _ =>
      rw [List.filterMap_append]
      cases a with
      | arrive p =>
          injection hs with hs
          rw [← hs]
          exact ih.arrive p
      | poll serverSize server =>
          injection hs with hs
          rw [← hs, List.filterMap_cons_none rfl, List.filterMap_nil,
            List.append_nil]
          exact ih.poll hfill
      | printReceivedData =>
          injection hs with hs
          rw [← hs, List.filterMap_cons_none rfl, List.filterMap_nil,
            List.append_nil]
          exact ih.print
      | sendMessage message =>
          injection hs with hs
          rw [← hs, List.filterMap_cons_none rfl, List.filterMap_nil,
            List.append_nil]
          exact ih.keep EchoApp.keeps_sendMessage rfl

/-- A connected application's peer is where the reply said. -/
theorem atLastUpdate_connected {app : EchoApp} {rsAddr : PhysicalAddress}
    (hsame : app.mobileNode.rendezvousServer = app.rendezvousServer)
    (hrs : rsAddr ≠ []) (b : UInt32) {socket : Socket} (hq : socket.queue = []) :
    AtLastUpdate app.rendezvousServer app.mobileNode.heap.length b []
      ⟨(app.registerPeer rsAddr (intToIPString b.toInt32)).fillPeerContainer,
        socket⟩ := by
  have hptr : app.mobileNode.heap.length <
      (app.mobileNode.heap ++ [{ SockAddr.zero with
        sinAddr := (ipStringToInt (intToIPString b.toInt32)).toUInt32 }]).length := by
    rw [List.length_append, List.length_singleton]
    exact Nat.lt_succ_self _
  rw [EchoApp.registerPeer, SimpleMobileNode.registerPeer, if_neg hrs,
    if_neg (intToIPString_ne_nil _)]
  refine ⟨rfl, rfl, hsame, ?_, [], ?_, ?_⟩
  · show _ < (List.set _ _ _).length
    rwa [List.length_set]
  · rw [hq]
    rfl
  · show ((List.set _ _ _).getD _ SockAddr.zero).sinAddr = b
    rw [List.getD_eq_getElem?_getD, List.getElem?_set_self hptr]
    show (List.getD _ _ SockAddr.zero).sinAddr = b
    rw [List.getD_eq_getElem?_getD, List.getElem?_append_right (Nat.le_refl _),
      Nat.sub_self]
    show (ipStringToInt (intToIPString b.toInt32)).toUInt32 = b
    rw [ipStringToInt_intToIPString]
    rfl

theorem getElem?_cons_getLastD {b : UInt32} {l sources : List UInt32}
    (h : l <+: sources) : (b :: sources)[l.length]? = some (l.getLastD b) := by
  obtain ⟨rest, rfl⟩ := h
  induction l generalizing b with
  | nil => rfl
  | cons c l ih =>
      rw [List.length_cons, List.cons_append, List.getElem?_cons_succ, ih,
        List.getLastD_cons]

/-- The address `SendMessage` sends to, by how many updates were taken. -/
theorem AtLastUpdate.destination (h : AtLastUpdate rs ptr b arrived d)
    {sources : List UInt32}
    (hfifo : (arrived.filter (fromServer rs)).map location <+: sources) {k : Nat}
    (hk : k + (d.socket.queue.filter (fromServer rs)).length =
      (arrived.filter (fromServer rs)).length) :
    (d.app.destination none).map SockAddr.sinAddr = (b :: sources)[k]? := by
  obtain ⟨taken, harr, hdst⟩ := h.taken
  rw [harr, List.length_append] at hk
  have hlen : (taken.map location).length = k := by
    rw [List.length_map]
    omega
  rw [harr, List.map_append] at hfifo
  rw [EchoApp.destination, h.peerInfo, ← hlen,
    getElem?_cons_getLastD ((List.prefix_append _ _).trans hfifo), ← hdst]
  rfl

end Device

end PermanentIP

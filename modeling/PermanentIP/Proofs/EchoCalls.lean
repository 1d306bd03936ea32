import PermanentIP.Applications.EchoApp
import PermanentIP.Proofs.NodeCalls

/-!
# What the application's calls do

`PrintReceivedData` either takes one datagram that is not the rendezvous
server's and handles it, or leaves the application and the queue as they were.
No call of the application moves the peer: the memory behind `peer_info_` is
written by the daemon alone, once `ConnectToPeer` is through. What it sends is one
message with its NUL, and what it leaves outstanding is that message and what was.
-/

namespace PermanentIP

open Lib SimpleMobileNode

namespace EchoApp

/-- Nothing that decides where the peer is has changed. -/
structure Keeps (app app' : EchoApp) : Prop where
  peerInfo : app'.peerInfo = app.peerInfo
  heap : app'.mobileNode.heap = app.mobileNode.heap
  nodeServer : app'.mobileNode.rendezvousServer = app.mobileNode.rendezvousServer
  appServer : app'.rendezvousServer = app.rendezvousServer

variable {app app' app'' : EchoApp} {m : NetworkMsg} {src : SockAddr}
  {peerInfo : Option SockAddr}

theorem Keeps.trans (h : Keeps app app') (h' : Keeps app' app'') :
    Keeps app app'' :=
  ⟨h'.peerInfo.trans h.peerInfo, h'.heap.trans h.heap, h'.nodeServer.trans h.nodeServer,
    h'.appServer.trans h.appServer⟩

theorem keeps_transmit {sent : List Sent}
    (h : app.transmit m peerInfo = some (sent, app')) : Keeps app app' := by
  rw [transmit] at h
  split at h
  · cases h
  · simp only [Option.some.injEq, Prod.mk.injEq] at h
    rw [← h.2]
    exact ⟨rfl, rfl, rfl, rfl⟩

theorem keeps_sendMessage : Keeps app (app.sendMessage m peerInfo).2.2 := by
  rw [sendMessage]
  split
  · exact ⟨rfl, rfl, rfl, rfl⟩
  · next sent app' h =>
      exact (keeps_transmit h).trans ⟨rfl, rfl, rfl, rfl⟩

theorem keeps_handleMessage : Keeps app (app.handleMessage m src).2 := by
  have hreceived : Keeps app (app.messageReceived m) := ⟨rfl, rfl, rfl, rfl⟩
  rw [handleMessage]
  simp only []
  split
  · have hecho : Keeps (app.messageReceived m)
        ((app.messageReceived m).sendMessage m (some src)).2.2 :=
      keeps_sendMessage
    exact (hreceived.trans hecho).trans ⟨rfl, rfl, rfl, rfl⟩
  · exact hreceived.trans ⟨rfl, rfl, rfl, rfl⟩

@[simp] theorem received_messageSent :
    (app.messageSent m).received = app.received := rfl

@[simp] theorem received_messageReceived :
    (app.messageReceived m).received = app.received := rfl

/-- What handling a message can change: the heartbeat's flag, and the daemon's
buffer. -/
theorem handleMessage_eq (app : EchoApp) (m : NetworkMsg) (src : SockAddr) :
    ∃ received messages, (app.handleMessage m src).2 =
      { app with
        received := received
        mobileNode := { app.mobileNode with appSocketMessages := messages } } := by
  rw [handleMessage]
  simp only []
  split
  · rw [sendMessage]
    split
    · exact ⟨_, _, rfl⟩
    · next sent app' h =>
        rw [transmit] at h
        split at h
        · cases h
        · simp only [Option.some.injEq, Prod.mk.injEq] at h
          rw [← h.2]
          exact ⟨_, _, rfl⟩
  · exact ⟨_, _, rfl⟩

theorem handleMessage_of_ne (hm : m ≠ app.keyword) (hfd : 0 ≤ app.appSocket) :
    app.handleMessage m src = ([⟨app.appSocket, src, m ++ [0]⟩],
      ((app.messageReceived m).messageSent m).messageReceived m) := by
  have hnot : ¬ app.appSocket < 0 := Int.not_lt.mpr hfd
  have hkey : m ≠ (app.messageReceived m).keyword := hm
  have htransmit : (app.messageReceived m).transmit m (some src) =
      some ([⟨app.appSocket, src, m ++ [0]⟩], app.messageReceived m) := by
    rw [transmit, if_neg (fun h => hkey h.1)]
    simp only [destination, sendto, if_neg hkey]
    rw [if_neg (show ¬ (app.messageReceived m).appSocket < 0 from hnot)]
    rfl
  rw [handleMessage]
  simp only []
  rw [if_pos hkey, sendMessage, htransmit]

theorem handleMessage_keyword (h : m = app.keyword) :
    app.handleMessage m src =
      ([], { app.messageReceived m with received := true }) := by
  rw [handleMessage]
  simp only []
  exact if_neg fun hne => hne h

/-- With two answers the application has a fresh pointer to the peer's
location; without them it has none. -/
theorem registerPeer_cases (app : EchoApp) (rsAddr peerLoc : PhysicalAddress) :
    (rsAddr ≠ [] ∧ peerLoc ≠ [] ∧ app.registerPeer rsAddr peerLoc =
      { app with
        peerInfo := some app.mobileNode.heap.length
        mobileNode := { app.mobileNode with
          heap := app.mobileNode.heap ++
            [{ SockAddr.zero with sinAddr := (ipStringToInt peerLoc).toUInt32 }]
          appSockets :=
            app.mobileNode.appSockets.insert app.appSocket
              app.mobileNode.heap.length } }) ∨
    ((rsAddr = [] ∨ peerLoc = []) ∧
      app.registerPeer rsAddr peerLoc = { app with peerInfo := none }) := by
  rcases app.mobileNode.registerPeer_cases app.appSocket rsAddr peerLoc with
    ⟨hrs, hloc, heq⟩ | ⟨hnil, heq⟩
  · exact Or.inl ⟨hrs, hloc, by rw [registerPeer, heq]⟩
  · exact Or.inr ⟨hnil, by rw [registerPeer, heq]⟩

def peek (socket : Socket) : Received :=
  recvfrom socket true bufferSize .zero sizeofSockAddr

variable {socket : Socket}

/-- A call that sees somebody else's message takes that datagram and handles
it. -/
theorem printReceivedData_of_isRequest (h : app.isRequest (peek socket)) :
    ∃ p rest, socket = ⟨p :: rest, none⟩ ∧
      p.src.sinAddr ≠ (ipStringToInt app.rendezvousServer).toUInt32 ∧
      app.printReceivedData socket =
        { ok := true
          sent := (app.handleMessage p.text p.src).1
          app := (app.handleMessage p.text p.src).2
          socket := ⟨rest, none⟩ } := by
  have hread : 0 < (peek socket).bytesRead := by
    simp only [isRequest, Bool.and_eq_true, decide_eq_true_eq] at h
    exact h.1
  obtain ⟨p, rest, hs, _, _⟩ := recvfrom_pos hread
  have hpeek : recvfrom socket true bufferSize .zero sizeofSockAddr =
      { bytesRead := (p.payload.take bufferSize).length
        data := p.payload.take bufferSize
        errno := .again
        addr := p.src
        addrLen := sizeofSockAddr
        socket := ⟨p :: rest, none⟩ } := by
    rw [hs, recvfrom_cons _ _ _ _ _ le_sizeofSockAddr]
    simp only [if_true]
  rw [peek, hpeek] at h
  refine ⟨p, rest, hs, ?_, ?_⟩
  · simp only [isRequest, Bool.and_eq_true, bne_iff_ne] at h
    exact h.2
  · rw [printReceivedData, hpeek]
    simp only [h, if_true, recvfrom_cons _ _ _ _ _ le_sizeofSockAddr,
      store_store, cstr_store_zeroed, Bool.false_eq_true, if_false]
    rfl

/-- Any other call changes neither the application nor the queue. -/
theorem printReceivedData_of_not_isRequest
    (h : ¬ app.isRequest (peek socket)) :
    (app.printReceivedData socket).app = app ∧
      (app.printReceivedData socket).sent = [] ∧
      (app.printReceivedData socket).socket.queue = socket.queue := by
  rw [peek] at h
  rw [printReceivedData]
  simp only [h, if_false, Bool.false_eq_true, queue_recvfrom_peek, and_self]

theorem mem_queue_printReceivedData {p : Packet}
    (h : p ∈ (app.printReceivedData socket).socket.queue) : p ∈ socket.queue := by
  by_cases hreq : app.isRequest (peek socket)
  · obtain ⟨q, rest, hsock, _, heq⟩ := printReceivedData_of_isRequest hreq
    rw [heq] at h
    rw [hsock]
    exact List.mem_cons_of_mem q h
  · rwa [(printReceivedData_of_not_isRequest hreq).2.2] at h

/-! ### By what is at the head of the queue -/

variable {p : Packet} {rest : List Packet}

theorem peek_cons (p : Packet) (rest : List Packet) :
    peek ⟨p :: rest, none⟩ =
      { bytesRead := (p.payload.take bufferSize).length
        data := p.payload.take bufferSize
        errno := .again
        addr := p.src
        addrLen := sizeofSockAddr
        socket := ⟨p :: rest, none⟩ } := by
  rw [peek, recvfrom_cons _ _ _ _ _ le_sizeofSockAddr]
  simp only [if_true]

theorem isRequest_peek_cons :
    app.isRequest (peek ⟨p :: rest, none⟩) ↔ p.payload ≠ [] ∧
      p.src.sinAddr ≠ (ipStringToInt app.rendezvousServer).toUInt32 := by
  rw [peek_cons]
  simp only [isRequest, Bool.and_eq_true, decide_eq_true_eq, bne_iff_ne,
    length_take_pos]

theorem printReceivedData_request (hp : p.payload ≠ [])
    (hsrc : p.src.sinAddr ≠ (ipStringToInt app.rendezvousServer).toUInt32) :
    app.printReceivedData ⟨p :: rest, none⟩ =
      { ok := true
        sent := (app.handleMessage p.text p.src).1
        app := (app.handleMessage p.text p.src).2
        socket := ⟨rest, none⟩ } := by
  obtain ⟨p', rest', hs, _, heq⟩ :=
    printReceivedData_of_isRequest (isRequest_peek_cons.mpr ⟨hp, hsrc⟩)
  injection hs with hs _
  injection hs with hp' hrest
  rw [heq, ← hp', ← hrest]

theorem printReceivedData_ignored (h : p.payload = [] ∨
      p.src.sinAddr = (ipStringToInt app.rendezvousServer).toUInt32) :
    app.printReceivedData ⟨p :: rest, none⟩ =
      { ok := true, sent := [], app := app, socket := ⟨p :: rest, none⟩ } := by
  have hreq : ¬ app.isRequest (peek ⟨p :: rest, none⟩) := by
    rw [isRequest_peek_cons]
    rintro ⟨hp, hsrc⟩
    rcases h with h | h
    · exact hp h
    · exact hsrc h
  rw [peek_cons] at hreq
  have hpeek := peek_cons p rest
  rw [peek] at hpeek
  have hread : ¬ ((p.payload.take bufferSize).length : Int) < 0 := by omega
  simp only [printReceivedData, hpeek, hreq, if_false, Bool.false_eq_true,
    decide_eq_false hread, Bool.false_and, Bool.not_false]

theorem printReceivedData_nil (app : EchoApp) :
    app.printReceivedData ⟨[], none⟩ =
      { ok := true, sent := [], app := app, socket := ⟨[], none⟩ } := by
  rw [printReceivedData]
  simp [recvfrom, Received.failed, isRequest]

theorem printReceivedData_error (app : EchoApp) (queue : List Packet)
    (e : Errno) :
    app.printReceivedData ⟨queue, some e⟩ =
      { ok := !(e != .again), sent := [], app := app, socket := ⟨queue, none⟩ } := by
  have hreq (r : Received) (h : r.bytesRead = -1) : app.isRequest r = false := by
    rw [isRequest, h]
    rfl
  rw [printReceivedData]
  simp [recvfrom, Received.failed, hreq]

/-! ### What they send, and what they leave outstanding -/

variable {m' : NetworkMsg} {d : Sent} {fd : Int}

theorem sendMessage_cases (app : EchoApp) (m : NetworkMsg) (peerInfo : Option SockAddr) :
    (app.sendMessage m peerInfo).2 = ([], app) ∨
      ∃ received, (app.sendMessage m peerInfo).2 =
        (match app.destination peerInfo with
          | some addr => sendto app.appSocket (m ++ [0]) addr
          | none => [],
        { app with received := received }.messageSent m) := by
  rw [sendMessage]
  split
  · exact Or.inl rfl
  · next sent app' h =>
      rw [transmit] at h
      split at h
      · cases h
      · simp only [Option.some.injEq, Prod.mk.injEq] at h
        obtain ⟨rfl, rfl⟩ := h
        exact Or.inr ⟨if m = app.keyword then false else app.received, rfl⟩

theorem mem_sendMessage {peerInfo : Option SockAddr}
    (h : d ∈ (app.sendMessage m peerInfo).2.1) :
    app.destination peerInfo = some d.dst ∧ d.payload = m ++ [0] := by
  rcases sendMessage_cases app m peerInfo with heq | ⟨received, heq⟩
  · rw [heq] at h
    cases h
  · rw [heq] at h
    simp only [] at h
    split at h
    · next addr haddr =>
        rw [sendto] at h
        split at h
        · cases h
        · cases List.mem_singleton.mp h
          exact ⟨haddr, rfl⟩
    · cases h

theorem outstanding_sendMessage {peerInfo : Option SockAddr}
    (h : m' ∈ (app.sendMessage m peerInfo).2.2.mobileNode.outstanding fd) :
    m' = m ∨ m' ∈ app.mobileNode.outstanding fd := by
  rcases sendMessage_cases app m peerInfo with heq | ⟨received, heq⟩
  · rw [heq] at h
    exact Or.inr h
  · rw [heq] at h
    exact (mem_outstanding_messageSent.mp h).imp_left And.right

theorem mem_handleMessage (h : d ∈ (app.handleMessage m src).1) :
    m ≠ app.keyword ∧ d.dst = src ∧ d.payload = m ++ [0] := by
  rw [handleMessage] at h
  simp only [] at h
  split at h
  · next hkey =>
      obtain ⟨hdst, hpayload⟩ := mem_sendMessage h
      cases hdst
      exact ⟨hkey, rfl, hpayload⟩
  · cases h

theorem outstanding_handleMessage
    (h : m' ∈ (app.handleMessage m src).2.mobileNode.outstanding fd) :
    m' = m ∨ m' ∈ app.mobileNode.outstanding fd := by
  have hreceived (app : EchoApp) :
      (app.messageReceived m).mobileNode.outstanding fd =
        app.mobileNode.outstanding fd :=
    UnorderedMap.get_touch _ _ _
  rw [handleMessage] at h
  simp only [] at h
  split at h
  · rw [hreceived] at h
    refine (outstanding_sendMessage h).imp_right fun hold => ?_
    rwa [hreceived] at hold
  · change m' ∈ (app.messageReceived m).mobileNode.outstanding fd at h
    rw [hreceived] at h
    exact Or.inr h

theorem mem_printReceivedData (h : d ∈ (app.printReceivedData socket).sent) :
    ∃ p ∈ socket.queue.head?, p.text ≠ app.keyword ∧ d.dst = p.src ∧
      d.payload = p.text ++ [0] := by
  by_cases hreq : app.isRequest (peek socket)
  · obtain ⟨p, rest, hsock, _, heq⟩ := printReceivedData_of_isRequest hreq
    rw [heq] at h
    subst hsock
    exact ⟨p, rfl, mem_handleMessage h⟩
  · rw [(printReceivedData_of_not_isRequest hreq).2.1] at h
    cases h

theorem outstanding_printReceivedData
    (h : m ∈ (app.printReceivedData socket).app.mobileNode.outstanding fd) :
    (∃ p ∈ socket.queue.head?, p.text = m) ∨ m ∈ app.mobileNode.outstanding fd := by
  by_cases hreq : app.isRequest (peek socket)
  · obtain ⟨p, rest, hsock, _, heq⟩ := printReceivedData_of_isRequest hreq
    rw [heq] at h
    subst hsock
    refine (outstanding_handleMessage h).imp_left fun hm => ⟨p, rfl, hm.symm⟩
  · rw [(printReceivedData_of_not_isRequest hreq).1] at h
    exact Or.inr h

end EchoApp

end PermanentIP

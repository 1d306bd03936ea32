import PermanentIP.System.Lifetime

/-!
# What an application puts on the wire

Two threads send on the app socket: the application its requests for its peer's
address, its heartbeat and its echoes, the daemon whatever is outstanding when its
peer has moved. Outstanding is all the application ever sent, echoes too, and the
daemon sends it to the peer, whoever an echo was meant for.

So over any run every datagram is one of four things (`Given`): the two names, to
the lookup port; the keyword, to the peer's port; an echo, straight back to where
the message came from; or, to the peer's port, the keyword or a message that
somebody sent, without its NUL. An application says nothing it was not given
(`wire_given`).
-/

namespace PermanentIP

open Lib SimpleMobileNode

namespace EchoApp

namespace Process

/-! ## What was given -/

/-- The datagram a call of `PrintReceivedData` finds first. -/
def Action.head? : Action → Option Packet
  | .print socket => socket.queue.head?
  | .openSocket _ | .ask .. | .register .. | .send | .check | .daemonRegister
  | .compare _ | .update | .poll .. | .store _ | .daemonCheck | .close | .stopDaemon
  | .exit => none

def heard (acts : List Action) : List Packet := acts.filterMap Action.head?

/-- The keyword, or the text of a datagram. -/
def Text (keyword : NetworkMsg) (ps : List Packet) (m : NetworkMsg) : Prop :=
  m = keyword ∨ ∃ p ∈ ps, p.text = m

/-- The request for the peer's address; the heartbeat; an echo; or what the daemon
resends. -/
inductive Given (keyword request : NetworkMsg) (port : UInt16) (ps : List Packet)
    (d : Sent) : Prop
  | lookup (hpayload : d.payload = request) (hport : d.dst.sinPort = htons globLookupPort)
  | heartbeat (hpayload : d.payload = keyword ++ [0]) (hport : d.dst.sinPort = port)
  | echo (p : Packet) (hp : p ∈ ps) (htext : p.text ≠ keyword) (hdst : d.dst = p.src)
      (hpayload : d.payload = p.text ++ [0])
  | resent (htext : Text keyword ps d.payload) (hport : d.dst.sinPort = port)

variable {app : EchoApp} {m : NetworkMsg} {src : SockAddr} {socket : Socket}
  {d : Sent} {fd : Int} {keyword request : NetworkMsg} {port : UInt16} {ps : List Packet}
  {p q t : Process} {a : Action} {acts : List Action}

theorem Text.append (h : Text keyword ps m) (more : List Packet) :
    Text keyword (ps ++ more) m :=
  h.imp_right fun ⟨p, hp, hm⟩ => ⟨p, List.mem_append_left more hp, hm⟩

theorem Given.append (h : Given keyword request port ps d) (more : List Packet) :
    Given keyword request port (ps ++ more) d := by
  cases h with
  | lookup hpayload hport => exact .lookup hpayload hport
  | heartbeat hpayload hport => exact .heartbeat hpayload hport
  | echo p hp htext hdst hpayload =>
      exact .echo p (List.mem_append_left more hp) htext hdst hpayload
  | resent htext hport => exact .resent (htext.append more) hport

theorem heard_append (acts : List Action) (a : Action) :
    heard (acts ++ [a]) = heard acts ++ a.head?.toList := by
  rw [heard, List.filterMap_append]
  cases h : a.head? with
  | none => rw [List.filterMap_cons_none h]; rfl
  | some p => rw [List.filterMap_cons_some h]; rfl

/-! ## The invariant -/

/-- In the loop of `Start`. -/
def looping : Thread → Bool
  | .receiving | .sending | .checking => true
  | .opening | .connecting _ | .waiting .. | .returned _ => false

/-- Every peer there is has the port, and every message was given. -/
structure Supplied (keyword request : NetworkMsg) (port : UInt16) (ps : List Packet)
    (p : Process) : Prop where
  sameKeyword : p.app.keyword = keyword
  sameRequest : lookupRequest p.node.logicalAddress p.app.peerAddr = request
  samePort : htons p.app.peerPort = port
  sockets : ∀ fd ptr, p.node.appSockets.lookup fd = some ptr →
    (p.node.deref ptr).sinPort = port
  rest : ∀ rest server, p.daemon = .polling rest server →
    ∀ e ∈ rest, p.node.appSockets.lookup e.1 = some e.2
  container : looping p.thread = true → ∀ ptr, p.app.peerInfo = some ptr →
    (p.node.deref ptr).sinPort = port
  outstanding : ∀ fd m, m ∈ p.node.outstanding fd → Text keyword ps m
  wire : ∀ d ∈ p.wire, Given keyword request port ps d

theorem supplied_start (app : EchoApp) (ip : Int32) :
    Supplied app.keyword (lookupRequest app.logicalAddress app.peerAddr)
      (htons app.peerPort) [] (start app ip) where
  sameKeyword := rfl
  sameRequest := rfl
  samePort := rfl
  sockets _ _ h := nomatch h
  rest _ _ h := nomatch h
  container h := nomatch h
  outstanding _ _ h := absurd h (OrdSet.not_mem_empty _)
  wire _ h := nomatch h

theorem Supplied.append (h : Supplied keyword request port ps p) (more : List Packet) :
    Supplied keyword request port (ps ++ more) p :=
  { h with
    outstanding fd m hm := (h.outstanding fd m hm).append more
    wire d hd := (h.wire d hd).append more }

theorem sinPort_setSinAddr (node : SimpleMobileNode) (ptr ptr' : Ptr) (addr : UInt32) :
    ((node.setSinAddr ptr addr).deref ptr').sinPort = (node.deref ptr').sinPort := by
  rcases eq_or_ne ptr' ptr with rfl | hne
  · by_cases hptr : ptr' < node.heap.length
    · rw [deref_setSinAddr_self hptr]
    · rw [deref, setSinAddr, List.set_eq_of_length_le (Nat.not_lt.mp hptr), deref]
  · rw [deref_setSinAddr_ne hne]

/-- A step of the application in its loop. -/
theorem Supplied.ofThread (h : Supplied keyword request port ps p)
    (hsame : SamePeer p.app q.app) (hdaemon : q.daemon = p.daemon)
    (hlooping : looping p.thread = true)
    (houtstanding : ∀ fd m, m ∈ q.node.outstanding fd → Text keyword ps m)
    (hwire : ∀ d ∈ q.wire, Given keyword request port ps d) :
    Supplied keyword request port ps q := by
  obtain ⟨received, messages, heq⟩ := hsame
  have hnode : q.node = { p.node with appSocketMessages := messages } := by
    rw [node, heq]
    rfl
  refine ⟨?_, ?_, ?_, ?_, ?_, ?_, houtstanding, hwire⟩
  · rw [heq]
    exact h.sameKeyword
  · rw [hnode, heq]
    exact h.sameRequest
  · rw [heq]
    exact h.samePort
  · rw [hnode]
    exact h.sockets
  · rw [hnode, hdaemon]
    exact h.rest
  · rw [hnode, heq]
    exact fun _ => h.container hlooping

theorem lookup_of_pollAll {rest : List (Sigma fun _ : Int => Ptr)} {server : SockAddr}
    (hpoll : p.pollAll = .polling rest server) :
    ∀ e ∈ rest, p.node.appSockets.lookup e.1 = some e.2 := by
  injection hpoll with hpoll _
  rw [← hpoll]
  exact fun e he => AList.mem_lookup_iff.mpr he

/-- With the second answer the application fills in its peer's port. -/
theorem Supplied.connect (h : Supplied keyword request port ps p) (hi : Inv p)
    (hstarting : p.thread.starting = true) (rsAddr peerLoc : PhysicalAddress) :
    Supplied keyword request port ps { p with
      app := (p.app.registerPeer rsAddr peerLoc).fillPeerContainer
      thread := .receiving } := by
  have hempty : p.app.mobileNode.appSockets = ∅ := hi.noSockets hstarting
  rcases p.app.registerPeer_cases rsAddr peerLoc with ⟨_, _, heq⟩ | ⟨_, heq⟩
  · have hfilled : ∀ (heap : List SockAddr) (x y : SockAddr),
        ((heap ++ [x]).set heap.length y).getD heap.length .zero = y := by
      intro heap x y
      simp
    rw [heq, fillPeerContainer]
    refine { h with
      sockets := fun fd ptr hptr => ?_
      rest := fun rest server hrest e he => ?_
      container := fun _ ptr hptr => ?_ }
    · change (p.app.mobileNode.appSockets.insert p.app.appSocket
        p.app.mobileNode.heap.length).lookup fd = some ptr at hptr
      rcases eq_or_ne fd p.app.appSocket with rfl | hne
      · rw [AList.lookup_insert] at hptr
        cases hptr
        exact (congrArg SockAddr.sinPort (hfilled _ _ _)).trans h.samePort
      · rw [AList.lookup_insert_ne hne, hempty] at hptr
        cases hptr
    · have hnone := h.rest rest server hrest e he
      rw [node, hempty] at hnone
      cases hnone
    · cases hptr
      exact (congrArg SockAddr.sinPort (hfilled _ _ _)).trans h.samePort
  · rw [heq]
    refine { h with container := fun _ ptr hptr => ?_ }
    cases hptr

theorem Supplied.poll (h : Supplied keyword request port ps p) {serverSize : Int → Int32}
    {socket : Socket} {e : Sigma fun _ : Int => Ptr}
    {rest : List (Sigma fun _ : Int => Ptr)} {server : SockAddr}
    (hdaemon : p.daemon = .polling (e :: rest) server) {signal : Signal} :
    Supplied keyword request port ps { p with
      app := { p.app with
        mobileNode := (p.pollOne serverSize socket e.1 e.2 server).node }
      daemonSignal := signal
      daemon := .polling rest (p.pollOne serverSize socket e.1 e.2 server).server
      wire := p.wire ++ (p.pollOne serverSize socket e.1 e.2 server).sent } := by
  have hrest : ∀ e' ∈ rest, p.node.appSockets.lookup e'.1 = some e'.2 := fun e' he' =>
    h.rest _ _ hdaemon e' (List.mem_cons_of_mem e he')
  have hport := h.sockets e.1 e.2 (h.rest _ _ hdaemon e List.mem_cons_self)
  let st : PollState := ⟨p.node, fun _ => p.found e.1 socket, server, [], false⟩
  by_cases hup : st.node.isUpdate (st.peek serverSize e.1)
  · obtain ⟨x, queue, _, _, heq⟩ := pollSocket_of_isUpdate st e.2 hup
    have hone : p.pollOne serverSize socket e.1 e.2 server = _ := heq
    have hkept (ptr : Ptr) : ((p.node.applyUpdate e.1 e.2 x).deref ptr).sinPort =
        (p.node.deref ptr).sinPort := sinPort_setSinAddr _ _ _ _
    rw [hone]
    refine { h with
      sockets := fun fd ptr hptr => ?_
      rest := fun rest' server' heq => ?_
      container := fun hlooping ptr hptr => ?_
      outstanding := fun fd m hm => ?_
      wire := fun d hd => ?_ }
    · exact (hkept ptr).trans (h.sockets fd ptr hptr)
    · cases heq
      exact hrest
    · exact (hkept ptr).trans (h.container hlooping ptr hptr)
    · refine h.outstanding fd m ?_
      rwa [node, outstanding_applyUpdate] at hm
    · rcases List.mem_append.mp hd with hold | hnew
      · exact h.wire d hold
      · obtain ⟨m, hm, hsent⟩ := List.mem_flatMap.mp hnew
        rw [sendto] at hsent
        split at hsent
        · cases hsent
        · cases List.mem_singleton.mp hsent
          exact .resent (h.outstanding e.1 m hm) ((hkept e.2).trans hport)
  · have hone : p.pollOne serverSize socket e.1 e.2 server = _ :=
      pollSocket_of_not_isUpdate st e.2 hup
    rw [hone]
    refine { h with rest := fun rest' server' heq => ?_, wire := fun d hd => ?_ }
    · cases heq
      exact hrest
    · rw [List.append_nil] at hd
      exact h.wire d hd

theorem registerPeer_refused {rsAddr peerLoc : PhysicalAddress}
    (hnull : (app.registerPeer rsAddr peerLoc).peerInfo = none) :
    app.registerPeer rsAddr peerLoc = { app with peerInfo := none } := by
  rcases app.registerPeer_cases rsAddr peerLoc with ⟨_, _, heq⟩ | ⟨_, heq⟩
  · rw [heq] at hnull
    cases hnull
  · exact heq

theorem Supplied.refused (h : Supplied keyword request port ps p)
    {rsAddr peerLoc : PhysicalAddress} (thread : Thread)
    (hnull : (p.app.registerPeer rsAddr peerLoc).peerInfo = none) :
    Supplied keyword request port ps { p with
      app := p.app.registerPeer rsAddr peerLoc
      thread := thread } := by
  rw [registerPeer_refused hnull]
  refine { h with container := fun _ ptr hptr => ?_ }
  cases hptr

theorem Supplied.print (h : Supplied keyword request port ps p)
    (hthread : p.thread = .receiving) (socket : Socket) (thread : Thread) :
    Supplied keyword request port (ps ++ socket.queue.head?.toList) { p with
      app := (p.app.printReceivedData (p.found p.app.appSocket socket)).app
      wire := p.wire ++ (p.app.printReceivedData (p.found p.app.appSocket socket)).sent
      thread := thread } := by
  have hfound : ∀ x ∈ (p.found p.app.appSocket socket).queue.head?,
      x ∈ ps ++ socket.queue.head?.toList := by
    intro x hx
    rw [found] at hx
    split at hx
    · cases hx
    · exact List.mem_append_right _ (Option.mem_toList.mpr hx)
  refine (h.append _).ofThread (samePeer_printReceivedData _ _) rfl
    (by rw [hthread]; rfl) (fun fd m hm => ?_) fun d hd => ?_
  · rcases outstanding_printReceivedData hm with ⟨x, hx, rfl⟩ | hold
    · exact Or.inr ⟨x, hfound x hx, rfl⟩
    · exact (h.outstanding fd m hold).append _
  · rcases List.mem_append.mp hd with hold | hnew
    · exact (h.wire d hold).append _
    · obtain ⟨x, hx, htext, hdst, hpayload⟩ := mem_printReceivedData hnew
      rw [h.sameKeyword] at htext
      exact .echo x (hfound x hx) htext hdst hpayload

theorem Supplied.send (h : Supplied keyword request port ps p) (hthread : p.thread = .sending) :
    Supplied keyword request port ps { p with
      app := (p.app.sendMessage p.app.keyword none).2.2
      wire := if p.closed then p.wire
        else p.wire ++ (p.app.sendMessage p.app.keyword none).2.1
      thread := .checking } := by
  have hlooping : looping p.thread = true := by
    rw [hthread]
    rfl
  refine h.ofThread (samePeer_sendMessage _ _) rfl hlooping (fun fd m hm => ?_)
    fun d hd => ?_
  · rcases outstanding_sendMessage hm with rfl | hold
    · exact Or.inl h.sameKeyword
    · exact h.outstanding fd m hold
  · simp only [] at hd
    split at hd
    · exact h.wire d hd
    · rcases List.mem_append.mp hd with hold | hnew
      · exact h.wire d hold
      · obtain ⟨hdst, hpayload⟩ := mem_sendMessage hnew
        obtain ⟨ptr, hptr, hderef⟩ := Option.map_eq_some_iff.mp hdst
        rw [h.sameKeyword] at hpayload
        refine .heartbeat hpayload ?_
        rw [← hderef]
        exact h.container hlooping ptr hptr

theorem mem_asking {rsAddr : PhysicalAddress} {asked : Bool}
    (h : d ∈ p.asking rsAddr asked) :
    d.payload = lookupRequest p.node.logicalAddress p.app.peerAddr ∧
      d.dst.sinPort = htons globLookupPort := by
  rw [asking] at h
  split at h
  · cases h
  · rw [sendto] at h
    split at h
    · cases h
    · cases List.mem_singleton.mp h
      exact ⟨rfl, rfl⟩

theorem Stepped.supplied (h : Stepped p a q) (hi : Inv p)
    (hs : Supplied keyword request port ps p) :
    Supplied keyword request port (ps ++ a.head?.toList) q := by
  have hs' := hs.append a.head?.toList
  cases h with
  | opened hthread hok => exact { hs' with container := fun h => nomatch h }
  | openFailed hthread hok => exact { hs' with container := fun h => nomatch h }
  | refused hthread hle hnull => exact hs'.refused _ hnull
  | gaveUp hthread hlt hnull => exact { hs'.refused (.returned false) hnull with }
  | asked hthread =>
      refine { hs' with
        container := fun h => nomatch h
        wire := fun d hd => ?_ }
      rcases List.mem_append.mp hd with hold | hnew
      · exact hs'.wire d hold
      · obtain ⟨hpayload, hport⟩ := mem_asking hnew
        exact .lookup (hpayload.trans hs.sameRequest) hport
  | connected hthread hsome =>
      exact hs'.connect hi (by rw [hthread]; rfl) _ _
  | printed hthread hok => exact hs.print hthread _ _
  | @printFailed socket hthread hok => exact { hs.print hthread socket .sending with }
  | sent hthread => exact hs'.send hthread
  | checked hthread =>
      refine { hs' with container := fun _ => ?_ }
      exact hs'.container (by rw [hthread]; rfl)
  | daemonRegistered hdaemon => exact { hs' with rest := fun rest server h => nomatch h }
  | compared hdaemon =>
      refine { hs' with rest := fun rest server h => ?_ }
      simp only [] at h
      split at h
      · cases h
      · exact lookup_of_pollAll h
  | updated hdaemon => exact { hs' with rest := fun rest server h => lookup_of_pollAll h }
  | polled hdaemon => exact hs'.poll hdaemon
  | stored hdaemon => exact { hs' with rest := fun rest server h => nomatch h }
  | daemonChecked hdaemon =>
      refine { hs' with rest := fun rest server h => ?_ }
      simp only [] at h
      split at h <;> cases h
  | close | stopDaemon | exit => exact { hs' with }

/-- Over any run, whatever goes out on the app socket is the application's and its
peer's name, to the lookup port, or the keyword, or the text of a datagram that came
in; and these go to the peer's port or back to where the text came from. -/
theorem wire_given (app : EchoApp) (ip : Int32)
    (hrun : Run step Always (start app ip) acts t) :
    ∀ d ∈ t.wire, Given app.keyword (lookupRequest app.logicalAddress app.peerAddr)
      (htons app.peerPort) (heard acts) d := by
  have hsupplied : Supplied app.keyword
      (lookupRequest app.logicalAddress app.peerAddr) (htons app.peerPort)
      (heard acts) t := by
    induction hrun with
    | nil => exact supplied_start app ip
    | snoc h _ hs ih =>
        rw [heard_append]
        exact (stepped hs).supplied (inv_run h) ih
  exact hsupplied.wire

end Process

end EchoApp

end PermanentIP

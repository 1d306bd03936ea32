import PermanentIP.Applications.EchoApp
import PermanentIP.Proofs.NodeCalls
import PermanentIP.Lib.Run

/-!
# Two threads on one socket

The daemon's `PollSubscriptions` and the application's `PrintReceivedData`
both receive on the app socket, each in two calls: a peek, and, if the peek
brought a datagram meant for the thread, the receive that takes it. Nothing
locks the socket between the two.

It needs no lock. The daemon takes only what comes from the rendezvous
server's address and the application only what does not, so while one thread
is between its calls the other's peek sees the same head of the queue and fails
its test: whoever has seen its own kind of datagram pins the head
(`SocketInv.pinned`). The state carries what arrived and what was taken as ghost
histories, in which a datagram is named by its place in the order of arrival.
-/

namespace PermanentIP

open Lib

namespace SharedSocket

inductive Thread where
  | daemon
  | application
deriving DecidableEq

/-- A thread between its two calls: what its peek brought, and the place of the
datagram it saw. -/
structure Peeked where
  result : Received
  place : Nat

/-- A receive, with the peek before it, and the places of the datagrams the two
of them saw. -/
structure Taken where
  thread : Thread
  peek : Received
  seen : Nat
  take : Received
  got : Nat

structure State where
  socket : Socket
  peeked : Thread → Option Peeked
  arrived : List Packet
  taken : List Taken

def State.init : State := ⟨⟨[], none⟩, fun _ => none, [], []⟩

def State.place (s : State) : Nat := s.arrived.length - s.socket.queue.length

inductive Action where
  | arrive (p : Packet)
  /-- with the locals `server` and `server_size` as the round finds them -/
  | daemonPeek (server : SockAddr) (serverSize : Int32)
  | daemonTake
  /-- with the local `request_src` as the call finds it -/
  | appPeek (requestSrc : SockAddr)
  | appTake

/-- The test each thread makes on what its peek brought. -/
def test (app : EchoApp) : Thread → Received → Bool
  | .daemon => app.mobileNode.isUpdate
  | .application => app.isRequest

/-- A peek; a thread whose test fails is back before its peek. -/
def peekStep (app : EchoApp) (s : State) (t : Thread) (addr : SockAddr)
    (addrLen : Int32) : Option State :=
  match s.peeked t with
  | some _ => none
  | none =>
      let peek := recvfrom s.socket true bufferSize addr addrLen
      let seen := if test app t peek then some ⟨peek, s.place⟩ else none
      some { s with
        socket := peek.socket
        peeked := Function.update s.peeked t seen }

def takeStep (s : State) (t : Thread) : Option State :=
  match s.peeked t with
  | none => none
  | some k =>
      let take := recvfrom s.socket false bufferSize k.result.addr k.result.addrLen
      some { s with
        socket := take.socket
        peeked := Function.update s.peeked t none
        taken := s.taken ++ [⟨t, k.result, k.place, take, s.place⟩] }

def step (app : EchoApp) (s : State) : Action → Option State
  | .arrive p =>
      some { s with
        socket := { s.socket with queue := s.socket.queue ++ [p] }
        arrived := s.arrived ++ [p] }
  | .daemonPeek server serverSize => peekStep app s .daemon server serverSize
  | .daemonTake => takeStep s .daemon
  | .appPeek requestSrc => peekStep app s .application requestSrc sizeofSockAddr
  | .appTake => takeStep s .application

/-- The daemon's peek finds room for the whole source address. -/
def FillsAddress (_ : State) : Action → Prop
  | .daemonPeek _ serverSize => 8 ≤ serverSize.toInt
  | .arrive _ | .daemonTake | .appPeek _ | .appTake => True

instance (s : State) (a : Action) : Decidable (FillsAddress s a) := by
  cases a <;> unfold FillsAddress <;> infer_instance

/-- A thread's two calls with nobody else's between them. -/
def alone (app : EchoApp) (s : State) (t : Thread) (peek take : Action) :
    Option State :=
  (step app s peek).bind fun u =>
    if (u.peeked t).isSome then step app u take else some u

/-! ## Who a datagram is meant for -/

/-- What a receive that brought `p` returns. -/
def Saw (r : Received) (p : Packet) : Prop :=
  r.bytesRead = (p.payload.take bufferSize).length ∧
    r.data = p.payload.take bufferSize ∧ r.addr = p.src

/-- The thread whose test a datagram passes. -/
def MeantFor (app : EchoApp) (t : Thread) (p : Packet) : Prop :=
  p.payload ≠ [] ∧ match t with
    | .daemon => p.src.sinAddr = (ipStringToInt app.rendezvousServer).toUInt32
    | .application =>
        p.src.sinAddr ≠ (ipStringToInt app.rendezvousServer).toUInt32

variable {app : EchoApp} {s u : State} {t t' : Thread} {p : Packet}
  {acts : List Action}

theorem MeantFor.unique (h : MeantFor app t p) (h' : MeantFor app t' p) :
    t = t' := by
  cases t with
  | daemon =>
      cases t' with
      | daemon => rfl
      | application => exact absurd h.2 h'.2
  | application =>
      cases t' with
      | daemon => exact absurd h'.2 h.2
      | application => rfl

theorem test_pos {r : Received} (h : test app t r) : 0 < r.bytesRead := by
  cases t <;>
    simp only [test, SimpleMobileNode.isUpdate, EchoApp.isRequest,
      Bool.and_eq_true, decide_eq_true_eq] at h <;>
    exact h.1

/-- A peek whose test passed saw the head of the queue, meant for the thread. -/
theorem test_recvfrom
    (hrs : app.mobileNode.rendezvousServer = app.rendezvousServer)
    {socket : Socket} {addr : SockAddr} {addrLen : Int32}
    (hlen : 8 ≤ addrLen.toInt)
    (h : test app t (recvfrom socket true bufferSize addr addrLen)) :
    ∃ p rest, socket = ⟨p :: rest, none⟩ ∧ MeantFor app t p ∧
      recvfrom socket true bufferSize addr addrLen =
        { bytesRead := (p.payload.take bufferSize).length
          data := p.payload.take bufferSize
          errno := .again
          addr := p.src
          addrLen := sizeofSockAddr
          socket := socket } := by
  obtain ⟨p, rest, rfl, hp, _⟩ := recvfrom_pos (test_pos h)
  have heq := recvfrom_cons p rest true bufferSize addr hlen
  simp only [if_true] at heq
  refine ⟨p, rest, rfl, ⟨hp, ?_⟩, heq⟩
  rw [heq] at h
  cases t with
  | daemon =>
      simp only [test, SimpleMobileNode.isUpdate, SimpleMobileNode.serverAddr,
        hrs, Bool.and_eq_true, beq_iff_eq] at h
      exact h.2
  | application =>
      simp only [test, EchoApp.isRequest, Bool.and_eq_true, bne_iff_ne] at h
      exact h.2

/-! ## The invariant -/

/-- A receive of what arrived in place `i`, by the thread it was meant for. -/
structure TookInPlace (app : EchoApp) (arrived : List Packet) (i : Nat)
    (k : Taken) : Prop where
  seen : k.seen = i
  got : k.got = i
  packet : ∃ p, arrived[i]? = some p ∧ Saw k.peek p ∧ Saw k.take p ∧
    MeantFor app k.thread p

/-- What was taken is the front of what arrived, in order; the queue is the
rest; and a thread between its calls has seen the head, which is its own. -/
structure SocketInv (app : EchoApp) (s : State) : Prop where
  noError : s.socket.soError = none
  order : ∃ front, s.arrived = front ++ s.socket.queue ∧
    front.length = s.taken.length
  pinned : ∀ t k, s.peeked t = some k → ∃ p rest,
    s.socket.queue = p :: rest ∧ MeantFor app t p ∧ Saw k.result p ∧
      k.result.addrLen = sizeofSockAddr ∧ k.place = s.place
  taken : ∀ i k, s.taken[i]? = some k → TookInPlace app s.arrived i k

theorem socketInv_init : SocketInv app .init where
  noError := rfl
  order := ⟨[], rfl, rfl⟩
  pinned _ _ h := by cases h
  taken _ _ h := by cases h

theorem SocketInv.place_eq (h : SocketInv app s) : s.place = s.taken.length := by
  obtain ⟨front, harr, hlen⟩ := h.order
  rw [State.place, harr, List.length_append, ← hlen]
  omega

theorem TookInPlace.append {arrived : List Packet} {i : Nat} {k : Taken}
    (h : TookInPlace app arrived i k) (p : Packet) :
    TookInPlace app (arrived ++ [p]) i k := by
  obtain ⟨hseen, hgot, q, hq, hsaw⟩ := h
  refine ⟨hseen, hgot, q, ?_, hsaw⟩
  obtain ⟨hlt, _⟩ := List.getElem?_eq_some_iff.mp hq
  rw [List.getElem?_append_left hlt, hq]

theorem SocketInv.arrive (h : SocketInv app s) (p : Packet) :
    SocketInv app { s with
      socket := { s.socket with queue := s.socket.queue ++ [p] }
      arrived := s.arrived ++ [p] } := by
  refine ⟨h.noError, ?_, fun t k hk => ?_, fun i k hk => ?_⟩
  · obtain ⟨front, harr, hlen⟩ := h.order
    exact ⟨front, by simp only [harr, List.append_assoc], hlen⟩
  · obtain ⟨q, rest, hq, hmeant, hsaw, haddr, hplace⟩ := h.pinned t k hk
    refine ⟨q, rest ++ [p], ?_, hmeant, hsaw, haddr, ?_⟩
    · simp only [hq, List.cons_append]
    · rw [hplace, State.place, State.place, List.length_append,
        List.length_append, List.length_singleton]
      omega
  · exact (h.taken i k hk).append p

theorem SocketInv.peek
    (hrs : app.mobileNode.rendezvousServer = app.rendezvousServer)
    (h : SocketInv app s) {addr : SockAddr} {addrLen : Int32}
    (hlen : 8 ≤ addrLen.toInt) (hs : peekStep app s t addr addrLen = some u) :
    SocketInv app u := by
  rw [peekStep] at hs
  split at hs
  · cases hs
  · injection hs with hs
    subst hs
    simp only [recvfrom_peek_socket h.noError]
    refine ⟨h.noError, h.order, fun t' k hk => ?_, h.taken⟩
    rcases eq_or_ne t' t with rfl | hne
    · simp only [Function.update_self] at hk
      split at hk
      · next htest =>
          injection hk with hk
          subst hk
          obtain ⟨p, rest, hsock, hmeant, heq⟩ := test_recvfrom hrs hlen htest
          refine ⟨p, rest, by rw [hsock], hmeant, ?_, by rw [heq], rfl⟩
          simp only [heq]
          exact ⟨rfl, rfl, rfl⟩
      · cases hk
    · simp only [Function.update_of_ne hne] at hk
      exact h.pinned t' k hk

theorem SocketInv.take (h : SocketInv app s) (hs : takeStep s t = some u) :
    SocketInv app u := by
  rw [takeStep] at hs
  split at hs
  · cases hs
  · next k hk =>
      injection hs with hs
      obtain ⟨p, rest, hq, hmeant, hsaw, haddr, hplace⟩ := h.pinned t k hk
      have hsock : s.socket = ⟨p :: rest, none⟩ := by
        rw [← hq, ← h.noError]
      have htake : recvfrom s.socket false bufferSize k.result.addr
          k.result.addrLen =
            { bytesRead := (p.payload.take bufferSize).length
              data := p.payload.take bufferSize
              errno := .again
              addr := p.src
              addrLen := sizeofSockAddr
              socket := ⟨rest, none⟩ } := by
        rw [hsock, haddr]
        exact recvfrom_cons p rest false bufferSize _ le_sizeofSockAddr
      rw [htake] at hs
      subst hs
      obtain ⟨front, harr, hlen⟩ := h.order
      rw [hq] at harr
      refine ⟨rfl, ⟨front ++ [p], ?_, ?_⟩, fun t' k' hk' => ?_, fun i k' hk' => ?_⟩
      · simp only [harr, List.append_assoc, List.singleton_append]
      · simp only [List.length_append, List.length_singleton, hlen]
      · -- the other thread cannot be between its calls: the head was not its own
        rcases eq_or_ne t' t with rfl | hne
        · simp only [Function.update_self] at hk'
          cases hk'
        · simp only [Function.update_of_ne hne] at hk'
          obtain ⟨p', rest', hq', hmeant', _⟩ := h.pinned t' k' hk'
          rw [hq] at hq'
          injection hq' with hp' _
          subst hp'
          exact absurd (hmeant'.unique hmeant) hne
      · simp only [List.getElem?_append, List.getElem?_singleton] at hk'
        split at hk'
        · exact h.taken i k' hk'
        · next hge =>
            split at hk'
            · next hi =>
                injection hk' with hk'
                have hi' : i = s.taken.length := by omega
                subst hk'
                refine ⟨?_, ?_, p, ?_, hsaw, ⟨rfl, rfl, rfl⟩, hmeant⟩
                · rw [hplace, h.place_eq, hi']
                · rw [h.place_eq, hi']
                · rw [harr, hi', ← hlen, List.getElem?_append_right (Nat.le_refl _),
                    Nat.sub_self]
                  rfl
            · cases hk'

theorem SocketInv.step
    (hrs : app.mobileNode.rendezvousServer = app.rendezvousServer) {a : Action}
    (h : SocketInv app s) (hfill : FillsAddress s a)
    (hs : step app s a = some u) : SocketInv app u := by
  cases a with
  | arrive p =>
      injection hs with hs
      subst hs
      exact h.arrive p
  | daemonPeek server serverSize => exact h.peek hrs hfill hs
  | daemonTake => exact h.take hs
  | appPeek requestSrc => exact h.peek hrs le_sizeofSockAddr hs
  | appTake => exact h.take hs

theorem SocketInv.run (app : EchoApp)
    (hrs : app.mobileNode.rendezvousServer = app.rendezvousServer)
    (h : Run (SharedSocket.step app) FillsAddress .init acts s) :
    SocketInv app s :=
  h.invariant socketInv_init fun _ _ _ ht hfill hs => ht.step hrs hfill hs

/-! ## Nothing is stolen -/

/-- Each receive returns the datagram its own thread's peek saw, the daemon has
the rendezvous server's datagrams and the application all others, and the
places of what was taken are 0, 1, 2 and so on. -/
structure NothingStolen (rendezvousServer : PhysicalAddress) (s : State) :
    Prop where
  same : ∀ k ∈ s.taken, k.got = k.seen ∧
    ∃ p, s.arrived[k.got]? = some p ∧ Saw k.peek p ∧ Saw k.take p
  daemon : ∀ k ∈ s.taken, k.thread = .daemon → ∀ p, s.arrived[k.got]? = some p →
    p.src.sinAddr = (ipStringToInt rendezvousServer).toUInt32
  application : ∀ k ∈ s.taken, k.thread = .application →
    ∀ p, s.arrived[k.got]? = some p →
      p.src.sinAddr ≠ (ipStringToInt rendezvousServer).toUInt32
  inOrder : s.taken.map Taken.got = List.range s.taken.length

theorem SocketInv.meantFor (h : SocketInv app s) {k : Taken} (hk : k ∈ s.taken)
    (hp : s.arrived[k.got]? = some p) : MeantFor app k.thread p := by
  obtain ⟨i, hi⟩ := List.mem_iff_getElem?.mp hk
  obtain ⟨_, hgot, q, hq, _, _, hmeant⟩ := h.taken i k hi
  rw [← hgot, hp] at hq
  injection hq with hq
  rwa [hq]

theorem SocketInv.nothingStolen (h : SocketInv app s) :
    NothingStolen app.rendezvousServer s where
  same k hk := by
    obtain ⟨i, hi⟩ := List.mem_iff_getElem?.mp hk
    obtain ⟨hseen, hgot, p, hp, hpeek, htake, _⟩ := h.taken i k hi
    exact ⟨by rw [hgot, hseen], p, by rw [hgot, hp], hpeek, htake⟩
  daemon k hk ht p hp := by
    have hmeant := h.meantFor hk hp
    rw [ht] at hmeant
    exact hmeant.2
  application k hk ht p hp := by
    have hmeant := h.meantFor hk hp
    rw [ht] at hmeant
    exact hmeant.2
  inOrder := by
    apply List.ext_getElem
    · rw [List.length_map, List.length_range]
    · intro i hi _
      rw [List.length_map] at hi
      rw [List.getElem_map, List.getElem_range]
      exact (h.taken i _ (List.getElem?_eq_getElem hi)).got

/-- In every interleaving of the daemon and the application with each other and
with whatever arrives, neither takes the other's datagrams. -/
theorem nothing_stolen (app : EchoApp) (ip : Int32) {acts : List Action}
    {s : State} (h : Run (step (app.createMobileNodeDelegate ip)) FillsAddress
      .init acts s) :
    NothingStolen app.rendezvousServer s :=
  (SocketInv.run (app.createMobileNodeDelegate ip) rfl h).nothingStolen

/-- A push is pinned by the daemon while the application peeks at it and a
message arrives behind it, which the daemon then leaves to the application. -/
def exampleActions : List Action :=
  [.arrive ⟨⟨netV4, 5, 0x04030201⟩, ascii "1.2.3.5"⟩, .daemonPeek .zero 16,
    .appPeek .zero, .arrive ⟨⟨netV4, 9, 7⟩, ascii "hi"⟩, .daemonTake,
    .daemonPeek .zero 16, .appPeek .zero, .appTake]

theorem nothing_stolen_example : ∃ s,
    exec (step (EchoApp.sample.createMobileNodeDelegate 1)) FillsAddress .init
      exampleActions = some s ∧
    NothingStolen EchoApp.sample.rendezvousServer s := by
  obtain ⟨s, hs⟩ := Option.isSome_iff_exists.mp
    (show (exec (step (EchoApp.sample.createMobileNodeDelegate 1)) FillsAddress
      .init exampleActions).isSome by decide +kernel)
  exact ⟨s, hs, nothing_stolen EchoApp.sample 1 (Run.of_exec hs)⟩

/-! ## The calls of the source -/

theorem pollSocket_eq_alone {st : SimpleMobileNode.PollState} {fd : Int}
    {ptr : Ptr} {serverSize : Int → Int32} (hnode : st.node = app.mobileNode)
    (hsock : st.sockets fd = s.socket) (hidle : s.peeked .daemon = none) :
    (alone app s .daemon (.daemonPeek st.server (serverSize fd))
        .daemonTake).map State.socket =
      some ((SimpleMobileNode.pollSocket serverSize st fd ptr).sockets fd) := by
  rw [alone, step, peekStep, hidle, ← hsock, SimpleMobileNode.pollSocket, hnode]
  simp only [Option.bind_some, Function.update_self, test]
  split
  · next h =>
      simp only [h, if_true, Option.isSome_some, step, takeStep,
        Function.update_self, Option.map_some]
  · next h =>
      simp only [h, if_false, Bool.false_eq_true, Option.isSome_none,
        Option.map_some, Function.update_self]

theorem printReceivedData_eq_alone (hidle : s.peeked .application = none) :
    (alone app s .application (.appPeek .zero) .appTake).map State.socket =
      some (app.printReceivedData s.socket).socket := by
  rw [alone, step, peekStep, hidle, EchoApp.printReceivedData]
  simp only [Option.bind_some, Function.update_self, test]
  split
  · next h =>
      simp only [h, if_true, Option.isSome_some, step, takeStep,
        Function.update_self, Option.map_some]
  · next h =>
      simp only [h, if_false, Bool.false_eq_true, Option.isSome_none,
        Option.map_some]

end SharedSocket

end PermanentIP

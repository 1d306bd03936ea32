import PermanentIP.MobileNode.SimpleMobileNode

/-!
# What the daemon's operations do

The counterpart of the server's block of lemmas: each operation of
`SimpleMobileNode` read off the code once.

`MessageSent` grows one set. `MessageReceived` changes no set, since what it
erases from is a copy; all it leaves behind is an entry for the socket. A round
of `PollSubscriptions` either takes an update off its socket, writes the peer's
address and resends what is outstanding (`pollSocket_of_isUpdate`), or leaves
the node and the wire as they were (`pollSocket_of_not_isUpdate`).
-/

namespace PermanentIP

open Lib

theorem recvfrom_pos {s : Socket} {peek : Bool} {size : Nat} {addr : SockAddr}
    {addrLen : Int32} (h : 0 < (recvfrom s peek size addr addrLen).bytesRead) :
    ∃ p rest, s = ⟨p :: rest, none⟩ ∧ p.payload ≠ [] ∧
      recvfrom s peek size addr addrLen =
        { bytesRead := (p.payload.take size).length
          data := p.payload.take size
          errno := .again
          addr := copyAddr addrLen.toInt.toNat addr p.src
          addrLen := sizeofSockAddr
          socket := ⟨if peek then p :: rest else rest, none⟩ } := by
  obtain ⟨queue, soError⟩ := s
  cases soError with
  | some e => simp [recvfrom, Received.failed] at h
  | none =>
      cases queue with
      | nil => simp [recvfrom, Received.failed] at h
      | cons p rest =>
          by_cases hlen : addrLen.toInt < 0
          · simp [recvfrom, Received.failed, hlen] at h
          · have heq := recvfrom_of_nonneg p rest peek size addr (Int.not_lt.mp hlen)
            rw [heq] at h
            refine ⟨p, rest, rfl, ?_, heq⟩
            intro hp
            simp [hp] at h

namespace SimpleMobileNode

variable {node : SimpleMobileNode} {fd s s' : Int} {m m' : NetworkMsg}
  {ptr ptr' : Ptr} {addr : UInt32}

/-! ## The buffer -/

theorem mem_outstanding_messageSent :
    m' ∈ (node.messageSent s m).outstanding s' ↔
      (s' = s ∧ m' = m) ∨ m' ∈ node.outstanding s' := by
  rcases eq_or_ne s' s with rfl | hne
  · show m' ∈ UnorderedMap.get (AList.insert s' _ _) s' ↔ _
    rw [UnorderedMap.get_insert, OrdSet.mem_insert]
    simp
  · show m' ∈ UnorderedMap.get (AList.insert s _ _) s' ↔ _
    rw [UnorderedMap.get_insert_ne hne]
    simp only [hne, false_and, false_or]
    exact Iff.rfl

theorem outstanding_messageSent_ne (h : s' ≠ s) :
    (node.messageSent s m).outstanding s' = node.outstanding s' :=
  UnorderedMap.get_insert_ne h

@[simp] theorem outstanding_messageReceived :
    (node.messageReceived s m).outstanding s' = node.outstanding s' :=
  UnorderedMap.get_touch _ _ _

/-! ## Pointers -/

@[simp] theorem length_heap_setSinAddr :
    (node.setSinAddr ptr addr).heap.length = node.heap.length :=
  List.length_set

theorem deref_setSinAddr_self (h : ptr < node.heap.length) :
    (node.setSinAddr ptr addr).deref ptr =
      { node.deref ptr with sinAddr := addr } := by
  show (node.heap.set ptr _).getD ptr .zero = _
  rw [List.getD_eq_getElem?_getD, List.getElem?_set_self h]
  rfl

theorem deref_setSinAddr_ne (h : ptr' ≠ ptr) :
    (node.setSinAddr ptr addr).deref ptr' = node.deref ptr' := by
  show (node.heap.set ptr _).getD ptr' .zero = node.heap.getD ptr' .zero
  rw [List.getD_eq_getElem?_getD, List.getElem?_set_ne (Ne.symm h),
    List.getD_eq_getElem?_getD]

/-- Every pointer the daemon keeps points into its heap. -/
def PointersValid (node : SimpleMobileNode) : Prop :=
  ∀ fd ptr, node.appSockets.lookup fd = some ptr → ptr < node.heap.length

/-! ## `RegisterPeer` -/

variable {rsAddr peerLoc : PhysicalAddress}

/-- Two answers make a fresh pointer to the peer's location; without them
nothing happens. -/
theorem registerPeer_cases (node : SimpleMobileNode) (fd : Int)
    (rsAddr peerLoc : PhysicalAddress) :
    (rsAddr ≠ [] ∧ peerLoc ≠ [] ∧
      node.registerPeer fd rsAddr peerLoc =
        (some node.heap.length,
          { node with
            heap := node.heap ++
              [{ SockAddr.zero with sinAddr := (ipStringToInt peerLoc).toUInt32 }]
            appSockets := node.appSockets.insert fd node.heap.length })) ∨
    ((rsAddr = [] ∨ peerLoc = []) ∧
      node.registerPeer fd rsAddr peerLoc = (none, node)) := by
  by_cases hrs : rsAddr = []
  · exact Or.inr ⟨Or.inl hrs, by rw [registerPeer, if_pos hrs]⟩
  · by_cases hloc : peerLoc = []
    · exact Or.inr ⟨Or.inr hloc, by rw [registerPeer, if_neg hrs, if_pos hloc]⟩
    · exact Or.inl ⟨hrs, hloc, by rw [registerPeer, if_neg hrs, if_neg hloc]⟩

@[simp] theorem outstanding_registerPeer :
    (node.registerPeer fd rsAddr peerLoc).2.outstanding s =
      node.outstanding s := by
  rcases registerPeer_cases node fd rsAddr peerLoc with
    ⟨_, _, heq⟩ | ⟨_, heq⟩
  · rw [heq]
    rfl
  · rw [heq]

theorem PointersValid.registerPeer (h : PointersValid node) :
    PointersValid (node.registerPeer fd rsAddr peerLoc).2 := by
  rcases registerPeer_cases node fd rsAddr peerLoc with
    ⟨_, _, heq⟩ | ⟨_, heq⟩
  · rw [heq]
    intro fd' ptr hptr
    show ptr < (node.heap ++ [_]).length
    rw [List.length_append, List.length_singleton]
    change (AList.insert fd node.heap.length node.appSockets).lookup fd' =
      some ptr at hptr
    rcases eq_or_ne fd' fd with rfl | hne
    · rw [AList.lookup_insert] at hptr
      injection hptr with hptr
      rw [← hptr]
      exact Nat.lt_succ_self _
    · rw [AList.lookup_insert_ne hne] at hptr
      exact Nat.lt_succ_of_lt (h fd' ptr hptr)
  · rw [heq]
    exact h

/-! ## A round of `PollSubscriptions` -/

variable {serverSize : Int → Int32} {st : PollState}

/-- The node after an update: the peer's address, and an entry in the buffer. -/
def applyUpdate (node : SimpleMobileNode) (fd : Int) (ptr : Ptr)
    (update : Packet) : SimpleMobileNode :=
  { node.setSinAddr ptr (ipStringToInt update.text).toUInt32 with
    appSocketMessages := UnorderedMap.touch node.appSocketMessages fd }

@[simp] theorem outstanding_applyUpdate {p : Packet} :
    (node.applyUpdate fd ptr p).outstanding s = node.outstanding s :=
  UnorderedMap.get_touch _ _ _

theorem PointersValid.applyUpdate {p : Packet} (h : PointersValid node) :
    PointersValid (node.applyUpdate fd ptr p) := by
  intro fd' ptr' hptr
  show ptr' < (node.setSinAddr ptr _).heap.length
  rw [length_heap_setSinAddr]
  exact h fd' ptr' hptr

def PollState.peek (st : PollState) (serverSize : Int → Int32) (fd : Int) :
    Received :=
  recvfrom (st.sockets fd) true bufferSize st.server (serverSize fd)

/-- With room for the source address a round sees an update where there is one. -/
theorem isUpdate_peek_iff {p : Packet} {rest : List Packet}
    (hsock : st.sockets fd = ⟨p :: rest, none⟩) (hsize : 8 ≤ (serverSize fd).toInt) :
    node.isUpdate (st.peek serverSize fd) = true ↔
      p.payload ≠ [] ∧ p.src.sinAddr = node.serverAddr := by
  rw [PollState.peek, hsock, recvfrom_cons _ _ _ _ _ hsize]
  simp only [isUpdate, Bool.and_eq_true, decide_eq_true_eq, beq_iff_eq, length_take_pos]

/-- A round that sees an update takes that datagram and no other, applies it,
and resends. -/
theorem pollSocket_of_isUpdate (st : PollState) (ptr : Ptr)
    (h : st.node.isUpdate (st.peek serverSize fd)) :
    ∃ p rest, st.sockets fd = ⟨p :: rest, none⟩ ∧ p.payload ≠ [] ∧
      pollSocket serverSize st fd ptr =
        { node := st.node.applyUpdate fd ptr p
          sockets := Function.update st.sockets fd ⟨rest, none⟩
          server := p.src
          sent := st.sent ++ resend fd
            ((st.node.applyUpdate fd ptr p).deref ptr) (st.node.outstanding fd)
          shutDown := st.shutDown } := by
  have hread : 0 < (st.peek serverSize fd).bytesRead := by
    simp only [isUpdate, Bool.and_eq_true, decide_eq_true_eq] at h
    exact h.1
  obtain ⟨p, rest, hs, hp, hpeek⟩ := recvfrom_pos hread
  refine ⟨p, rest, hs, hp, ?_⟩
  rw [PollState.peek] at h
  rw [pollSocket]
  simp only [h, if_true]
  rw [hpeek]
  simp only [if_true, recvfrom_cons _ _ _ _ _ le_sizeofSockAddr, store_store,
    cstr_store_zeroed, Function.update_idem, Bool.false_eq_true, if_false]
  rfl

/-- Any other round changes neither the node nor what was sent. -/
theorem pollSocket_of_not_isUpdate (st : PollState) (ptr : Ptr)
    (h : ¬ st.node.isUpdate (st.peek serverSize fd)) :
    pollSocket serverSize st fd ptr =
      { st with
        sockets := Function.update st.sockets fd (st.peek serverSize fd).socket
        server := (st.peek serverSize fd).addr
        shutDown := st.shutDown || ((st.peek serverSize fd).bytesRead < 0 &&
          (st.peek serverSize fd).errno != .again) } := by
  rw [PollState.peek] at h ⊢
  rw [pollSocket]
  simp only [h, if_false, Bool.false_eq_true]

theorem mem_queue_pollSocket {st : PollState} {ptr : Ptr} {p : Packet}
    (hp : p ∈ ((pollSocket serverSize st fd ptr).sockets fd).queue) :
    p ∈ (st.sockets fd).queue := by
  by_cases h : st.node.isUpdate (st.peek serverSize fd)
  · obtain ⟨p', rest, hs, _, heq⟩ := pollSocket_of_isUpdate st ptr h
    rw [heq] at hp
    simp only [Function.update_self] at hp
    rw [hs]
    exact List.mem_cons_of_mem _ hp
  · rw [pollSocket_of_not_isUpdate st ptr h] at hp
    simp only [Function.update_self, PollState.peek, queue_recvfrom_peek] at hp
    exact hp

theorem node_pollSocket (serverSize : Int → Int32) (st : PollState) (fd : Int)
    (ptr : Ptr) :
    (pollSocket serverSize st fd ptr).node = st.node ∨
      ∃ p, (pollSocket serverSize st fd ptr).node =
        st.node.applyUpdate fd ptr p := by
  by_cases h : st.node.isUpdate (st.peek serverSize fd)
  · obtain ⟨p, rest, _, _, heq⟩ := pollSocket_of_isUpdate st ptr h
    exact Or.inr ⟨p, by rw [heq]⟩
  · exact Or.inl (by rw [pollSocket_of_not_isUpdate st ptr h])

theorem foldl_pollSocket_invariant {I : SimpleMobileNode → Prop}
    (serverSize : Int → Int32)
    (happly : ∀ node fd ptr p, I node → I (node.applyUpdate fd ptr p))
    (rounds : List (Sigma fun _ : Int => Ptr)) :
    ∀ st : PollState, I st.node →
      I (rounds.foldl (fun st e => pollSocket serverSize st e.1 e.2) st).node := by
  induction rounds with
  | nil => intro st h; exact h
  | cons e rounds ih =>
      intro st h
      rw [List.foldl_cons]
      apply ih
      rcases node_pollSocket serverSize st e.1 e.2 with heq | ⟨p, heq⟩
      · rw [heq]
        exact h
      · rw [heq]
        exact happly _ _ _ _ h

/-- The node is as it was, but for what its `sockaddr`s say and for entries in
the buffer. -/
structure Polled (node node' : SimpleMobileNode) : Prop where
  logicalAddress : node'.logicalAddress = node.logicalAddress
  lastKnownIpAddress : node'.lastKnownIpAddress = node.lastKnownIpAddress
  rendezvousServer : node'.rendezvousServer = node.rendezvousServer
  appSockets : node'.appSockets = node.appSockets
  heap : node'.heap.length = node.heap.length

theorem polled_pollSubscriptions (node : SimpleMobileNode)
    (serverSize : Int → Int32) (sockets : Int → Socket) :
    Polled node (node.pollSubscriptions serverSize sockets).node := by
  refine foldl_pollSocket_invariant (I := Polled node) serverSize ?_ _ _
    ⟨rfl, rfl, rfl, rfl, rfl⟩
  intro node' fd ptr p h
  exact ⟨h.logicalAddress, h.lastKnownIpAddress, h.rendezvousServer, h.appSockets,
    length_heap_setSinAddr.trans h.heap⟩

end SimpleMobileNode

end PermanentIP

import PermanentIP.Proofs.NodeCalls

/-!
# One socket in a call of `PollSubscriptions`

The loop comes to each registered socket once, and what it does there is one
round, `pollSocket`, in whatever state the rounds before it have left the
locals. `beforeSocket` is that state. The rounds on other sockets change
neither this socket's queue nor, as long as no two sockets share a pointer, the
peer it stands for (`Elsewhere`); so a call is, for one socket and its peer, its
round and nothing else (`pollSubscriptions_at`).
-/

namespace PermanentIP

open Lib

namespace SimpleMobileNode

/-- No two sockets stand for one `sockaddr`. -/
def PointersDistinct (node : SimpleMobileNode) : Prop :=
  ∀ fd fd' ptr, node.appSockets.lookup fd = some ptr →
    node.appSockets.lookup fd' = some ptr → fd = fd'

variable {node : SimpleMobileNode} {fd : Int} {ptr : Ptr}
  {serverSize : Int → Int32} {sockets : Int → Socket} {st st' : PollState}
  {e : Sigma fun _ : Int => Ptr}

theorem pointersDistinct_new (L : LogicalAddress) (dns rs : PhysicalAddress)
    (ip : Int32) : PointersDistinct (new L dns rs ip) := by
  intro fd fd' ptr h
  cases h

theorem pointersValid_of_empty (h : node.appSockets = ∅) : PointersValid node := by
  intro fd ptr hptr
  rw [h] at hptr
  cases hptr

/-- A registration's pointer is a fresh one. -/
theorem PointersDistinct.registerPeer (h : PointersDistinct node)
    (hvalid : PointersValid node) {rsAddr peerLoc : PhysicalAddress} :
    PointersDistinct (node.registerPeer fd rsAddr peerLoc).2 := by
  rcases registerPeer_cases node fd rsAddr peerLoc with ⟨_, _, heq⟩ | ⟨_, heq⟩
  · rw [heq]
    intro fd₁ fd₂ ptr h₁ h₂
    change (AList.insert fd node.heap.length node.appSockets).lookup fd₁ = _ at h₁
    change (AList.insert fd node.heap.length node.appSockets).lookup fd₂ = _ at h₂
    rcases eq_or_ne fd₁ fd with rfl | hne₁
    · rcases eq_or_ne fd₂ fd₁ with rfl | hne₂
      · rfl
      · rw [AList.lookup_insert, Option.some.injEq] at h₁
        rw [AList.lookup_insert_ne hne₂, ← h₁] at h₂
        exact absurd (hvalid _ _ h₂) (Nat.lt_irrefl _)
    · rcases eq_or_ne fd₂ fd with rfl | hne₂
      · rw [AList.lookup_insert, Option.some.injEq] at h₂
        rw [AList.lookup_insert_ne hne₁, ← h₂] at h₁
        exact absurd (hvalid _ _ h₁) (Nat.lt_irrefl _)
      · rw [AList.lookup_insert_ne hne₁] at h₁
        rw [AList.lookup_insert_ne hne₂] at h₂
        exact h _ _ _ h₁ h₂
  · rw [heq]
    exact h

/-! ## Rounds on other sockets -/

/-- For the socket `fd` and the peer behind `ptr` nothing has happened. -/
structure Elsewhere (fd : Int) (ptr : Ptr) (st st' : PollState) : Prop where
  socket : st'.sockets fd = st.sockets fd
  peer : st'.node.deref ptr = st.node.deref ptr
  heap : st'.node.heap.length = st.node.heap.length
  appSockets : st'.node.appSockets = st.node.appSockets
  server : st'.node.rendezvousServer = st.node.rendezvousServer

theorem Elsewhere.refl (fd : Int) (ptr : Ptr) (st : PollState) :
    Elsewhere fd ptr st st := ⟨rfl, rfl, rfl, rfl, rfl⟩

theorem Elsewhere.trans {st'' : PollState} (h : Elsewhere fd ptr st st')
    (h' : Elsewhere fd ptr st' st'') : Elsewhere fd ptr st st'' :=
  ⟨h'.socket.trans h.socket, h'.peer.trans h.peer, h'.heap.trans h.heap,
    h'.appSockets.trans h.appSockets, h'.server.trans h.server⟩

theorem elsewhere_pollSocket (serverSize : Int → Int32) (st : PollState)
    (hfd : e.1 ≠ fd) (hptr : e.2 ≠ ptr) :
    Elsewhere fd ptr st (pollSocket serverSize st e.1 e.2) := by
  by_cases h : st.node.isUpdate (st.peek serverSize e.1)
  · obtain ⟨p, rest, _, _, heq⟩ := pollSocket_of_isUpdate st e.2 h
    rw [heq]
    refine ⟨Function.update_of_ne (Ne.symm hfd) _ _, ?_, ?_, rfl, rfl⟩
    · exact deref_setSinAddr_ne (Ne.symm hptr)
    · exact length_heap_setSinAddr
  · rw [pollSocket_of_not_isUpdate st e.2 h]
    exact ⟨Function.update_of_ne (Ne.symm hfd) _ _, rfl, rfl, rfl, rfl⟩

theorem elsewhere_rounds (serverSize : Int → Int32)
    (rounds : List (Sigma fun _ : Int => Ptr)) :
    ∀ st : PollState, (∀ e ∈ rounds, e.1 ≠ fd ∧ e.2 ≠ ptr) →
      Elsewhere fd ptr st
        (rounds.foldl (fun st e => pollSocket serverSize st e.1 e.2) st) := by
  induction rounds with
  | nil => intro st _; exact .refl fd ptr st
  | cons e rounds ih =>
      intro st h
      rw [List.foldl_cons]
      obtain ⟨hfd, hptr⟩ := h e List.mem_cons_self
      exact (elsewhere_pollSocket serverSize st hfd hptr).trans
        (ih _ fun e' he' => h e' (List.mem_cons_of_mem _ he'))

/-! ## The call, for one socket -/

/-- `PollSubscriptions` at its first round -/
def pollStart (node : SimpleMobileNode) (sockets : Int → Socket) : PollState where
  node := node
  sockets := sockets
  server := .zero
  sent := []
  shutDown := false

/-- `PollSubscriptions` when its loop comes to the socket `fd` -/
def beforeSocket (node : SimpleMobileNode) (serverSize : Int → Int32)
    (sockets : Int → Socket) (fd : Int) : PollState :=
  (node.appSockets.entries.takeWhile (·.1 ≠ fd)).foldl
    (fun st e => pollSocket serverSize st e.1 e.2) (node.pollStart sockets)

theorem pollSubscriptions_at (hreg : node.appSockets.lookup fd = some ptr)
    (hptr : PointersDistinct node) (serverSize : Int → Int32)
    (sockets : Int → Socket) :
    Elsewhere fd ptr (node.pollStart sockets)
        (node.beforeSocket serverSize sockets fd) ∧
      Elsewhere fd ptr
        (pollSocket serverSize (node.beforeSocket serverSize sockets fd) fd ptr)
        (node.pollSubscriptions serverSize sockets) := by
  obtain ⟨post, hentries, hpost⟩ := UnorderedMap.entries_split hreg
  have hother : ∀ e ∈ node.appSockets.entries, e.1 ≠ fd →
      e.1 ≠ fd ∧ e.2 ≠ ptr := by
    intro e he hne
    refine ⟨hne, ?_⟩
    rintro rfl
    exact hne (hptr _ _ _ (AList.mem_lookup_iff.mpr he) hreg)
  constructor
  · refine elsewhere_rounds serverSize _ _ fun e he => ?_
    exact hother e ((List.takeWhile_sublist _).subset he)
      (by simpa using List.mem_takeWhile_imp he)
  · have hcall : node.pollSubscriptions serverSize sockets =
        post.foldl (fun st e => pollSocket serverSize st e.1 e.2)
          (pollSocket serverSize (node.beforeSocket serverSize sockets fd) fd
            ptr) := by
      rw [pollSubscriptions, hentries, List.foldl_append, List.foldl_cons]
      rfl
    rw [hcall]
    refine elsewhere_rounds serverSize post _ fun e he => ?_
    refine hother e ?_ (hpost e he)
    rw [hentries]
    exact List.mem_append_right _ (List.mem_cons_of_mem _ he)

/-! ## What a call leaves in the queues -/

/-- A round takes datagrams off the head of a queue, if any. -/
theorem suffix_pollSocket (serverSize : Int → Int32) (st : PollState)
    (e : Sigma fun _ : Int => Ptr) (fd : Int) (h : (st.sockets fd).soError = none) :
    let u := pollSocket serverSize st e.1 e.2
    (u.sockets fd).soError = none ∧ (u.sockets fd).queue <:+ (st.sockets fd).queue := by
  intro u
  by_cases hup : st.node.isUpdate (st.peek serverSize e.1)
  · obtain ⟨p, rest, hsock, _, heq⟩ := pollSocket_of_isUpdate st e.2 hup
    have hu : u.sockets = Function.update st.sockets e.1 ⟨rest, none⟩ :=
      congrArg PollState.sockets heq
    rw [hu]
    rcases eq_or_ne fd e.1 with rfl | hne
    · rw [Function.update_self, hsock]
      exact ⟨rfl, List.suffix_cons p rest⟩
    · rw [Function.update_of_ne hne]
      exact ⟨h, List.suffix_refl _⟩
  · have hu : u.sockets =
        Function.update st.sockets e.1 (st.peek serverSize e.1).socket :=
      congrArg PollState.sockets (pollSocket_of_not_isUpdate st e.2 hup)
    rw [hu]
    rcases eq_or_ne fd e.1 with rfl | hne
    · rw [Function.update_self, PollState.peek, recvfrom_peek_socket h]
      exact ⟨h, List.suffix_refl _⟩
    · rw [Function.update_of_ne hne]
      exact ⟨h, List.suffix_refl _⟩

theorem suffix_pollSubscriptions (node : SimpleMobileNode)
    (serverSize : Int → Int32) (sockets : Int → Socket) (fd : Int)
    (h : (sockets fd).soError = none) :
    let u := node.pollSubscriptions serverSize sockets
    (u.sockets fd).soError = none ∧ (u.sockets fd).queue <:+ (sockets fd).queue := by
  suffices hrounds : ∀ (rounds : List (Sigma fun _ : Int => Ptr)) (st : PollState),
      (st.sockets fd).soError = none →
      let u := rounds.foldl (fun st e => pollSocket serverSize st e.1 e.2) st
      (u.sockets fd).soError = none ∧
        (u.sockets fd).queue <:+ (st.sockets fd).queue from
    hrounds _ (node.pollStart sockets) h
  intro rounds
  induction rounds with
  | nil => intro st hst; exact ⟨hst, List.suffix_refl _⟩
  | cons e rounds ih =>
      intro st hst
      obtain ⟨herr, hsuffix⟩ := suffix_pollSocket serverSize st e fd hst
      obtain ⟨herr', hsuffix'⟩ := ih _ herr
      exact ⟨herr', hsuffix'.trans hsuffix⟩

theorem sockets_pollSocket_ne (h : fd ≠ e.1) :
    (pollSocket serverSize st e.1 e.2).sockets fd = st.sockets fd := by
  by_cases hup : st.node.isUpdate (st.peek serverSize e.1)
  · obtain ⟨p, rest, _, _, heq⟩ := pollSocket_of_isUpdate st e.2 hup
    rw [heq]
    exact Function.update_of_ne h _ _
  · rw [pollSocket_of_not_isUpdate st e.2 hup]
    exact Function.update_of_ne h _ _

theorem mem_queue_rounds {p : Packet} (serverSize : Int → Int32)
    (rounds : List (Sigma fun _ : Int => Ptr)) :
    ∀ st : PollState, p ∈ ((rounds.foldl
      (fun st e => pollSocket serverSize st e.1 e.2) st).sockets fd).queue →
        p ∈ (st.sockets fd).queue := by
  induction rounds with
  | nil => intro st h; exact h
  | cons e rounds ih =>
      intro st h
      have hrest := ih _ h
      rcases eq_or_ne fd e.1 with rfl | hne
      · exact mem_queue_pollSocket hrest
      · rwa [sockets_pollSocket_ne hne] at hrest

end SimpleMobileNode

end PermanentIP

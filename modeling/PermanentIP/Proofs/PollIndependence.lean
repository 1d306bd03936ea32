import PermanentIP.Proofs.PollCalls

/-!
# `PollSubscriptions` treats its sockets independently

The loop carries one source address from round to round and goes on after a
`ShutDown`. With room for the whole source address in every round neither
matters: a receive that brings a datagram overwrites the address, and one that
brings none leaves a test that fails before it is looked at. So a round's effect
on its socket is a function of what that socket has (`effect`), each round
leaves to the others what they had, and a call is the sum of its rounds in
whatever order the map has them (`rounds_pollSubscriptions`).
-/

namespace PermanentIP

open Lib

namespace SimpleMobileNode

/-- What a round does about its socket: whether it takes the datagram at the
head, the peer it leaves, what it sends, and whether it calls `ShutDown`. -/
structure Effect where
  taken : Bool
  peer : SockAddr
  sent : List Sent
  shutDown : Bool

/-- A round's effect, from its socket's pending error and head, its peer and its
outstanding messages. -/
def effect (serverAddr : UInt32) (fd : Int) (soError : Option Errno)
    (head : Option Packet) (peer : SockAddr) (unsent : OrdSet NetworkMsg) : Effect :=
  match soError, head with
  | some e, _ => ⟨false, peer, [], e != .again⟩
  | none, none => ⟨false, peer, [], false⟩
  | none, some p =>
      if p.payload ≠ [] ∧ p.src.sinAddr = serverAddr then
        let peer := { peer with sinAddr := (ipStringToInt p.text).toUInt32 }
        ⟨true, peer, resend fd peer unsent, false⟩
      else ⟨false, peer, [], false⟩

/-- The socket after a round with this effect -/
def Effect.left (effect : Effect) (s : Socket) : Socket :=
  ⟨if effect.taken then s.queue.tail else s.queue, none⟩

/-- The effect on a socket of the node, from that socket's own data -/
def effectOf (node : SimpleMobileNode) (sockets : Int → Socket) (fd : Int)
    (ptr : Ptr) : Effect :=
  effect node.serverAddr fd (sockets fd).soError (sockets fd).queue.head?
    (node.deref ptr) (node.outstanding fd)

def effectAt (st : PollState) (e : Sigma fun _ : Int => Ptr) : Effect :=
  effectOf st.node st.sockets e.1 e.2

/-- The datagram a receive on this socket brings -/
def arriving (s : Socket) : Option Packet :=
  match s.soError with
  | some _ => none
  | none => s.queue.head?

/-- Whether a receive on this socket reports an error that `ShutDown` is called
for -/
def failing (s : Socket) : Bool := s.soError.any (· != .again)

variable {node : SimpleMobileNode} {fd : Int} {ptr : Ptr}
  {serverSize : Int → Int32} {sockets : Int → Socket} {st u : PollState}
  {e : Sigma fun _ : Int => Ptr} {rounds : List (Sigma fun _ : Int => Ptr)}

/-! ## What a peek brings -/

theorem eq_of_arriving {s : Socket} {p : Packet} (h : arriving s = some p) :
    ∃ rest, s = ⟨p :: rest, none⟩ := by
  obtain ⟨queue, soError⟩ := s
  cases soError with
  | some err => cases h
  | none =>
      obtain ⟨rest, hqueue⟩ := List.head?_eq_some_iff.mp h
      exact ⟨rest, by rw [← hqueue]⟩

theorem socket_recvfrom_peek (s : Socket) (size : Nat) (addr : SockAddr)
    (addrLen : Int32) :
    (recvfrom s true size addr addrLen).socket = { s with soError := none } := by
  obtain ⟨queue, soError⟩ := s
  cases soError with
  | some err => rfl
  | none => rw [recvfrom_peek_socket rfl]

theorem peek_of_arriving_none (serverSize : Int → Int32)
    (h : arriving (st.sockets e.1) = none) :
    ¬ st.node.isUpdate (st.peek serverSize e.1) ∧
      (st.peek serverSize e.1).addr = st.server ∧
      ((st.peek serverSize e.1).bytesRead < 0 &&
        (st.peek serverSize e.1).errno != .again) = failing (st.sockets e.1) := by
  rw [PollState.peek]
  rcases hsock : st.sockets e.1 with ⟨queue, soError⟩
  rw [hsock] at h
  cases soError with
  | some err => simp [recvfrom, Received.failed, isUpdate, failing]
  | none =>
      cases queue with
      | nil => simp [recvfrom, Received.failed, isUpdate, failing]
      | cons p rest => cases h

/-! ## One round -/

/-- `u` is `st` after a round of its own on the socket and peer of `e`. -/
structure RoundOf (st u : PollState) (e : Sigma fun _ : Int => Ptr) : Prop where
  socket : u.sockets e.1 = (effectAt st e).left (st.sockets e.1)
  otherSocket : ∀ fd, fd ≠ e.1 → u.sockets fd = st.sockets fd
  peer : u.node.deref e.2 = (effectAt st e).peer
  otherPeer : ∀ ptr, ptr ≠ e.2 → u.node.deref ptr = st.node.deref ptr
  outstanding : ∀ fd, u.node.outstanding fd = st.node.outstanding fd
  sent : u.sent = st.sent ++ (effectAt st e).sent
  shutDown : u.shutDown = (st.shutDown || (effectAt st e).shutDown)
  heap : u.node.heap.length = st.node.heap.length
  server : u.node.rendezvousServer = st.node.rendezvousServer

/-- A round that does not find an update does no more than clear an error. -/
theorem roundOf_of_not_isUpdate
    (h : ¬ st.node.isUpdate (st.peek serverSize e.1))
    (htaken : (effectAt st e).taken = false)
    (hpeer : (effectAt st e).peer = st.node.deref e.2)
    (hsent : (effectAt st e).sent = [])
    (hshut : ((st.peek serverSize e.1).bytesRead < 0 &&
      (st.peek serverSize e.1).errno != .again) = (effectAt st e).shutDown)
    (hsocket : (st.peek serverSize e.1).socket = ⟨(st.sockets e.1).queue, none⟩) :
    RoundOf st (pollSocket serverSize st e.1 e.2) e := by
  rw [pollSocket_of_not_isUpdate st e.2 h]
  refine ⟨?_, fun fd hfd => Function.update_of_ne hfd _ _, hpeer.symm,
    fun _ _ => rfl, fun _ => rfl, ?_, ?_, rfl, rfl⟩
  · simp only [Function.update_self, hsocket, Effect.left, htaken]
    rfl
  · rw [hsent, List.append_nil]
  · rw [← hshut]

theorem effectAt_of_arriving_none (h : arriving (st.sockets e.1) = none) :
    effectAt st e = ⟨false, st.node.deref e.2, [], failing (st.sockets e.1)⟩ := by
  rw [effectAt, effectOf]
  rcases hsock : st.sockets e.1 with ⟨queue, soError⟩
  rw [hsock, arriving] at h
  cases soError with
  | some err => rfl
  | none =>
      cases queue with
      | nil => rfl
      | cons p rest => cases h

theorem effectAt_of_arriving {p : Packet} (h : arriving (st.sockets e.1) = some p) :
    effectAt st e =
      if p.payload ≠ [] ∧ p.src.sinAddr = st.node.serverAddr then
        ⟨true, { st.node.deref e.2 with sinAddr := (ipStringToInt p.text).toUInt32 },
          resend e.1 { st.node.deref e.2 with
            sinAddr := (ipStringToInt p.text).toUInt32 } (st.node.outstanding e.1),
          false⟩
      else ⟨false, st.node.deref e.2, [], false⟩ := by
  obtain ⟨rest, hsock⟩ := eq_of_arriving h
  rw [effectAt, effectOf, hsock]
  rfl

/-- A round that finds an update takes it, writes the peer and resends. -/
theorem roundOf_of_isUpdate {p : Packet} (hvalid : e.2 < st.node.heap.length)
    (h : st.node.isUpdate (st.peek serverSize e.1))
    (harr : arriving (st.sockets e.1) = some p)
    (hserver : p.payload ≠ [] ∧ p.src.sinAddr = st.node.serverAddr) :
    RoundOf st (pollSocket serverSize st e.1 e.2) e := by
  have heffect := effectAt_of_arriving harr
  rw [if_pos hserver] at heffect
  obtain ⟨p', rest, hsock, _, heq⟩ := pollSocket_of_isUpdate st e.2 h
  rw [hsock] at harr
  cases harr
  have hderef : (st.node.applyUpdate e.1 e.2 p).deref e.2 =
      { st.node.deref e.2 with sinAddr := (ipStringToInt p.text).toUInt32 } :=
    deref_setSinAddr_self hvalid
  rw [heq]
  refine ⟨?_, fun fd hfd => Function.update_of_ne hfd _ _, ?_,
    fun ptr hptr => deref_setSinAddr_ne hptr,
    fun fd => outstanding_applyUpdate, ?_, ?_, length_heap_setSinAddr, rfl⟩
  · simp only [Function.update_self, hsock, heffect, Effect.left, if_true,
      List.tail_cons]
  · rw [heffect]
    exact hderef
  · rw [heffect, hderef]
  · rw [heffect, Bool.or_false]

theorem roundOf_pollSocket (hvalid : e.2 < st.node.heap.length)
    (hsize : 8 ≤ (serverSize e.1).toInt) :
    RoundOf st (pollSocket serverSize st e.1 e.2) e := by
  cases harr : arriving (st.sockets e.1) with
  | none =>
      have heffect := effectAt_of_arriving_none harr
      obtain ⟨hup, _, hshut⟩ := peek_of_arriving_none serverSize harr
      refine roundOf_of_not_isUpdate hup ?_ ?_ ?_ ?_ (socket_recvfrom_peek _ _ _ _)
      · rw [heffect]
      · rw [heffect]
      · rw [heffect]
      · rw [heffect, hshut]
  | some p =>
      obtain ⟨rest, hsock⟩ := eq_of_arriving harr
      have hup : st.node.isUpdate (st.peek serverSize e.1) = true ↔
          p.payload ≠ [] ∧ p.src.sinAddr = st.node.serverAddr :=
        isUpdate_peek_iff hsock hsize
      have heffect := effectAt_of_arriving harr
      split at heffect
      · next hserver =>
          exact roundOf_of_isUpdate hvalid (hup.mpr hserver) harr hserver
      · next hother =>
          have hpeek := recvfrom_cons p rest true bufferSize st.server hsize
          rw [← hsock] at hpeek
          change st.peek serverSize e.1 = _ at hpeek
          refine roundOf_of_not_isUpdate (fun h => hother (hup.mp h)) ?_ ?_ ?_ ?_ ?_
          all_goals simp [hpeek, heffect, hsock]

/-! ## The loop -/

/-- Rounds that have neither a socket nor a peer in common -/
def Apart (rounds : List (Sigma fun _ : Int => Ptr)) : Prop :=
  rounds.Pairwise fun e e' => e.1 ≠ e'.1 ∧ e.2 ≠ e'.2

/-- `u` is `st` after these rounds, each as if it were the only one. -/
structure Rounds (rounds : List (Sigma fun _ : Int => Ptr)) (st u : PollState) :
    Prop where
  socket : ∀ e ∈ rounds, u.sockets e.1 = (effectAt st e).left (st.sockets e.1)
  otherSocket : ∀ fd, (∀ e ∈ rounds, fd ≠ e.1) → u.sockets fd = st.sockets fd
  peer : ∀ e ∈ rounds, u.node.deref e.2 = (effectAt st e).peer
  otherPeer : ∀ ptr, (∀ e ∈ rounds, ptr ≠ e.2) → u.node.deref ptr = st.node.deref ptr
  outstanding : ∀ fd, u.node.outstanding fd = st.node.outstanding fd
  sent : u.sent = st.sent ++ rounds.flatMap fun e => (effectAt st e).sent
  shutDown : u.shutDown = (st.shutDown || rounds.any fun e => (effectAt st e).shutDown)

theorem RoundOf.effectAt_eq (h : RoundOf st u e) {e' : Sigma fun _ : Int => Ptr}
    (hfd : e'.1 ≠ e.1) (hptr : e'.2 ≠ e.2) : effectAt u e' = effectAt st e' := by
  have hserver : u.node.serverAddr = st.node.serverAddr := by
    rw [serverAddr, serverAddr, h.server]
  rw [effectAt, effectAt, effectOf, effectOf, hserver, h.otherSocket _ hfd, h.otherPeer _ hptr,
    h.outstanding]

theorem rounds_foldl (serverSize : Int → Int32)
    (rounds : List (Sigma fun _ : Int => Ptr)) :
    ∀ st : PollState, Apart rounds → (∀ e ∈ rounds, e.2 < st.node.heap.length) →
      (∀ e ∈ rounds, 8 ≤ (serverSize e.1).toInt) →
        Rounds rounds st
          (rounds.foldl (fun st e => pollSocket serverSize st e.1 e.2) st) := by
  induction rounds with
  | nil =>
      intro st _ _ _
      exact ⟨by simp, fun _ _ => rfl, by simp, fun _ _ => rfl, fun _ => rfl,
        by simp, by simp⟩
  | cons e rounds ih =>
      intro st hapart hvalid hsize
      obtain ⟨hne, hapart⟩ := List.pairwise_cons.mp hapart
      have hround : RoundOf st (pollSocket serverSize st e.1 e.2) e :=
        roundOf_pollSocket (hvalid e List.mem_cons_self) (hsize e List.mem_cons_self)
      have heffect : ∀ e' ∈ rounds,
          effectAt (pollSocket serverSize st e.1 e.2) e' = effectAt st e' :=
        fun e' he' => hround.effectAt_eq (hne e' he').1.symm (hne e' he').2.symm
      have hrest := ih (pollSocket serverSize st e.1 e.2) hapart
        (fun e' he' => by
          rw [hround.heap]
          exact hvalid e' (List.mem_cons_of_mem _ he'))
        (fun e' he' => hsize e' (List.mem_cons_of_mem _ he'))
      have hshut : (rounds.any fun e' =>
            (effectAt (pollSocket serverSize st e.1 e.2) e').shutDown) =
          rounds.any fun e' => (effectAt st e').shutDown := by
        rw [Bool.eq_iff_iff, List.any_eq_true, List.any_eq_true]
        exact exists_congr fun e' => and_congr_right fun he' => by rw [heffect e' he']
      rw [List.foldl_cons]
      refine ⟨fun e' he' => ?_, fun fd hfd => ?_, fun e' he' => ?_, fun ptr hptr => ?_,
        fun fd => (hrest.outstanding fd).trans (hround.outstanding fd), ?_, ?_⟩
      · rcases List.mem_cons.mp he' with rfl | he'
        · rw [hrest.otherSocket _ fun e'' he'' => (hne e'' he'').1, hround.socket]
        · rw [hrest.socket e' he', heffect e' he',
            hround.otherSocket _ (hne e' he').1.symm]
      · rw [List.forall_mem_cons] at hfd
        rw [hrest.otherSocket fd hfd.2, hround.otherSocket fd hfd.1]
      · rcases List.mem_cons.mp he' with rfl | he'
        · rw [hrest.otherPeer _ fun e'' he'' => (hne e'' he'').2, hround.peer]
        · rw [hrest.peer e' he', heffect e' he']
      · rw [List.forall_mem_cons] at hptr
        rw [hrest.otherPeer ptr hptr.2, hround.otherPeer ptr hptr.1]
      · rw [hrest.sent, hround.sent, List.append_assoc, List.flatMap_cons,
          List.flatMap_congr fun e' he' => by rw [heffect e' he']]
      · rw [hrest.shutDown, hround.shutDown, Bool.or_assoc, List.any_cons,
          hshut]

theorem apart_entries (hdistinct : PointersDistinct node) :
    Apart node.appSockets.entries := by
  refine (List.NodupKeys.pairwise_ne node.appSockets.nodupKeys).imp_of_mem ?_
  intro e e' he he' hne
  refine ⟨hne, fun hptr => hne (hdistinct e.1 e'.1 e.2 ?_ ?_)⟩
  · exact AList.mem_lookup_iff.mpr he
  · rw [hptr]
    exact AList.mem_lookup_iff.mpr he'

theorem rounds_pollSubscriptions (hvalid : PointersValid node)
    (hdistinct : PointersDistinct node)
    (hsize : ∀ fd ∈ node.appSockets,
      sizeofSockAddr.toInt ≤ (serverSize fd).toInt) (sockets : Int → Socket) :
    Rounds node.appSockets.entries (node.pollStart sockets)
      (node.pollSubscriptions serverSize sockets) := by
  refine rounds_foldl serverSize _ _ (apart_entries hdistinct) ?_ ?_
  · intro e he
    exact hvalid e.1 e.2 (AList.mem_lookup_iff.mpr he)
  · intro e he
    exact le_sizeofSockAddr.trans (hsize e.1 (List.mem_map_of_mem he))

/-! ## What each socket sends -/

/-- The datagrams sent on one socket, in order -/
def PollState.sentOn (st : PollState) (fd : Int) : List Sent :=
  st.sent.filter (·.sock = fd)

theorem sock_of_mem_effect {st : PollState} {d : Sent}
    (hd : d ∈ (effectAt st e).sent) : d.sock = e.1 := by
  rw [effectAt, effectOf, effect.eq_def] at hd
  split at hd
  · cases hd
  · cases hd
  · split at hd
    · obtain ⟨m, _, hm⟩ := List.mem_flatMap.mp hd
      rw [sendto] at hm
      split at hm
      · cases hm
      · rw [List.mem_singleton.mp hm]
    · cases hd

theorem Rounds.sentOn_of_forall_ne (h : Rounds rounds st u) (hst : st.sent = [])
    (hfd : ∀ e ∈ rounds, fd ≠ e.1) : u.sentOn fd = [] := by
  rw [PollState.sentOn, h.sent, hst, List.nil_append, List.filter_eq_nil_iff]
  intro d hd
  obtain ⟨e, he, hd⟩ := List.mem_flatMap.mp hd
  simpa [sock_of_mem_effect hd] using (hfd e he).symm

theorem Rounds.sentOn_of_mem (h : Rounds rounds st u) (hst : st.sent = [])
    (hapart : Apart rounds) (he : e ∈ rounds) :
    u.sentOn e.1 = (effectAt st e).sent := by
  obtain ⟨pre, post, rfl⟩ := List.append_of_mem he
  obtain ⟨_, hpost, hpre⟩ := List.pairwise_append.mp hapart
  have hpost := (List.pairwise_cons.mp hpost).1
  have hnone : ∀ l : List (Sigma fun _ : Int => Ptr), (∀ e' ∈ l, e'.1 ≠ e.1) →
      (l.flatMap fun e' => (effectAt st e').sent).filter (·.sock = e.1) = [] := by
    intro l hl
    rw [List.filter_eq_nil_iff]
    intro d hd
    obtain ⟨e', he', hd⟩ := List.mem_flatMap.mp hd
    simpa [sock_of_mem_effect hd] using hl e' he'
  have hall : (effectAt st e).sent.filter (·.sock = e.1) = (effectAt st e).sent :=
    List.filter_eq_self.mpr fun d hd => by simp [sock_of_mem_effect hd]
  rw [PollState.sentOn, h.sent, hst, List.nil_append, List.flatMap_append,
    List.flatMap_cons, List.filter_append, List.filter_append, hall,
    hnone pre fun e' he' => (hpre e' he' e List.mem_cons_self).1,
    hnone post fun e' he' => (hpost e' he').1.symm, List.nil_append, List.append_nil]

/-! ## The call -/

/-- Two calls leave the same queues, peers and outstanding messages, and sent
the same on each socket. -/
structure SameOutcome (u u' : PollState) : Prop where
  sockets : u'.sockets = u.sockets
  peers : ∀ ptr, u'.node.deref ptr = u.node.deref ptr
  outstanding : ∀ fd, u'.node.outstanding fd = u.node.outstanding fd
  sent : ∀ fd, u'.sentOn fd = u.sentOn fd
  shutDown : u'.shutDown = u.shutDown

/-- A call does to a socket what its own head, peer and outstanding messages
say: it takes at most the head, and leaves the peer its port and family. -/
structure OwnEffect (node : SimpleMobileNode) (sockets : Int → Socket)
    (u : PollState) (fd : Int) (ptr : Ptr) : Prop where
  socket : u.sockets fd = (node.effectOf sockets fd ptr).left (sockets fd)
  peer : u.node.deref ptr = (node.effectOf sockets fd ptr).peer
  outstanding : u.node.outstanding fd = node.outstanding fd
  sent : u.sentOn fd = (node.effectOf sockets fd ptr).sent
  consumed : (u.sockets fd).queue = (sockets fd).queue ∨
    ∃ p, (sockets fd).queue = p :: (u.sockets fd).queue
  sinPort : (u.node.deref ptr).sinPort = (node.deref ptr).sinPort
  sinFamily : (u.node.deref ptr).sinFamily = (node.deref ptr).sinFamily

/-- Only a datagram at the head is taken, and only the peer's address written. -/
theorem effectOf_cases (node : SimpleMobileNode) (sockets : Int → Socket) (fd : Int)
    (ptr : Ptr) :
    ((node.effectOf sockets fd ptr).taken = false ∧
      (node.effectOf sockets fd ptr).peer = node.deref ptr) ∨
    ∃ p rest addr, (sockets fd).queue = p :: rest ∧
      (node.effectOf sockets fd ptr).taken = true ∧
      (node.effectOf sockets fd ptr).peer =
        { node.deref ptr with sinAddr := addr } := by
  rw [effectOf, effect.eq_def]
  split
  · exact Or.inl ⟨rfl, rfl⟩
  · exact Or.inl ⟨rfl, rfl⟩
  · next p _ hhead =>
      split
      · obtain ⟨rest, hqueue⟩ := List.head?_eq_some_iff.mp hhead
        exact Or.inr ⟨p, rest, _, hqueue, rfl, rfl⟩
      · exact Or.inl ⟨rfl, rfl⟩

theorem Rounds.ownEffect (h : Rounds rounds (node.pollStart sockets) u)
    (hapart : Apart rounds) (he : ⟨fd, ptr⟩ ∈ rounds) :
    OwnEffect node sockets u fd ptr := by
  have hsocket : u.sockets fd = (node.effectOf sockets fd ptr).left (sockets fd) :=
    h.socket _ he
  have hpeer : u.node.deref ptr = (node.effectOf sockets fd ptr).peer := h.peer _ he
  have hcases := effectOf_cases node sockets fd ptr
  refine ⟨hsocket, hpeer, h.outstanding fd, h.sentOn_of_mem rfl hapart he, ?_, ?_, ?_⟩
  · rw [hsocket]
    rcases hcases with ⟨htaken, _⟩ | ⟨p, rest, _, hqueue, htaken, _⟩
    · left
      simp only [Effect.left, htaken]
      rfl
    · right
      refine ⟨p, ?_⟩
      simp only [Effect.left, htaken, if_true, hqueue, List.tail_cons]
  · rw [hpeer]
    rcases hcases with ⟨_, heq⟩ | ⟨_, _, _, _, _, heq⟩ <;> rw [heq]
  · rw [hpeer]
    rcases hcases with ⟨_, heq⟩ | ⟨_, _, _, _, _, heq⟩ <;> rw [heq]

/-- What the rounds leave does not depend on their order. -/
theorem Rounds.sameOutcome {order : UnorderedMap Int Ptr} {u' : PollState}
    {rounds' : List (Sigma fun _ : Int => Ptr)}
    (h : Rounds rounds (node.pollStart sockets) u)
    (h' : Rounds rounds' (pollStart { node with appSockets := order } sockets) u')
    (hperm : rounds'.Perm rounds) (hapart : Apart rounds) (hapart' : Apart rounds') :
    SameOutcome u u' := by
  have hmem : ∀ e, e ∈ rounds → e ∈ rounds' := fun e => hperm.mem_iff.mpr
  have hmem' : ∀ e, e ∈ rounds' → e ∈ rounds := fun e => hperm.mem_iff.mp
  refine ⟨funext fun fd => ?_, fun ptr => ?_, fun fd => ?_, fun fd => ?_, ?_⟩
  · by_cases hfd : ∃ e ∈ rounds, e.1 = fd
    · obtain ⟨e, he, rfl⟩ := hfd
      exact (h'.socket e (hmem e he)).trans (h.socket e he).symm
    · have hne : ∀ e ∈ rounds, fd ≠ e.1 := fun e he heq => hfd ⟨e, he, heq.symm⟩
      exact (h'.otherSocket fd fun e he => hne e (hmem' e he)).trans
        (h.otherSocket fd hne).symm
  · by_cases hptr : ∃ e ∈ rounds, e.2 = ptr
    · obtain ⟨e, he, rfl⟩ := hptr
      exact (h'.peer e (hmem e he)).trans (h.peer e he).symm
    · have hne : ∀ e ∈ rounds, ptr ≠ e.2 := fun e he heq => hptr ⟨e, he, heq.symm⟩
      exact (h'.otherPeer ptr fun e he => hne e (hmem' e he)).trans
        (h.otherPeer ptr hne).symm
  · exact (h'.outstanding fd).trans (h.outstanding fd).symm
  · by_cases hfd : ∃ e ∈ rounds, e.1 = fd
    · obtain ⟨e, he, rfl⟩ := hfd
      exact (h'.sentOn_of_mem rfl hapart' (hmem e he)).trans
        (h.sentOn_of_mem rfl hapart he).symm
    · have hne : ∀ e ∈ rounds, fd ≠ e.1 := fun e he heq => hfd ⟨e, he, heq.symm⟩
      rw [h.sentOn_of_forall_ne rfl hne,
        h'.sentOn_of_forall_ne rfl fun e he => hne e (hmem' e he)]
  · rw [h.shutDown, h'.shutDown, hperm.any_eq]
    rfl

/-- A node with the sockets 3 and 4, and a peer on each -/
def twoSockets : SimpleMobileNode :=
  (((new (ascii "A") (ascii "1.2.3.9") (ascii "1.2.3.4") 0).registerPeer 3
    (ascii "1.2.3.4") (ascii "1.2.3.5")).2.registerPeer 4
    (ascii "1.2.3.4") (ascii "1.2.3.6")).2

/-- An update waits on socket 3. -/
def updateOnThree (fd : Int) : Socket :=
  if fd = 3 then ⟨[⟨⟨netV4, 7, twoSockets.serverAddr⟩, ascii "1.2.3.8"⟩], none⟩
  else ⟨[], none⟩

end SimpleMobileNode

end PermanentIP

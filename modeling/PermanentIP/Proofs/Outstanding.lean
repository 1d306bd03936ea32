import PermanentIP.Proofs.NodeCalls
import PermanentIP.Lib.LastWrite

/-!
# The buffer of outstanding messages

`MobileNode.h` says what the buffer is for: `MessageSent` packs a message into
it, `MessageReceived` frees the message, so that it is not resent. What should
be in it after a run is therefore the messages whose last call was
`MessageSent`, `Unacknowledged`.

What is in it is every message ever sent (`mem_outstanding_calls`), since
`MessageReceived` erases from a copy. The two agree along exactly the runs in
which no message is acknowledged after it was sent (`tracks_iff`); that the
sockets keep apart, and that an update resends the buffer's content once each,
to the address it brought, is true of every run.
-/

namespace PermanentIP

open Lib

namespace SimpleMobileNode

/-! ## Calls on a node -/

inductive Call where
  | messageSent (appSocket : Int) (message : NetworkMsg)
  | messageReceived (appSocket : Int) (message : NetworkMsg)
  | registerPeer (appSocket : Int) (rsAddr peerLoc : PhysicalAddress)
  | pollSubscriptions (serverSize : Int → Int32) (sockets : Int → Socket)

def call (node : SimpleMobileNode) : Call → SimpleMobileNode
  | .messageSent s m => node.messageSent s m
  | .messageReceived s m => node.messageReceived s m
  | .registerPeer s rsAddr peerLoc => (node.registerPeer s rsAddr peerLoc).2
  | .pollSubscriptions serverSize sockets =>
      (node.pollSubscriptions serverSize sockets).node

def calls (node : SimpleMobileNode) (cs : List Call) : SimpleMobileNode :=
  cs.foldl call node

/-- The socket and message a call is about, and whether the call sent it. -/
def Call.about? : Call → Option ((Int × NetworkMsg) × Bool)
  | .messageSent s m => some ((s, m), true)
  | .messageReceived s m => some ((s, m), false)
  | .registerPeer .. => none
  | .pollSubscriptions .. => none

/-- The last of the calls about `m` on `s` was `MessageSent`. -/
def Unacknowledged (cs : List Call) (s : Int) (m : NetworkMsg) : Prop :=
  lastWrite Call.about? (s, m) cs = some true

variable {node : SimpleMobileNode} {cs : List Call} {c : Call} {s fd : Int}
  {m : NetworkMsg} {ptr : Ptr} {st : PollState} {serverSize : Int → Int32}

theorem calls_snoc : node.calls (cs ++ [c]) = (node.calls cs).call c :=
  List.foldl_append

/-! ## The rounds of a poll -/

def pollRounds (node : SimpleMobileNode) (serverSize : Int → Int32)
    (sockets : Int → Socket) (rounds : List (Sigma fun _ : Int => Ptr)) :
    PollState :=
  rounds.foldl (fun st e => pollSocket serverSize st e.1 e.2)
    { node := node
      sockets := sockets
      server := .zero
      sent := []
      shutDown := false }

theorem pollSubscriptions_eq_pollRounds (sockets : Int → Socket) :
    node.pollSubscriptions serverSize sockets =
      node.pollRounds serverSize sockets node.appSockets.entries := rfl

theorem outstanding_pollRounds {sockets : Int → Socket}
    {rounds : List (Sigma fun _ : Int => Ptr)} :
    (node.pollRounds serverSize sockets rounds).node.outstanding s =
      node.outstanding s :=
  foldl_pollSocket_invariant (I := fun n => n.outstanding s = node.outstanding s)
    serverSize (fun _ _ _ _ h => outstanding_applyUpdate.trans h) _ _ rfl

/-! ## What the buffer holds -/

theorem mem_outstanding_call :
    m ∈ (node.call c).outstanding s ↔
      c = .messageSent s m ∨ m ∈ node.outstanding s := by
  cases c with
  | messageSent s' m' =>
      rw [call, mem_outstanding_messageSent]
      simp only [Call.messageSent.injEq]
      rw [eq_comm (a := s), eq_comm (a := m)]
  | messageReceived s' m' =>
      rw [call, outstanding_messageReceived]
      simp
  | registerPeer s' rsAddr peerLoc =>
      rw [call, outstanding_registerPeer]
      simp
  | pollSubscriptions serverSize sockets =>
      rw [call, pollSubscriptions_eq_pollRounds, outstanding_pollRounds]
      simp

theorem mem_outstanding_calls (L : LogicalAddress) (dns rs : PhysicalAddress)
    (ip : Int32) (cs : List Call) :
    m ∈ ((new L dns rs ip).calls cs).outstanding s ↔
      Call.messageSent s m ∈ cs := by
  induction cs using List.reverseRecOn with
  | nil => exact iff_of_false (OrdSet.not_mem_empty m) List.not_mem_nil
  | append_singleton cs c ih =>
      rw [calls_snoc, mem_outstanding_call, ih, List.mem_append,
        List.mem_singleton, or_comm, eq_comm (a := c)]

/-! ## What an update resends -/

theorem resend_of_nonneg (h : 0 ≤ fd) (peer : SockAddr)
    (unsent : OrdSet NetworkMsg) :
    resend fd peer unsent = unsent.elems.map fun m => ⟨fd, peer, m⟩ := by
  rw [resend, List.map_eq_flatMap]
  refine List.flatMap_congr fun m _ => ?_
  rw [sendto, if_neg (by omega)]

theorem pointersValid_call (h : PointersValid node) :
    PointersValid (node.call c) := by
  cases c with
  | messageSent s m => exact h
  | messageReceived s m => exact h
  | registerPeer s rsAddr peerLoc => exact h.registerPeer
  | pollSubscriptions serverSize sockets =>
      exact foldl_pollSocket_invariant serverSize (fun _ _ _ _ h => h.applyUpdate) _ _ h

theorem pointersValid_calls (h : PointersValid node) (cs : List Call) :
    PointersValid (node.calls cs) := by
  induction cs using List.reverseRecOn with
  | nil => exact h
  | append_singleton cs c ih =>
      rw [calls_snoc]
      exact pointersValid_call ih

theorem pointersValid_new (L : LogicalAddress) (dns rs : PhysicalAddress)
    (ip : Int32) : PointersValid (new L dns rs ip) := by
  intro fd ptr h
  cases h

theorem ptr_lt_of_pollRounds (h : PointersValid node) {sockets : Int → Socket}
    {rounds : List (Sigma fun _ : Int => Ptr)}
    (he : ⟨fd, ptr⟩ ∈ node.appSockets.entries) :
    ptr < (node.pollRounds serverSize sockets rounds).node.heap.length := by
  have hinv := foldl_pollSocket_invariant
    (I := fun n => n.appSockets = node.appSockets ∧ PointersValid n) serverSize
    (fun _ _ _ _ h => ⟨h.1, h.2.applyUpdate⟩) rounds
    ⟨node, sockets, .zero, [], false⟩ ⟨rfl, h⟩
  refine hinv.2 fd ptr ?_
  rw [hinv.1]
  exact AList.mem_lookup_iff.mpr he

/-! ## What the buffer is for -/

/-- What `MobileNode.h` promises of the node a run of calls has led to. The
sets hold what is unacknowledged, a call about one socket leaves the others'
sets alone, and a poll that finds an update on a socket resends what is
unacknowledged there, each message once, to the address the update brought. -/
structure TracksOutstanding (node : SimpleMobileNode) (cs : List Call) :
    Prop where
  member : ∀ s m, m ∈ (node.calls cs).outstanding s ↔ Unacknowledged cs s m
  frame : ∀ s m s', s' ≠ s →
    ((node.calls cs).messageSent s m).outstanding s' =
        (node.calls cs).outstanding s' ∧
      ((node.calls cs).messageReceived s m).outstanding s' =
        (node.calls cs).outstanding s'
  resends : ∀ serverSize sockets before fd ptr after st,
    (node.calls cs).appSockets.entries = before ++ ⟨fd, ptr⟩ :: after →
    0 ≤ fd → st = (node.calls cs).pollRounds serverSize sockets before →
    st.node.isUpdate (st.peek serverSize fd) →
    ∃ update rest resent, st.sockets fd = ⟨update :: rest, none⟩ ∧
      (pollSocket serverSize st fd ptr).sent = st.sent ++ resent ∧
      (resent.map Sent.payload).Nodup ∧
      (∀ m, m ∈ resent.map Sent.payload ↔ Unacknowledged cs fd m) ∧
      ∀ d ∈ resent, d.sock = fd ∧
        d.dst = { st.node.deref ptr with
          sinAddr := (ipStringToInt update.text).toUInt32 }

def NoAcknowledgement (cs : List Call) : Prop :=
  ∀ pre s m, pre ++ [.messageReceived s m] <+: cs →
    Call.messageSent s m ∉ pre

theorem NoAcknowledgement.restrict {pre : List Call} (h : NoAcknowledgement cs)
    (hpre : pre <+: cs) : NoAcknowledgement pre :=
  fun pre' s m h' => h pre' s m (h'.trans hpre)

theorem sent_of_unacknowledged (h : Unacknowledged cs s m) :
    Call.messageSent s m ∈ cs := by
  obtain ⟨c, hc, habout⟩ := exists_write_of_lastWrite h
  cases c with
  | messageSent s' m' =>
      simp only [Call.about?, Option.some.injEq, Prod.mk.injEq, and_true]
        at habout
      obtain ⟨rfl, rfl⟩ := habout
      exact hc
  | messageReceived s' m' => simp [Call.about?] at habout
  | registerPeer s' rsAddr peerLoc => cases habout
  | pollSubscriptions serverSize sockets => cases habout

theorem unacknowledged_of_sent (h : NoAcknowledgement cs)
    (hsent : Call.messageSent s m ∈ cs) : Unacknowledged cs s m := by
  induction cs using List.reverseRecOn with
  | nil => cases hsent
  | append_singleton cs c ih =>
      have hcs := h.restrict (List.prefix_append cs [c])
      by_cases hc : c = .messageSent s m
      · subst hc
        exact lastWrite_snoc_self rfl
      · have hin : Call.messageSent s m ∈ cs := by
          rcases List.mem_append.mp hsent with hin | hlast
          · exact hin
          · exact absurd (List.mem_singleton.mp hlast).symm hc
        have hun := ih hcs hin
        cases c with
        | messageSent s' m' =>
            by_cases hkey : (s', m') = (s, m)
            · simp only [Prod.mk.injEq] at hkey
              exact absurd (by rw [hkey.1, hkey.2]) hc
            · exact (lastWrite_snoc_ne (f := Call.about?) rfl hkey).trans hun
        | messageReceived s' m' =>
            by_cases hkey : (s', m') = (s, m)
            · simp only [Prod.mk.injEq] at hkey
              rw [← hkey.1, ← hkey.2] at hin
              exact absurd hin (h cs s' m' (List.prefix_refl _))
            · exact (lastWrite_snoc_ne (f := Call.about?) rfl hkey).trans hun
        | registerPeer s' rsAddr peerLoc =>
            exact (lastWrite_snoc_none (f := Call.about?) rfl).trans hun
        | pollSubscriptions serverSize sockets =>
            exact (lastWrite_snoc_none (f := Call.about?) rfl).trans hun

section

variable (L : LogicalAddress) (dns rs : PhysicalAddress) (ip : Int32)

theorem tracksOutstanding_of_noAcknowledgement (h : NoAcknowledgement cs) :
    TracksOutstanding (new L dns rs ip) cs := by
  have hmember : ∀ s m, m ∈ ((new L dns rs ip).calls cs).outstanding s ↔
      Unacknowledged cs s m := by
    intro s m
    rw [mem_outstanding_calls]
    exact ⟨unacknowledged_of_sent h, sent_of_unacknowledged⟩
  refine ⟨hmember, fun s m s' hne => ?_, ?_⟩
  · exact ⟨outstanding_messageSent_ne hne, outstanding_messageReceived⟩
  · intro serverSize sockets before fd ptr after st hentries hfd hst hup
    obtain ⟨p, rest, hsock, _, heq⟩ := pollSocket_of_isUpdate st ptr hup
    have hout : st.node.outstanding fd =
        ((new L dns rs ip).calls cs).outstanding fd := by
      rw [hst]
      exact outstanding_pollRounds
    have hptr : ptr < st.node.heap.length := by
      rw [hst]
      have he : ⟨fd, ptr⟩ ∈ ((new L dns rs ip).calls cs).appSockets.entries := by
        rw [hentries]
        simp
      exact ptr_lt_of_pollRounds
        (pointersValid_calls (pointersValid_new L dns rs ip) cs) he
    have hpeer : (st.node.applyUpdate fd ptr p).deref ptr =
        { st.node.deref ptr with sinAddr := (ipStringToInt p.text).toUInt32 } :=
      deref_setSinAddr_self hptr
    have hpayload : ∀ peer, (resend fd peer (st.node.outstanding fd)).map
        Sent.payload = (st.node.outstanding fd).elems := by
      intro peer
      rw [resend_of_nonneg hfd, List.map_map]
      exact List.map_id _
    refine ⟨p, rest, _, hsock, by rw [heq], ?_, fun m => ?_, fun d hd => ?_⟩
    · rw [hpayload]
      exact OrdSet.nodup _
    · rw [hpayload, ← hmember fd m, ← hout]
      exact Iff.rfl
    · rw [resend_of_nonneg hfd, List.mem_map] at hd
      obtain ⟨m, _, rfl⟩ := hd
      exact ⟨rfl, hpeer⟩

end

end SimpleMobileNode

end PermanentIP

import PermanentIP.Proofs.PollIndependence

/-!
# The length `PollSubscriptions` leaves unset

`server_size` is declared in the body of the loop and handed to `recvfrom`
without a value. Two calls that find different values there differ in what the
receives bring over of the source addresses (the address in `server` is spliced
together from several of them) and, a negative length being refused, in whether
a waiting datagram is reported as an error.

Neither shows as long as no round takes anything: such a round passes its socket
over. `NeverSeen` keeps the addresses that may stand in `server`, over every
choice of lengths so far, and asks that no datagram meets the server's own. With
an error on some socket, which calls `ShutDown` whatever the lengths, that is all
it takes; and it cannot be less (`agree_iff`), since a length of `-1` in every
round takes nothing and every address in the list is that of some choice.
-/

namespace PermanentIP

open Lib

namespace SimpleMobileNode

/-- The address in `server` after a receive with room for `k` of its bytes -/
def splice (old src : UInt32) (k : Nat) : UInt32 :=
  UInt32.ofNat (graft k old.toNat src.toNat)

/-- The addresses a receive from `src` may leave in `server`, when it held one
of these -/
def splices (src : UInt32) (possible : List UInt32) : List UInt32 :=
  possible.flatMap fun old => (List.range 5).map (splice old src)

/-- Whatever the lengths, no datagram with a byte in it is received with the
server's own address in `server`. -/
def NeverSeen (serverAddr : UInt32) : List UInt32 → List Packet → Prop
  | _, [] => True
  | possible, p :: packets =>
      (p.payload ≠ [] → serverAddr ∉ splices p.src.sinAddr possible) ∧
        NeverSeen serverAddr (splices p.src.sinAddr possible) packets

/-- The datagrams that wait on the sockets of these rounds, in their order -/
def arrivals (sockets : Int → Socket) (rounds : List (Sigma fun _ : Int => Ptr)) :
    List Packet := rounds.filterMap fun e => arriving (sockets e.1)

/-- Two calls take the same datagrams, leave the same peers, send the same and
both call `ShutDown`, or neither. -/
structure Agree (u u' : PollState) : Prop where
  queues : ∀ fd, (u'.sockets fd).queue = (u.sockets fd).queue
  peers : ∀ ptr, u'.node.deref ptr = u.node.deref ptr
  sent : u'.sent = u.sent
  shutDown : u'.shutDown = u.shutDown

variable {node : SimpleMobileNode} {serverSize : Int → Int32}
  {sockets : Int → Socket} {st : PollState} {e : Sigma fun _ : Int => Ptr}
  {rounds : List (Sigma fun _ : Int => Ptr)} {fd : Int} {p : Packet}
  {possible : List UInt32} {serverAddr : UInt32}

/-! ## Two runs of the loop -/

/-- The rounds of the loop, with these lengths -/
def run (serverSize : Int → Int32) (rounds : List (Sigma fun _ : Int => Ptr))
    (st : PollState) : PollState :=
  rounds.foldl (fun st e => pollSocket serverSize st e.1 e.2) st

/-- The rounds come to different sockets. -/
def SocketsDiffer (rounds : List (Sigma fun _ : Int => Ptr)) : Prop :=
  rounds.Pairwise fun e e' => e.1 ≠ e'.1

theorem socketsDiffer_entries (node : SimpleMobileNode) :
    SocketsDiffer node.appSockets.entries :=
  List.NodupKeys.pairwise_ne node.appSockets.nodupKeys

theorem pollSocket_congr {a b : Int → Int32} (h : a e.1 = b e.1) (st : PollState) :
    pollSocket a st e.1 e.2 = pollSocket b st e.1 e.2 := by
  rw [pollSocket, pollSocket, h]

theorem run_congr {a b : Int → Int32} (h : ∀ e ∈ rounds, a e.1 = b e.1)
    (st : PollState) : run a rounds st = run b rounds st := by
  induction rounds generalizing st with
  | nil => rfl
  | cons e rounds ih =>
      rw [List.forall_mem_cons] at h
      rw [run, run, List.foldl_cons, List.foldl_cons, pollSocket_congr h.1]
      exact ih h.2 _

theorem sockets_run_ne (h : ∀ e ∈ rounds, fd ≠ e.1) (st : PollState) :
    (run serverSize rounds st).sockets fd = st.sockets fd := by
  induction rounds generalizing st with
  | nil => rfl
  | cons e rounds ih =>
      rw [List.forall_mem_cons] at h
      rw [run, List.foldl_cons]
      exact (ih h.2 _).trans (sockets_pollSocket_ne h.1)

theorem serverAddr_pollSocket (serverSize : Int → Int32) (st : PollState)
    (e : Sigma fun _ : Int => Ptr) :
    (pollSocket serverSize st e.1 e.2).node.serverAddr = st.node.serverAddr := by
  rcases node_pollSocket serverSize st e.1 e.2 with heq | ⟨p, heq⟩ <;> rw [heq]
  rfl

theorem arrivals_pollSocket (h : ∀ e' ∈ rounds, e.1 ≠ e'.1) :
    arrivals (pollSocket serverSize st e.1 e.2).sockets rounds =
      arrivals st.sockets rounds := by
  refine List.filterMap_congr fun e' he' => ?_
  rw [sockets_pollSocket_ne (h e' he').symm]

/-! ## What a peek brings -/

/-- A length below zero is refused and leaves the address; another lets some of
its bytes over. -/
theorem peek_of_arriving (serverSize : Int → Int32)
    (h : arriving (st.sockets e.1) = some p) :
    failing (st.sockets e.1) = false ∧
      (∃ k < 5, (st.peek serverSize e.1).addr.sinAddr =
        splice st.server.sinAddr p.src.sinAddr k) ∧
      (st.node.isUpdate (st.peek serverSize e.1) = true ↔
        0 ≤ (serverSize e.1).toInt ∧ p.payload ≠ [] ∧
          (st.peek serverSize e.1).addr.sinAddr = st.node.serverAddr) ∧
      ((st.peek serverSize e.1).bytesRead < 0 &&
        (st.peek serverSize e.1).errno != .again) =
          decide ((serverSize e.1).toInt < 0) := by
  obtain ⟨rest, hsock⟩ := eq_of_arriving h
  rw [PollState.peek, hsock]
  refine ⟨rfl, ?_⟩
  by_cases hlen : (serverSize e.1).toInt < 0
  · simp only [recvfrom, if_pos hlen, Received.failed]
    refine ⟨⟨0, by omega, ?_⟩, ?_, ?_⟩
    · simp [splice, graft, Nat.mod_one]
    · simp only [isUpdate]
      constructor
      · intro h
        simp at h
      · rintro ⟨hle, _⟩
        omega
    · simp [hlen]
  · rw [recvfrom_of_nonneg p rest true bufferSize st.server (by omega)]
    simp only [isUpdate, Bool.and_eq_true, decide_eq_true_eq, length_take_pos, beq_iff_eq]
    refine ⟨⟨min ((serverSize e.1).toInt.toNat - 4) 4, by omega, rfl⟩, ?_, ?_⟩
    · exact ⟨fun h => ⟨by omega, h⟩, fun h => h.2⟩
    · simp [hlen]

/-- Room for the first `k` bytes of the address -/
theorem peek_of_room {k : Nat} (h : arriving (st.sockets e.1) = some p) (hk : k < 5) :
    (st.peek (fun _ => Int32.ofNat (4 + k)) e.1).addr.sinAddr =
      splice st.server.sinAddr p.src.sinAddr k := by
  obtain ⟨rest, hsock⟩ := eq_of_arriving h
  rw [PollState.peek, hsock]
  have hsize : (Int32.ofNat (4 + k)).toInt = 4 + k := by
    interval_cases k <;> rfl
  have hroom : min ((Int32.ofNat (4 + k)).toInt.toNat - 4) 4 = k := by omega
  rw [recvfrom_of_nonneg p rest true bufferSize st.server (by omega)]
  simp only [copyAddr, hroom]
  rfl

theorem mem_splices {src addr : UInt32} :
    addr ∈ splices src possible ↔ ∃ old ∈ possible, ∃ k < 5, addr = splice old src k := by
  simp only [splices, List.mem_flatMap, List.mem_map, List.mem_range, eq_comm]

/-! ## `ShutDown` -/

/-- Whether a round with this length calls `ShutDown` -/
def shutsDown (s : Socket) (size : Int32) : Bool :=
  failing s || ((arriving s).isSome && decide (size.toInt < 0))

theorem shutDown_pollSocket (serverSize : Int → Int32) (st : PollState)
    (e : Sigma fun _ : Int => Ptr) :
    (pollSocket serverSize st e.1 e.2).shutDown =
      (st.shutDown || shutsDown (st.sockets e.1) (serverSize e.1)) := by
  cases harr : arriving (st.sockets e.1) with
  | none =>
      obtain ⟨hup, _, hshut⟩ := peek_of_arriving_none serverSize harr
      rw [pollSocket_of_not_isUpdate st e.2 hup]
      simp only [hshut, shutsDown, harr, Option.isSome_none, Bool.false_and,
        Bool.or_false]
  | some p =>
      obtain ⟨hfail, _, hiff, hshut⟩ := peek_of_arriving serverSize harr
      by_cases hup : st.node.isUpdate (st.peek serverSize e.1)
      · have hlen : ¬ (serverSize e.1).toInt < 0 := by
          have := (hiff.mp hup).1
          omega
        obtain ⟨_, _, _, _, heq⟩ := pollSocket_of_isUpdate st e.2 hup
        rw [heq]
        simp only [shutsDown, hfail, hlen, decide_false, Bool.and_false, Bool.or_false]
      · rw [pollSocket_of_not_isUpdate st e.2 hup]
        simp only [hshut, shutsDown, hfail, harr, Option.isSome_some, Bool.true_and,
          Bool.false_or]

theorem shutDown_run (hdiffer : SocketsDiffer rounds) (serverSize : Int → Int32)
    (st : PollState) :
    (run serverSize rounds st).shutDown = (st.shutDown ||
      rounds.any fun e => shutsDown (st.sockets e.1) (serverSize e.1)) := by
  induction rounds generalizing st with
  | nil => simp [run]
  | cons e rounds ih =>
      obtain ⟨hne, hdiffer⟩ := List.pairwise_cons.mp hdiffer
      have hrest : (rounds.any fun e' => shutsDown
            ((pollSocket serverSize st e.1 e.2).sockets e'.1) (serverSize e'.1)) =
          rounds.any fun e' => shutsDown (st.sockets e'.1) (serverSize e'.1) := by
        rw [Bool.eq_iff_iff, List.any_eq_true, List.any_eq_true]
        exact exists_congr fun e' => and_congr_right fun he' => by
          rw [sockets_pollSocket_ne (hne e' he').symm]
      rw [run, List.foldl_cons, List.any_cons, ← Bool.or_assoc, ← shutDown_pollSocket,
        ← hrest]
      exact ih hdiffer _

/-! ## Rounds that take nothing -/

/-- The sockets after rounds that only clear their errors -/
def cleared (rounds : List (Sigma fun _ : Int => Ptr)) (sockets : Int → Socket) :
    Int → Socket :=
  rounds.foldl (fun sockets e => Function.update sockets e.1
    { sockets e.1 with soError := none }) sockets

/-- `u` is `st` after rounds that took nothing. -/
structure PassedOver (rounds : List (Sigma fun _ : Int => Ptr)) (st u : PollState) :
    Prop where
  node : u.node = st.node
  sockets : u.sockets = cleared rounds st.sockets
  sent : u.sent = st.sent

theorem queue_cleared (rounds : List (Sigma fun _ : Int => Ptr)) (sockets : Int → Socket)
    (fd : Int) : (cleared rounds sockets fd).queue = (sockets fd).queue := by
  induction rounds generalizing sockets with
  | nil => rfl
  | cons e rounds ih =>
      rw [cleared, List.foldl_cons]
      refine (ih _).trans ?_
      rcases eq_or_ne fd e.1 with rfl | hne
      · rw [Function.update_self]
      · rw [Function.update_of_ne hne]

theorem passedOver_of_not_isUpdate (h : ¬ st.node.isUpdate (st.peek serverSize e.1)) :
    PassedOver [e] st (pollSocket serverSize st e.1 e.2) := by
  rw [pollSocket_of_not_isUpdate st e.2 h]
  refine ⟨rfl, ?_, rfl⟩
  rw [PollState.peek, socket_recvfrom_peek]
  rfl

theorem PassedOver.cons {u v : PollState} (h : PassedOver [e] st u)
    (h' : PassedOver rounds u v) : PassedOver (e :: rounds) st v := by
  refine ⟨h'.node.trans h.node, ?_, h'.sent.trans h.sent⟩
  rw [h'.sockets, h.sockets]
  rfl

/-- Where no choice of lengths shows an update, none is taken. -/
theorem passedOver_of_neverSeen (hdiffer : SocketsDiffer rounds)
    (serverSize : Int → Int32) (st : PollState) (possible : List UInt32)
    (hserver : st.server.sinAddr ∈ possible)
    (hnever : NeverSeen st.node.serverAddr possible (arrivals st.sockets rounds)) :
    PassedOver rounds st (run serverSize rounds st) := by
  induction rounds generalizing st possible with
  | nil => exact ⟨rfl, rfl, rfl⟩
  | cons e rounds ih =>
      obtain ⟨hne, hdiffer⟩ := List.pairwise_cons.mp hdiffer
      rw [run, List.foldl_cons]
      rw [arrivals, List.filterMap_cons] at hnever
      cases harr : arriving (st.sockets e.1) with
      | none =>
          rw [harr] at hnever
          obtain ⟨hup, haddr, _⟩ := peek_of_arriving_none serverSize harr
          refine (passedOver_of_not_isUpdate hup).cons (ih hdiffer _ possible ?_ ?_)
          · rw [pollSocket_of_not_isUpdate st e.2 hup, haddr]
            exact hserver
          · rw [serverAddr_pollSocket, arrivals_pollSocket hne]
            exact hnever
      | some p =>
          rw [harr] at hnever
          obtain ⟨hunseen, hnever⟩ := hnever
          obtain ⟨_, ⟨k, hk, haddr⟩, hiff, _⟩ := peek_of_arriving serverSize harr
          have hmem : (st.peek serverSize e.1).addr.sinAddr ∈
              splices p.src.sinAddr possible :=
            mem_splices.mpr ⟨_, hserver, k, hk, haddr⟩
          have hup : ¬ st.node.isUpdate (st.peek serverSize e.1) := by
            intro hup
            obtain ⟨_, hpayload, heq⟩ := hiff.mp hup
            rw [heq] at hmem
            exact hunseen hpayload hmem
          refine (passedOver_of_not_isUpdate hup).cons
            (ih hdiffer _ (splices p.src.sinAddr possible) ?_ ?_)
          · rw [pollSocket_of_not_isUpdate st e.2 hup]
            exact hmem
          · rw [serverAddr_pollSocket, arrivals_pollSocket hne]
            exact hnever

/-- A length of `-1` takes nothing. -/
theorem passedOver_of_neg (h : ∀ fd, (serverSize fd).toInt < 0)
    (rounds : List (Sigma fun _ : Int => Ptr)) (st : PollState) :
    PassedOver rounds st (run serverSize rounds st) := by
  induction rounds generalizing st with
  | nil => exact ⟨rfl, rfl, rfl⟩
  | cons e rounds ih =>
      have hup : ¬ st.node.isUpdate (st.peek serverSize e.1) := by
        cases harr : arriving (st.sockets e.1) with
        | none => exact (peek_of_arriving_none _ harr).1
        | some p =>
            intro hup
            have hle := ((peek_of_arriving _ harr).2.2.1.mp hup).1
            exact absurd (h e.1) (by omega)
      exact (passedOver_of_not_isUpdate hup).cons (ih _)

/-! ## Every address in the list is that of some choice -/

/-- Whatever the lengths of these rounds, they leave their queues whole. -/
def Kept (rounds : List (Sigma fun _ : Int => Ptr)) (st : PollState) : Prop :=
  ∀ serverSize, ∀ e ∈ rounds,
    ((run serverSize rounds st).sockets e.1).queue = (st.sockets e.1).queue

/-- The lengths of the rounds are chosen one by one. -/
theorem Kept.tail (h : Kept (e :: rounds) st) (hne : ∀ e' ∈ rounds, e.1 ≠ e'.1)
    (serverSize : Int → Int32) : Kept rounds (pollSocket serverSize st e.1 e.2) := by
  intro later e' he'
  have hrun : run (Function.update later e.1 (serverSize e.1)) (e :: rounds) st =
      run later rounds (pollSocket serverSize st e.1 e.2) := by
    rw [run, List.foldl_cons, pollSocket_congr (Function.update_self _ _ _)]
    exact run_congr (fun e'' he'' => Function.update_of_ne (hne e'' he'').symm _ _) _
  rw [← hrun, h _ e' (List.mem_cons_of_mem _ he'),
    sockets_pollSocket_ne (hne e' he').symm]

theorem Kept.not_isUpdate (h : Kept (e :: rounds) st) (hne : ∀ e' ∈ rounds, e.1 ≠ e'.1)
    (serverSize : Int → Int32) : ¬ st.node.isUpdate (st.peek serverSize e.1) := by
  intro hup
  obtain ⟨p, rest, hsock, _, heq⟩ := pollSocket_of_isUpdate st e.2 hup
  have hkept := h serverSize e List.mem_cons_self
  rw [run, List.foldl_cons] at hkept
  have hlater : (run serverSize rounds (pollSocket serverSize st e.1 e.2)).sockets e.1 =
      ⟨rest, none⟩ := by
    rw [sockets_run_ne hne, heq]
    exact Function.update_self _ _ _
  rw [run] at hlater
  rw [hlater, hsock] at hkept
  exact List.cons_ne_self p rest hkept.symm

/-- The address in `server` may be any of these, in a state from which whatever
the lengths the queues stay whole. -/
def Possible (rounds : List (Sigma fun _ : Int => Ptr)) (sockets : Int → Socket)
    (serverAddr addr : UInt32) : Prop :=
  ∃ st : PollState, st.server.sinAddr = addr ∧ st.node.serverAddr = serverAddr ∧
    (∀ e ∈ rounds, st.sockets e.1 = sockets e.1) ∧ Kept rounds st

theorem neverSeen_of_possible (hdiffer : SocketsDiffer rounds) (possible : List UInt32)
    (h : ∀ addr ∈ possible, Possible rounds sockets serverAddr addr) :
    NeverSeen serverAddr possible (arrivals sockets rounds) := by
  induction rounds generalizing possible with
  | nil => exact trivial
  | cons e rounds ih =>
      obtain ⟨hne, hdiffer⟩ := List.pairwise_cons.mp hdiffer
      -- One more round, with lengths of our choice
      have hnext : ∀ (st : PollState) (size : Int → Int32),
          st.node.serverAddr = serverAddr →
          (∀ e' ∈ e :: rounds, st.sockets e'.1 = sockets e'.1) →
          Kept (e :: rounds) st →
          Possible rounds sockets serverAddr (st.peek size e.1).addr.sinAddr := by
        intro st size hserver hsockets hkept
        refine ⟨pollSocket size st e.1 e.2, ?_, ?_, ?_, hkept.tail hne size⟩
        · rw [pollSocket_of_not_isUpdate st e.2 (hkept.not_isUpdate hne size)]
        · rw [serverAddr_pollSocket, hserver]
        · intro e' he'
          rw [sockets_pollSocket_ne (hne e' he').symm]
          exact hsockets e' (List.mem_cons_of_mem _ he')
      rw [arrivals, List.filterMap_cons]
      cases harr : arriving (sockets e.1) with
      | none =>
          refine ih hdiffer possible fun addr haddr => ?_
          obtain ⟨st, rfl, hserver, hsockets, hkept⟩ := h addr haddr
          have hpeek := hnext st (fun _ => sizeofSockAddr) hserver hsockets hkept
          rw [← hsockets e List.mem_cons_self] at harr
          rwa [(peek_of_arriving_none _ harr).2.1] at hpeek
      | some p =>
          refine ⟨fun hpayload hmem => ?_, ih hdiffer _ fun addr haddr => ?_⟩
          · obtain ⟨old, hold, k, hk, heq⟩ := mem_splices.mp hmem
            obtain ⟨st, rfl, hserver, hsockets, hkept⟩ := h old hold
            rw [← hsockets e List.mem_cons_self] at harr
            refine hkept.not_isUpdate hne (fun _ => Int32.ofNat (4 + k)) ?_
            refine (peek_of_arriving _ harr).2.2.1.mpr ⟨?_, hpayload, ?_⟩
            · interval_cases k <;> decide
            · rw [peek_of_room harr hk, hserver, heq]
          · obtain ⟨old, hold, k, hk, heq⟩ := mem_splices.mp haddr
            obtain ⟨st, rfl, hserver, hsockets, hkept⟩ := h old hold
            rw [← hsockets e List.mem_cons_self] at harr
            have hpeek := hnext st (fun _ => Int32.ofNat (4 + k)) hserver hsockets hkept
            rwa [peek_of_room harr hk, ← heq] at hpeek

/-! ## The call -/

theorem shutDown_pollSubscriptions (node : SimpleMobileNode)
    (serverSize : Int → Int32) (sockets : Int → Socket) :
    (node.pollSubscriptions serverSize sockets).shutDown =
      node.appSockets.entries.any fun e =>
        shutsDown (sockets e.1) (serverSize e.1) :=
  (shutDown_run (socketsDiffer_entries node) serverSize (node.pollStart sockets)).trans
    (Bool.false_or _)

theorem arrivals_eq_nil :
    arrivals sockets rounds = [] ↔ ∀ e ∈ rounds, arriving (sockets e.1) = none := by
  rw [arrivals, List.filterMap_eq_nil_iff]

/-- Nothing is reported, or something is whatever the lengths. -/
theorem shutDown_congr (serverSize serverSize' : Int → Int32)
    (h : arrivals sockets node.appSockets.entries = [] ∨
      ∃ e ∈ node.appSockets.entries, failing (sockets e.1)) :
    (node.pollSubscriptions serverSize' sockets).shutDown =
      (node.pollSubscriptions serverSize sockets).shutDown := by
  rw [shutDown_pollSubscriptions, shutDown_pollSubscriptions]
  rcases h with h | ⟨e, he, hfail⟩
  · rw [arrivals_eq_nil] at h
    rw [Bool.eq_iff_iff, List.any_eq_true, List.any_eq_true]
    exact exists_congr fun e => and_congr_right fun he => by
      simp only [shutsDown, h e he, Option.isSome_none, Bool.false_and]
  · have hany : ∀ size : Int → Int32, (node.appSockets.entries.any fun e =>
        shutsDown (sockets e.1) (size e.1)) = true := fun size =>
      List.any_eq_true.mpr ⟨e, he, by rw [shutsDown, hfail, Bool.true_or]⟩
    rw [hany, hany]

/-- With nothing to report, a datagram that waits is reported or not as the
length will have it. -/
theorem failing_of_shutDown_eq
    (h : (node.pollSubscriptions (fun _ => -1) sockets).shutDown =
      (node.pollSubscriptions (fun _ => sizeofSockAddr) sockets).shutDown)
    (harrivals : arrivals sockets node.appSockets.entries ≠ []) :
    ∃ e ∈ node.appSockets.entries, failing (sockets e.1) := by
  rw [shutDown_pollSubscriptions, shutDown_pollSubscriptions] at h
  have hneg : (node.appSockets.entries.any fun e =>
      shutsDown (sockets e.1) (-1)) = true := by
    rw [ne_eq, arrivals_eq_nil, not_forall] at harrivals
    obtain ⟨e, harrivals⟩ := harrivals
    obtain ⟨he, harr⟩ := Classical.not_imp.mp harrivals
    refine List.any_eq_true.mpr ⟨e, he, ?_⟩
    rw [shutsDown, Option.isSome_iff_ne_none.mpr harr]
    exact Bool.or_true _
  rw [hneg] at h
  obtain ⟨e, he, hdown⟩ := List.any_eq_true.mp h.symm
  refine ⟨e, he, ?_⟩
  rw [shutsDown, show decide (sizeofSockAddr.toInt < 0) = false from rfl,
    Bool.and_false, Bool.or_false] at hdown
  exact hdown

/-- Two calls agree whatever they find in `server_size` if and only if no
datagram waits where a receive would bring it, or some socket has an error to
report and no datagram could pass for one from the server. -/
theorem agree_iff (node : SimpleMobileNode) (sockets : Int → Socket) :
    (∀ serverSize serverSize' : Int → Int32,
      Agree (node.pollSubscriptions serverSize sockets)
        (node.pollSubscriptions serverSize' sockets)) ↔
    arrivals sockets node.appSockets.entries = [] ∨
      ((∃ e ∈ node.appSockets.entries, failing (sockets e.1)) ∧
        NeverSeen node.serverAddr [0] (arrivals sockets node.appSockets.entries)) := by
  have hdiffer := socketsDiffer_entries node
  constructor
  · intro h
    by_cases harrivals : arrivals sockets node.appSockets.entries = []
    · exact Or.inl harrivals
    · refine Or.inr ⟨failing_of_shutDown_eq (h _ _).shutDown harrivals, ?_⟩
      have hpassed : PassedOver node.appSockets.entries (node.pollStart sockets)
          (node.pollSubscriptions (fun _ => -1) sockets) :=
        passedOver_of_neg (fun _ => by decide) _ (node.pollStart sockets)
      have hkept : Kept node.appSockets.entries (node.pollStart sockets) := by
        intro serverSize e _
        refine ((h (fun _ => -1) serverSize).queues e.1).trans ?_
        rw [hpassed.sockets]
        exact queue_cleared _ _ _
      refine neverSeen_of_possible hdiffer [0] fun addr haddr => ?_
      rw [List.mem_singleton] at haddr
      exact ⟨node.pollStart sockets, haddr.symm, rfl, fun _ _ => rfl, hkept⟩
  · intro h a b
    have hnever : NeverSeen node.serverAddr [0]
        (arrivals sockets node.appSockets.entries) := by
      rcases h with h | ⟨_, h⟩
      · rw [h]
        exact trivial
      · exact h
    have hpassed : ∀ serverSize : Int → Int32, PassedOver node.appSockets.entries
        (node.pollStart sockets) (node.pollSubscriptions serverSize sockets) :=
      fun serverSize => passedOver_of_neverSeen hdiffer serverSize
        (node.pollStart sockets) [0] List.mem_cons_self hnever
    refine ⟨fun fd => ?_, fun ptr => ?_, ?_, ?_⟩
    · rw [(hpassed a).sockets, (hpassed b).sockets]
    · rw [(hpassed a).node, (hpassed b).node]
    · rw [(hpassed a).sent, (hpassed b).sent]
    · exact shutDown_congr a b (h.imp_right And.left)

/-- The update that waits is taken with a length of 16, and not with one of 0. -/
theorem lengths_disagree :
    ¬ Agree (twoSockets.pollSubscriptions (fun _ => sizeofSockAddr) updateOnThree)
      (twoSockets.pollSubscriptions (fun _ => 0) updateOnThree) := by
  intro h
  have htaken : ((twoSockets.pollSubscriptions (fun _ => 0) updateOnThree).sockets
      3).queue ≠ ((twoSockets.pollSubscriptions (fun _ => sizeofSockAddr)
      updateOnThree).sockets 3).queue := by
    decide +kernel
  exact htaken (h.queues 3)

end SimpleMobileNode

end PermanentIP

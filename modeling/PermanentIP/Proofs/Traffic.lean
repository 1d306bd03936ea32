import PermanentIP.Proofs.SubscriberStream
import PermanentIP.Spec.Board

/-!
# All that the server sends and keeps

Over any datagrams from anybody the server is a board (`matches_run`): its keys
are the names the board knows, a read of the registry is where the board has the
name, and the subscribers are the watchers. No run is left out, as runs with
unregistered subscribers are where the server is a directory. So what it sends
next, where it gets past its log, is read off the board, datagram by datagram
(`sent_of_board`).

And as a board holds nothing but what was put there, the server keeps and sends
no more than it was asked to: its tables are linear in what it has received, its
traffic is one answer a request and at most one push for every registration and
lookup, and no datagram goes anywhere but to who sent the request or to a port
that asked at an address its name registered from (`bounded_by_requests`).
-/

namespace PermanentIP

open Lib SimpleMobileNode

namespace SimpleRendezvousServer

/-- The board after a log of datagrams. -/
noncomputable def board (es : List Event) : Spec.Board LogicalAddress UInt32 UInt16 :=
  Spec.Board.empty.run (es.filterMap Event.op?)

/-- The server's maps say what the board does. -/
structure Matches (srv : SimpleRendezvousServer)
    (b : Spec.Board LogicalAddress UInt32 UInt16) : Prop where
  known : ∀ n, n ∈ srv.registeredNames ↔ n ∈ b.known
  text : ∀ n, UnorderedMap.get srv.registeredNames n = addressText (b.loc n)
  watchers : ∀ n s, s ∈ srv.subscribers n ↔ (s.name, s.port) ∈ b.watchers n

variable {srv : SimpleRendezvousServer} {b : Spec.Board LogicalAddress UInt32 UInt16}
  {es : List Event} {e : Event} {n : LogicalAddress} {a : UInt32} {s : Subscriber}
  {d : Sent}

/-! ## The server is a board -/

theorem matches_new (rl ll : Int) : Matches (new rl ll) Spec.Board.empty where
  known n := iff_of_false (AList.notMem_empty n) (Set.notMem_empty n)
  text _ := rfl
  watchers _ s := iff_of_false (OrdSet.not_mem_empty s) (Set.notMem_empty _)

theorem Matches.register (h : Matches srv b) (sock : Int) (n : LogicalAddress)
    (a : UInt32) :
    Matches (srv.updateAddress sock n (intToIPString a.toInt32)).2
      (b.apply (.register n a)) where
  known m := by
    rw [mem_updateAddress, Spec.Board.mem_known_register, h.known]
    refine or_congr_right (or_congr_right ⟨?_, ?_⟩)
    · rintro ⟨i, hi, rfl⟩
      exact ⟨(i.name, i.port), (h.watchers n i).mp hi, rfl⟩
    · rintro ⟨w, hw, rfl⟩
      exact ⟨⟨w.1, w.2⟩, (h.watchers n ⟨w.1, w.2⟩).mpr hw, rfl⟩
  text m := by
    rw [get_updateAddress]
    split
    · next heq =>
        subst heq
        exact congrArg addressText (Spec.Directory.loc_register_self).symm
    · next hne =>
        rw [h.text]
        exact congrArg addressText (Spec.Directory.loc_register_ne (Ne.symm hne)).symm
  watchers m s := by
    rw [subscribers_updateAddress]
    exact h.watchers m s

theorem Matches.ask (h : Matches srv b) (s : Subscriber) (n : LogicalAddress) :
    Matches (srv.changeSubscription s n).2 (b.apply (.ask (s.name, s.port) n)) := by
  by_cases hn : n ∈ srv.registeredNames
  · have hknown := (h.known n).mp hn
    refine ⟨fun m => ?_, fun m => ?_, fun m s' => ?_⟩
    · rw [registeredNames_changeSubscription, Spec.Board.known_ask]
      exact h.known m
    · rw [registeredNames_changeSubscription, Spec.Board.loc_ask]
      exact h.text m
    · rcases eq_or_ne s' s with rfl | hs
      · rcases eq_or_ne m n with rfl | hm
        · rw [mem_changeSubscription_self hn,
            Spec.Board.mem_watchers_ask_self hknown, h.watchers]
        · rw [subscribers_changeSubscription_ne hm, Spec.Board.watchers_ask_ne hm]
          exact h.watchers m s'
      · have hpair : (s'.name, s'.port) ≠ (s.name, s.port) := by
          intro heq
          cases s
          cases s'
          cases heq
          exact hs rfl
        rw [mem_changeSubscription_ne hs, Spec.Board.mem_watchers_ask_ne hpair]
        exact h.watchers m s'
  · rw [changeSubscription_of_notMem hn,
      Spec.Board.ask_of_unknown ((h.known n).not.mp hn)]
    exact h

theorem Matches.next (h : Matches srv b) (e : Event) :
    Matches (srv.next e) (match e.op? with
      | some op => b.apply op
      | none => b) := by
  rw [next_eq_call]
  cases e with
  | lookup p =>
      by_cases hp : p.payload = []
      · simpa [Event.call?, Event.op?, Event.lookup?, Event.registers?, hp]
          using h
      · simp only [Event.call?, Event.op?, Event.lookup?, Event.registers?,
          if_neg hp, Option.map_some, call]
        exact h.ask _ _
  | registration p sock =>
      by_cases hp : p.payload = []
      · simpa [Event.call?, Event.op?, Event.lookup?, Event.registers?, hp]
          using h
      · simp only [Event.call?, Event.op?, Event.registers?, if_neg hp,
          Option.map_some, call]
        exact h.register _ _ _

theorem board_snoc (es : List Event) (e : Event) :
    board (es ++ [e]) = match e.op? with
      | some op => (board es).apply op
      | none => board es := by
  rw [board, List.filterMap_append]
  cases hop : e.op? with
  | none => simp [hop, board]
  | some op =>
      simp only [List.filterMap_cons, hop, List.filterMap_nil]
      exact Spec.Board.run_snoc op

theorem matches_run (rl ll : Int) (es : List Event) :
    Matches ((new rl ll).run es) (board es) := by
  induction es using List.reverseRecOn with
  | nil => exact matches_new rl ll
  | append_singleton es e ih =>
      rw [run_snoc, board_snoc]
      exact ih.next e

/-! ## What it sends -/

/-- Where a subscriber is told, as the board has it. -/
noncomputable def place (b : Spec.Board LogicalAddress UInt32 UInt16)
    (i : Subscriber) : SockAddr := ⟨netV4, i.port, (b.loc i.name).getD 0⟩

theorem Matches.pushAddr (h : Matches srv b) (i : Subscriber) :
    pushAddr srv.registeredNames i = place b i := by
  rw [SimpleRendezvousServer.pushAddr, place, h.text, ipStringToInt_addressText]

theorem registrationListener_run (es : List Event) :
    (srv.run es).registrationListener = srv.registrationListener := by
  induction es using List.reverseRecOn with
  | nil => rfl
  | append_singleton es e ih =>
      rw [run_snoc, next_eq_call, ← ih]
      split
      · next c _ =>
          cases c with
          | updateAddress sock n a => rfl
          | changeSubscription s n =>
              rw [call, changeSubscription]
              split <;> rfl
      · rfl

theorem sent_of_none (h : e.op? = none) : (srv.receive e).sent = [] := by
  cases e with
  | lookup p =>
      by_cases hp : p.payload = []
      · exact (receive_empty_lookup hp).2
      · simp [Event.op?, Event.lookup?, Event.registers?, hp] at h
  | registration p sock =>
      by_cases hp : p.payload = []
      · exact (receive_empty_registration hp).2
      · simp [Event.op?, Event.registers?, hp] at h

theorem Matches.sent_of_ask (hm : Matches srv b) {w : LogicalAddress × UInt16}
    (h : e.op? = some (.ask w n)) :
    ∃ reply, (srv.receive e).sent = sendto srv.lookupListener reply e.packet.src ∧
      ∀ server, readReply ⟨server, reply⟩ = addressText (b.loc n) := by
  cases e with
  | lookup p =>
      by_cases hp : p.payload = []
      · simp [Event.op?, Event.lookup?, Event.registers?, hp] at h
      · simp only [Event.op?, Event.lookup?, Event.registers?, if_neg hp] at h
        cases h
        refine ⟨_, ?_, fun server => readReply_addressText _ p server⟩
        rw [(receive_lookup hp).2, hm.text]
        rfl
  | registration p sock =>
      by_cases hp : p.payload = []
      · simp [Event.op?, Event.lookup?, Event.registers?, hp] at h
      · simp [Event.op?, Event.registers?, hp] at h

theorem Matches.sent_of_register (hm : Matches srv b)
    (h : e.op? = some (.register n a)) :
    ∃ reply, (srv.receive e).sent =
      ((srv.subscribers n).elems.flatMap fun i =>
        sendto e.updateSocket (intToIPString a.toInt32 ++ [0])
          (place (b.apply (.register n a)) i)) ++
        sendto srv.registrationListener reply e.packet.src := by
  cases e with
  | lookup p =>
      by_cases hp : p.payload = []
      · simp [Event.op?, Event.lookup?, Event.registers?, hp] at h
      · simp [Event.op?, Event.lookup?, Event.registers?, hp] at h
  | registration p sock =>
      by_cases hp : p.payload = []
      · simp [Event.op?, Event.lookup?, Event.registers?, hp] at h
      · simp only [Event.op?, Event.registers?, if_neg hp] at h
        cases h
        refine ⟨replyBuffer (p.text ++ ascii " " ++ percentD p.src.sinAddr.toInt32) p, ?_⟩
        rw [(receive_registration hp).2, updateAddress_sent]
        refine congrArg (· ++ _) (List.flatMap_congr fun i _ => ?_)
        have hplace := (hm.register sock p.text p.src.sinAddr).pushAddr i
        rw [← hplace, pushDst, SimpleRendezvousServer.pushAddr, get_updateAddress]
        rfl

/-- What there is to send for the next datagram, after any log: nothing for an
empty one; one answer to a lookup, with what the board says of the name; for a
registration a push to each who watches the name, in the order of the set, at
the place the board then has for it, and an answer. -/
theorem sent_of_board (rl ll : Int) (es : List Event) (e : Event) :
    (e.op? = none → (((new rl ll).run es).receive e).sent = []) ∧
    (∀ who n, e.op? = some (.ask who n) → ∃ reply,
      (((new rl ll).run es).receive e).sent = sendto ll reply e.packet.src ∧
      ∀ server, readReply ⟨server, reply⟩ = addressText ((board es).loc n)) ∧
    (∀ n a, e.op? = some (.register n a) →
      ∃ (told : List Subscriber) (reply : Bytes),
      told.Pairwise (· < ·) ∧
      (∀ i, i ∈ told ↔ (i.name, i.port) ∈ (board es).watchers n) ∧
      (((new rl ll).run es).receive e).sent =
        (told.flatMap fun i => sendto e.updateSocket (intToIPString a.toInt32 ++ [0])
          (place ((board es).apply (.register n a)) i)) ++
          sendto rl reply e.packet.src) := by
  have hmatch := matches_run rl ll es
  refine ⟨sent_of_none, fun who n hask => ?_, fun n a hreg => ?_⟩
  · obtain ⟨reply, hsent, hread⟩ := hmatch.sent_of_ask hask
    rw [lookupListener_run] at hsent
    exact ⟨reply, hsent, hread⟩
  · obtain ⟨reply, hsent⟩ := hmatch.sent_of_register hreg
    rw [registrationListener_run] at hsent
    exact ⟨_, reply, OrdSet.sorted _, hmatch.watchers n, hsent⟩

/-! ## How much it keeps and sends -/

/-- The registrations among the datagrams: the names and where they came from. -/
def registrations (es : List Event) : List (LogicalAddress × UInt32) :=
  es.filterMap Event.registers?

/-- The lookups among the datagrams: who asked, and for which name. -/
def lookups (es : List Event) : List (Subscriber × LogicalAddress) :=
  es.filterMap Event.lookup?

theorem registers_of_op (h : e.op? = some (.register n a)) :
    e.registers? = some (n, a) := by
  rw [Event.op?] at h
  split at h
  · next hr =>
      cases h
      exact hr
  · cases h
  · cases h

theorem lookup_of_op {w : LogicalAddress × UInt16} (h : e.op? = some (.ask w n)) :
    e.lookup? = some (⟨w.1, w.2⟩, n) := by
  rw [Event.op?] at h
  split at h
  · cases h
  · next hl =>
      cases h
      exact hl
  · cases h

theorem mem_registrations_of_op (h : .register n a ∈ es.filterMap Event.op?) :
    (n, a) ∈ registrations es := by
  obtain ⟨e, he, hop⟩ := List.mem_filterMap.mp h
  exact List.mem_filterMap.mpr ⟨e, he, registers_of_op hop⟩

theorem mem_lookups_of_op {w : LogicalAddress × UInt16}
    (h : .ask w n ∈ es.filterMap Event.op?) :
    (⟨w.1, w.2⟩, n) ∈ lookups es := by
  obtain ⟨e, he, hop⟩ := List.mem_filterMap.mp h
  exact List.mem_filterMap.mpr ⟨e, he, lookup_of_op hop⟩

theorem mem_lookups_of_subscribed (rl ll : Int)
    (h : s ∈ ((new rl ll).run es).subscribers n) : (s, n) ∈ lookups es :=
  mem_lookups_of_op
    (Spec.Board.asked_of_watching (((matches_run rl ll es).watchers n s).mp h))

/-- The names of the registrations and of those who looked something up. -/
def names (es : List Event) : List LogicalAddress :=
  (registrations es).map Prod.fst ++ (lookups es).map (·.1.name)

theorem mem_names_of_key (rl ll : Int)
    (h : n ∈ ((new rl ll).run es).registeredNames) : n ∈ names es := by
  obtain ⟨op, hop, hnames⟩ :=
    Spec.Board.named_of_known (((matches_run rl ll es).known n).mp h)
  rcases hnames with ⟨a, rfl⟩ | ⟨p, m, rfl⟩
  · exact List.mem_append_left _
      (List.mem_map.mpr ⟨_, mem_registrations_of_op hop, rfl⟩)
  · exact List.mem_append_right _ (List.mem_map.mpr ⟨_, mem_lookups_of_op hop, rfl⟩)

theorem length_subscribers_le (rl ll : Int) (es : List Event) (n : LogicalAddress) :
    (((new rl ll).run es).subscribers n).elems.length ≤ (lookups es).length := by
  have hsub : (((new rl ll).run es).subscribers n).elems ⊆
      (lookups es).map Prod.fst := fun s hs =>
    List.mem_map.mpr ⟨(s, n), mem_lookups_of_subscribed rl ll hs, rfl⟩
  have hle := (List.subperm_of_subset (OrdSet.nodup _) hsub).length_le
  rwa [List.length_map] at hle

theorem length_sendto_le (sock : Int) (payload : Bytes) (dst : SockAddr) :
    (sendto sock payload dst).length ≤ 1 := by
  rw [sendto]
  split <;> simp

theorem length_flatMap_sendto_le (l : List Subscriber) (sock : Int) (payload : Bytes)
    (dst : Subscriber → SockAddr) :
    (l.flatMap fun i => sendto sock payload (dst i)).length ≤ l.length := by
  induction l with
  | nil => exact Nat.le_refl _
  | cons i l ih =>
      have hone := length_sendto_le sock payload (dst i)
      rw [List.flatMap_cons, List.length_append, List.length_cons]
      omega

theorem registrations_snoc (es : List Event) (e : Event) :
    registrations (es ++ [e]) = registrations es ++ e.registers?.toList := by
  rw [registrations, List.filterMap_append]
  cases h : e.registers? with
  | none => rw [List.filterMap_cons_none h]; rfl
  | some r => rw [List.filterMap_cons_some h]; rfl

theorem lookups_snoc (es : List Event) (e : Event) :
    lookups (es ++ [e]) = lookups es ++ e.lookup?.toList := by
  rw [lookups, List.filterMap_append]
  cases h : e.lookup? with
  | none => rw [List.filterMap_cons_none h]; rfl
  | some r => rw [List.filterMap_cons_some h]; rfl

theorem length_registrations_le (es : List Event) (e : Event) :
    (registrations es).length ≤ (registrations (es ++ [e])).length := by
  rw [registrations_snoc, List.length_append]
  omega

theorem length_lookups_le (es : List Event) (e : Event) :
    (lookups es).length ≤ (lookups (es ++ [e])).length := by
  rw [lookups_snoc, List.length_append]
  omega

theorem length_sends_le (rl ll : Int) (es : List Event) :
    ((new rl ll).sends es).length ≤ (registrations es).length + (lookups es).length +
      (registrations es).length * (lookups es).length := by
  induction es using List.reverseRecOn with
  | nil => exact Nat.le_refl _
  | append_singleton es e ih =>
      have hmatch := matches_run rl ll es
      have hr := length_registrations_le es e
      have hl := length_lookups_le es e
      have hproduct := Nat.mul_le_mul hr hl
      rw [sends_snoc, List.length_append]
      rcases hop : e.op? with _ | ⟨n, a⟩ | ⟨w, n⟩
      · rw [sent_of_none hop, List.length_nil]
        omega
      · obtain ⟨reply, hsent⟩ := hmatch.sent_of_register hop
        have hreply := length_sendto_le ((new rl ll).run es).registrationListener reply
          e.packet.src
        have hpushes := (length_flatMap_sendto_le _ e.updateSocket
          (intToIPString a.toInt32 ++ [0])
          (place ((board es).apply (.register n a)))).trans
          (length_subscribers_le rl ll es n)
        have hone : (registrations (es ++ [e])).length =
            (registrations es).length + 1 := by
          rw [registrations_snoc, registers_of_op hop, List.length_append]
          rfl
        have hmore : (registrations es).length * (lookups es).length +
            (lookups es).length ≤
            (registrations (es ++ [e])).length * (lookups (es ++ [e])).length := by
          rw [hone, ← Nat.succ_mul]
          exact Nat.mul_le_mul_left _ hl
        rw [hsent, List.length_append]
        omega
      · obtain ⟨reply, hsent, _⟩ := hmatch.sent_of_ask hop
        have hreply := length_sendto_le ((new rl ll).run es).lookupListener reply
          e.packet.src
        have hone : (lookups (es ++ [e])).length = (lookups es).length + 1 := by
          rw [lookups_snoc, lookup_of_op hop, List.length_append]
          rfl
        rw [hsent]
        omega

/-- Where a datagram of the server's may go: back to a sender, or to the port of
one who asked, at an address that registered its name, or at none. -/
def Answerable (es : List Event) (dst : SockAddr) : Prop :=
  (∃ e ∈ es, dst = e.packet.src) ∨
    ∃ s n, (s, n) ∈ lookups es ∧ dst.sinPort = s.port ∧
      (dst.sinAddr = 0 ∨ (s.name, dst.sinAddr) ∈ registrations es)

theorem Answerable.append {dst : SockAddr} (h : Answerable es dst) (e : Event) :
    Answerable (es ++ [e]) dst := by
  rcases h with ⟨e', he', hdst⟩ | ⟨s, n, hs, hport, haddr⟩
  · exact Or.inl ⟨e', List.mem_append_left _ he', hdst⟩
  · refine Or.inr ⟨s, n, ?_, hport, haddr.imp_right fun h => ?_⟩
    · rw [lookups_snoc]
      exact List.mem_append_left _ hs
    · rw [registrations_snoc]
      exact List.mem_append_left _ h

theorem answerable_place (rl ll : Int) {i : Subscriber}
    (hi : i ∈ ((new rl ll).run es).subscribers n) (hop : e.op? = some (.register n a)) :
    Answerable (es ++ [e]) (place ((board es).apply (.register n a)) i) := by
  refine Or.inr ⟨i, n, ?_, rfl, ?_⟩
  · rw [lookups_snoc]
    exact List.mem_append_left _ (mem_lookups_of_subscribed rl ll hi)
  · have hboard : (board es).apply (.register n a) = board (es ++ [e]) := by
      rw [board_snoc, hop]
    rw [hboard, place]
    cases hloc : (board (es ++ [e])).loc i.name with
    | none => exact Or.inl rfl
    | some x =>
        exact Or.inr (mem_registrations_of_op (Spec.Board.registered_of_loc hloc))

theorem answerable_sends (rl ll : Int) (hd : d ∈ (new rl ll).sends es) :
    Answerable es d.dst := by
  induction es using List.reverseRecOn with
  | nil => cases hd
  | append_singleton es e ih =>
      have hmatch := matches_run rl ll es
      have hback {sock : Int} {reply : Bytes}
          (hmem : d ∈ sendto sock reply e.packet.src) : Answerable (es ++ [e]) d.dst :=
        Or.inl ⟨e, List.mem_append_right _ (List.mem_singleton_self e),
          dst_of_mem_sendto hmem⟩
      rw [sends_snoc] at hd
      rcases List.mem_append.mp hd with hold | hnew
      · exact (ih hold).append e
      · rcases hop : e.op? with _ | ⟨n, a⟩ | ⟨w, n⟩
        · rw [sent_of_none hop] at hnew
          cases hnew
        · obtain ⟨reply, hsent⟩ := hmatch.sent_of_register hop
          rw [hsent] at hnew
          rcases List.mem_append.mp hnew with hpush | hreply
          · obtain ⟨i, hi, hmem⟩ := List.mem_flatMap.mp hpush
            rw [dst_of_mem_sendto hmem]
            exact answerable_place rl ll hi hop
          · exact hback hreply
        · obtain ⟨reply, hsent, _⟩ := hmatch.sent_of_ask hop
          rw [hsent] at hnew
          exact hback hnew

/-- What any datagrams from anybody can make the server keep and send: no more
names than were registered or looked something up, no more subscriptions than
lookups, one datagram for each request and one for each pair of a registration
and a lookup; and none of them goes to anybody who did not ask. -/
theorem bounded_by_requests (rl ll : Int) (es : List Event) :
    ((new rl ll).run es).registeredNames.keys.length ≤
      (registrations es).length + (lookups es).length ∧
    (∀ l : List (Subscriber × LogicalAddress), l.Nodup →
      (∀ x ∈ l, x.1 ∈ ((new rl ll).run es).subscribers x.2) →
      l.length ≤ (lookups es).length) ∧
    ((new rl ll).sends es).length ≤ (registrations es).length + (lookups es).length +
      (registrations es).length * (lookups es).length ∧
    ∀ d ∈ (new rl ll).sends es, Answerable es d.dst := by
  refine ⟨?_, fun l hnodup hl => ?_, length_sends_le rl ll es, fun d hd =>
    answerable_sends rl ll hd⟩
  · have hsub : ((new rl ll).run es).registeredNames.keys ⊆ names es := fun n hn =>
      mem_names_of_key rl ll (AList.mem_keys.mpr hn)
    have hle := (List.subperm_of_subset (AList.keys_nodup _) hsub).length_le
    rwa [names, List.length_append, List.length_map, List.length_map] at hle
  · have hsub : l ⊆ lookups es := fun x hx => mem_lookups_of_subscribed rl ll (hl x hx)
    exact (List.subperm_of_subset hnodup hsub).length_le

end SimpleRendezvousServer

end PermanentIP

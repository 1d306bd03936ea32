import PermanentIP.Proofs.Registry

/-!
# What the server sends to one subscriber

A subscriber listens on one port of one address, and the server sends to it
from three places: the reply to its lookup, the pushes of the name it asked
for, and the pushes of any other name it is subscribed to. `FollowsOnly` is the
state in which the last place is empty: the pair is in one subscription set and
in no other, and its own name is registered where it listens. Under the
conditions of `Stationary` on the datagrams the server receives, the lookup
brings that state about and everything after it keeps it, so that what reaches
the subscriber is the reply and then one push for each registration of the name
(`sends_to_subscriber`).
-/

namespace PermanentIP

open Lib SimpleMobileNode

namespace SimpleRendezvousServer

/-! ## Sends along a run -/

def sends (srv : SimpleRendezvousServer) : List Event → List Sent
  | [] => []
  | e :: es => (srv.receive e).sent ++ sends (srv.next e) es

def isTo (a : UInt32) (p : UInt16) (d : Sent) : Bool :=
  d.dst.sinAddr = a ∧ d.dst.sinPort = p

def Event.packet : Event → Packet
  | .lookup q => q
  | .registration q _ => q

/-- What `socket` returns if `UpdateAddress` asks for one. -/
def Event.updateSocket : Event → Int
  | .lookup _ => -1
  | .registration _ sock => sock

/-- The push of `n`'s registrations to the port `p` of the address `a`. -/
def Event.push? (n : LogicalAddress) (a : UInt32) (p : UInt16) (e : Event) :
    Option Sent :=
  match e.registers? with
  | some (m, b) =>
      if m = n then
        some ⟨e.updateSocket, ⟨netV4, p, a⟩, intToIPString b.toInt32 ++ [0]⟩
      else none
  | none => none

variable {srv : SimpleRendezvousServer} {e : Event} {es fs : List Event}
  {S n m : LogicalAddress} {p : UInt16} {a : UInt32}

theorem sends_append (es fs : List Event) :
    srv.sends (es ++ fs) = srv.sends es ++ (srv.run es).sends fs := by
  induction es generalizing srv with
  | nil => rfl
  | cons e es ih =>
      rw [List.cons_append, sends, sends, ih, List.append_assoc]
      rfl

theorem sends_snoc (es : List Event) (e : Event) :
    srv.sends (es ++ [e]) = srv.sends es ++ ((srv.run es).receive e).sent := by
  rw [sends_append, sends, sends, List.append_nil]

theorem receive_sent (srv : SimpleRendezvousServer) (e : Event) :
    ∃ reply, (srv.receive e).sent = srv.pushes e ++ reply ∧
      ∀ d ∈ reply, d.dst = e.packet.src := by
  cases e with
  | lookup q =>
      by_cases h : q.payload = []
      · rw [(receive_empty_lookup h).2, pushes]
        simp [Event.call?, Event.lookup?, h]
      · rw [(receive_lookup h).2, pushes]
        simp only [Event.call?, Event.lookup?, if_neg h, Option.map_some,
          List.nil_append]
        exact ⟨_, rfl, fun d hd => dst_of_mem_sendto hd⟩
  | registration q sock =>
      by_cases h : q.payload = []
      · rw [(receive_empty_registration h).2, pushes]
        simp [Event.call?, Event.registers?, h]
      · rw [(receive_registration h).2, pushes]
        simp only [Event.call?, Event.registers?, if_neg h, Option.map_some]
        exact ⟨_, rfl, fun d hd => dst_of_mem_sendto hd⟩

theorem mem_subscribers_next {s : Subscriber}
    (h : ∀ m, e.lookup? ≠ some (s, m)) :
    s ∈ (srv.next e).subscribers m ↔ s ∈ srv.subscribers m := by
  rw [next_eq_call]
  cases e with
  | lookup q =>
      rcases hl : (Event.lookup q).lookup? with _ | ⟨s', m'⟩
      · simp only [Event.call?, hl, Option.map_none]
      · have hne : s ≠ s' := by
          intro heq
          subst heq
          exact h m' hl
        simp only [Event.call?, hl, Option.map_some, call]
        exact mem_changeSubscription_ne hne
  | registration q sock =>
      rcases hr : (Event.registration q sock).registers? with _ | ⟨m', b⟩
      · simp only [Event.call?, hr, Option.map_none]
      · simp only [Event.call?, hr, Option.map_some, call,
          subscribers_updateAddress]

theorem subscribers_next_of_lookup_none (h : e.lookup? = none) :
    (srv.next e).subscribers m = srv.subscribers m := by
  rw [next_eq_call]
  cases e with
  | lookup q => simp only [Event.call?, h, Option.map_none]
  | registration q sock =>
      rcases hr : (Event.registration q sock).registers? with _ | ⟨m', b⟩
      · simp only [Event.call?, hr, Option.map_none]
      · simp only [Event.call?, hr, Option.map_some, call,
          subscribers_updateAddress]

theorem pushes_of_registers_none (h : e.registers? = none) :
    srv.pushes e = [] := by
  cases e with
  | lookup q =>
      rw [pushes]
      rcases hl : (Event.lookup q).lookup? with _ | ⟨s, m⟩
      · simp only [Event.call?, hl, Option.map_none]
      · simp only [Event.call?, hl, Option.map_some]
  | registration q sock => simp only [pushes, Event.call?, h, Option.map_none]

theorem pushes_of_registers {b : UInt32} (h : e.registers? = some (m, b))
    (hsock : 0 ≤ e.updateSocket) :
    srv.pushes e = (srv.subscribers m).elems.map fun i =>
      ⟨e.updateSocket, pushAddr (srv.next e).registeredNames i,
        intToIPString b.toInt32 ++ [0]⟩ := by
  cases e with
  | lookup q => cases h
  | registration q sock =>
      have hcall : (Event.registration q sock).call? =
          some (.updateAddress sock m (intToIPString b.toInt32)) := by
        rw [Event.call?, h]
        rfl
      rw [pushes, hcall]
      have hsock' : 0 ≤ sock := hsock
      simp only []
      rw [updateAddress_sent_of_nonneg hsock']
      refine List.map_congr_left fun i _ => ?_
      rw [next_eq_call, hcall]
      simp only [call, get_updateAddress, pushAddr, pushDst, Event.updateSocket]

theorem pushes_of_no_socket (hsock : ¬ 0 ≤ e.updateSocket) : srv.pushes e = [] := by
  cases e with
  | lookup q => exact pushes_of_registers_none rfl
  | registration q sock =>
      have hneg : sock < 0 := Int.not_le.mp hsock
      rw [pushes]
      rcases hr : (Event.registration q sock).registers? with _ | ⟨m, b⟩
      · simp only [Event.call?, hr, Option.map_none]
      · simp [Event.call?, hr, updateAddress_sent, sendto, hneg]

theorem push_mem_receive_sent {s : Subscriber} {b : UInt32}
    (hs : s ∈ srv.subscribers n) (he : e.registers? = some (n, b))
    (hsock : 0 ≤ e.updateSocket) :
    ⟨e.updateSocket, pushAddr (srv.next e).registeredNames s,
      intToIPString b.toInt32 ++ [0]⟩ ∈ (srv.receive e).sent := by
  obtain ⟨reply, hsent, _⟩ := receive_sent srv e
  rw [hsent, pushes_of_registers he hsock]
  exact List.mem_append_left _ (List.mem_map_of_mem hs)

/-! ## One subscriber -/

/-- The pair is subscribed to `n` and to nothing else, and its name is
registered at `a`. -/
structure FollowsOnly (S : LogicalAddress) (p : UInt16) (a : UInt32)
    (n : LogicalAddress) (srv : SimpleRendezvousServer) : Prop where
  subscribed : ⟨S, p⟩ ∈ srv.subscribers n
  nowhereElse : ∀ m, m ≠ n → ⟨S, p⟩ ∉ srv.subscribers m
  located : UnorderedMap.get srv.registeredNames S = intToIPString a.toInt32

/-- No other subscriber can be taken for the pair: who has its port is not
registered at its address. -/
def NoTwin (S : LogicalAddress) (p : UInt16) (a : UInt32)
    (srv : SimpleRendezvousServer) : Prop :=
  ∀ m, ∀ s ∈ srv.subscribers m, s.port = p →
    UnorderedMap.get srv.registeredNames s.name = intToIPString a.toInt32 →
    s.name = S

/-- A datagram that leaves the pair alone: it is not from there, is no lookup
by it, and does not register its name elsewhere. -/
structure Unrelated (S : LogicalAddress) (p : UInt16) (a : UInt32)
    (e : Event) : Prop where
  source : e.packet.src.sinAddr = a → e.packet.src.sinPort ≠ p
  noLookup : ∀ m, e.lookup? ≠ some (⟨S, p⟩, m)
  stays : ∀ b, e.registers? = some (S, b) → b = a

theorem FollowsOnly.next (h : FollowsOnly S p a n srv) (he : Unrelated S p a e) :
    FollowsOnly S p a n (srv.next e) where
  subscribed := (mem_subscribers_next he.noLookup).mpr h.subscribed
  nowhereElse m hm hmem :=
    h.nowhereElse m hm ((mem_subscribers_next he.noLookup).mp hmem)
  located := by
    rw [get_next]
    rcases hr : e.registers? with _ | ⟨m, b⟩
    · exact h.located
    · simp only []
      split
      · next heq =>
          subst heq
          rw [he.stays b hr]
      · exact h.located

/-- A registry that holds the texts of addresses and nothing else. -/
def HoldsAddresses (srv : SimpleRendezvousServer) : Prop :=
  ∀ m, ∃ o, UnorderedMap.get srv.registeredNames m = addressText o

/-- The server looks for `a` where the registry says `a`, and nowhere else. -/
theorem HoldsAddresses.decode_eq_iff (h : HoldsAddresses srv) (ha : a ≠ 0) :
    (ipStringToInt (UnorderedMap.get srv.registeredNames m)).toUInt32 = a ↔
      UnorderedMap.get srv.registeredNames m = intToIPString a.toInt32 := by
  obtain ⟨o, ho⟩ := h m
  rw [ho, ipStringToInt_addressText]
  constructor
  · intro heq
    cases o with
    | none => exact absurd heq.symm ha
    | some b =>
        rw [Option.getD_some] at heq
        rw [heq]
        rfl
  · intro heq
    have hdecode := ipStringToInt_addressText o
    rw [heq, ipStringToInt_intToIPString] at hdecode
    rw [← hdecode]
    rfl

/-- What one such datagram makes the server send to the pair: the push, if it
registers the name the pair follows. -/
theorem FollowsOnly.receive_sent (h : FollowsOnly S p a n srv)
    (he : Unrelated S p a e) (ha : a ≠ 0) (hsock : 0 ≤ e.updateSocket ∨ e.registers? = none)
    (htwin : NoTwin S p a (srv.next e)) (haddr : HoldsAddresses (srv.next e)) :
    (srv.receive e).sent.filter (isTo a p) = (e.push? n a p).toList := by
  obtain ⟨reply, hsent, hreply⟩ := SimpleRendezvousServer.receive_sent srv e
  have hnone : reply.filter (isTo a p) = [] := by
    rw [List.filter_eq_nil_iff]
    intro d hd
    rw [isTo, hreply d hd, decide_eq_true_eq]
    exact fun hsrc => he.source hsrc.1 hsrc.2
  rw [hsent, List.filter_append, hnone, List.append_nil, Event.push?]
  rcases hr : e.registers? with _ | ⟨m, b⟩
  · rw [pushes_of_registers_none hr]
    rfl
  · have hnext := h.next he
    rw [hr] at hsock
    rw [pushes_of_registers hr (by simpa using hsock), List.filter_map]
    -- of the subscribers of `m`, only the pair itself is at `a` on port `p`
    have hself : ∀ i ∈ srv.subscribers m,
        (isTo a p ∘ fun i => (⟨e.updateSocket,
          pushAddr (srv.next e).registeredNames i,
          intToIPString b.toInt32 ++ [0]⟩ : Sent)) i ↔ i = ⟨S, p⟩ := by
      intro i hi
      rw [Function.comp_apply, isTo, decide_eq_true_eq, pushAddr,
        haddr.decode_eq_iff ha]
      constructor
      · intro hloc
        have hmem : i ∈ (srv.next e).subscribers m := by
          refine (mem_subscribers_next fun m' hl => ?_).mpr hi
          cases e with
          | lookup q => cases hr
          | registration q sock => cases hl
        have hname := htwin m i hmem hloc.2 hloc.1
        cases i
        simp only at hname hloc
        rw [hname, hloc.2]
      · intro heq
        subst heq
        exact ⟨hnext.located, rfl⟩
    simp only []
    split
    · next heq =>
        subst heq
        rw [OrdSet.filter_elems_eq_singleton h.subscribed hself]
        simp [pushAddr, (haddr.decode_eq_iff ha).mpr hnext.located]
    · next hne =>
        rw [List.filter_eq_nil_iff.mpr]
        · rfl
        · intro i hi hto
          have heq := (hself i hi).mp hto
          subst heq
          exact h.nowhereElse m hne hi

/-! ## Along a run -/

theorem not_subscribed_run (rl ll : Int)
    (h : ∀ e ∈ es, ∀ m, e.lookup? ≠ some (⟨S, p⟩, m)) (m : LogicalAddress) : ⟨S, p⟩ ∉ ((new rl ll).run es).subscribers m := by
  induction es using List.reverseRecOn with
  | nil => exact OrdSet.not_mem_empty _
  | append_singleton es e ih =>
      rw [run_snoc, mem_subscribers_next (h e (by simp))]
      exact ih fun e' he' => h e' (List.mem_append_left _ he')

theorem holdsAddresses_run (rl ll : Int) (es : List Event) :
    HoldsAddresses ((new rl ll).run es) :=
  fun m => ⟨lastRegistration m es, get_run rl ll es m⟩

theorem mem_registeredNames_run (h : Registered n es) :
    n ∈ ((new rl ll).run es).registeredNames := by
  by_contra hn
  have hget := get_run rl ll es n
  rw [UnorderedMap.get_of_notMem hn] at hget
  have hnone := addressText_eq_nil.mp hget.symm
  have hsome := lastRegistration_isSome_iff.mpr h
  rw [hnone] at hsome
  cases hsome

end SimpleRendezvousServer

end PermanentIP

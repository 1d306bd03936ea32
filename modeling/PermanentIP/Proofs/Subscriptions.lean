import PermanentIP.Proofs.ServerCalls

/-!
# Subscriptions are switches

A lookup of a registered name flips the pair that asked, and nothing else in
the server touches a subscription: not a registration, whose loop only reads
the set, and not the lookup of another name or by another pair. So whether a
pair is subscribed is the parity of the calls that flipped it, the ones made
while the name was a key of the registry.

What counts is being a key, not having registered: a subscriber that never
registered becomes a key, too, the first time it is pushed to.
-/

namespace PermanentIP

open Lib

namespace SimpleRendezvousServer

def calls (srv : SimpleRendezvousServer) (cs : List Call) :
    SimpleRendezvousServer := cs.foldl call srv

def Toggles (s : Subscriber) (n : LogicalAddress)
    (srv : SimpleRendezvousServer) (c : Call) : Prop :=
  c = .changeSubscription s n ∧ n ∈ srv.registeredNames

instance (s : Subscriber) (n : LogicalAddress) (srv : SimpleRendezvousServer)
    (c : Call) : Decidable (Toggles s n srv c) :=
  inferInstanceAs (Decidable (_ ∧ _))

variable {srv : SimpleRendezvousServer} {s : Subscriber} {n : LogicalAddress}
  {c : Call}

theorem mem_call_of_toggles (h : Toggles s n srv c) :
    s ∈ (srv.call c).subscribers n ↔ s ∉ srv.subscribers n := by
  obtain ⟨rfl, hn⟩ := h
  exact mem_changeSubscription_self hn

theorem mem_call_of_not_toggles (h : ¬ Toggles s n srv c) :
    s ∈ (srv.call c).subscribers n ↔ s ∈ srv.subscribers n := by
  cases c with
  | updateAddress sock m address => rw [call, subscribers_updateAddress]
  | changeSubscription s' m =>
      rw [call]
      by_cases hs : s = s'
      · subst hs
        by_cases hm : n = m
        · subst hm
          have hn : n ∉ srv.registeredNames := fun hn => h ⟨rfl, hn⟩
          rw [changeSubscription_of_notMem hn]
        · rw [subscribers_changeSubscription_ne hm]
      · exact mem_changeSubscription_ne hs

/-- Subscribed means flipped an odd number of times. -/
theorem mem_calls_iff_odd (rl ll : Int) (cs : List Call) (s : Subscriber)
    (n : LogicalAddress) :
    s ∈ ((new rl ll).calls cs).subscribers n ↔
      Odd (hits call (Toggles s n) (new rl ll) cs) := by
  have h0 : s ∉ (new rl ll).subscribers n := OrdSet.not_mem_empty s
  exact mem_foldl_iff_odd_hits
    (fun srv : SimpleRendezvousServer => s ∈ srv.subscribers n) h0
    (fun _ _ h => mem_call_of_toggles h)
    (fun _ _ h => mem_call_of_not_toggles h) cs

/-- Subscription membership is the parity of effective lookups, over any run
of the two operations from the empty server, with what each operation leaves
alone in the state the run reached. -/
theorem subscription_parity (rl ll : Int) (cs : List Call) :
    (∀ s n, s ∈ ((new rl ll).calls cs).subscribers n ↔
      Odd (hits call (Toggles s n) (new rl ll) cs)) ∧
    (∀ sock name address n,
      (((new rl ll).calls cs).updateAddress sock name address).2.subscribers n =
        ((new rl ll).calls cs).subscribers n) ∧
    (∀ s n,
      (((new rl ll).calls cs).changeSubscription s n).2.registeredNames =
          ((new rl ll).calls cs).registeredNames ∧
        (∀ m, m ≠ n →
          (((new rl ll).calls cs).changeSubscription s n).2.subscribers m =
            ((new rl ll).calls cs).subscribers m) ∧
        (∀ s', s' ≠ s →
          (s' ∈ (((new rl ll).calls cs).changeSubscription s n).2.subscribers n ↔
            s' ∈ ((new rl ll).calls cs).subscribers n)) ∧
        (n ∉ ((new rl ll).calls cs).registeredNames →
          ((new rl ll).calls cs).changeSubscription s n =
            ([], (new rl ll).calls cs))) := by
  refine ⟨mem_calls_iff_odd rl ll cs, fun _ _ _ _ => subscribers_updateAddress,
    fun s n => ⟨registeredNames_changeSubscription, ?_, ?_, ?_⟩⟩
  · exact fun m hm => subscribers_changeSubscription_ne hm
  · exact fun s' hs => mem_changeSubscription_ne hs
  · exact changeSubscription_of_notMem

end SimpleRendezvousServer

end PermanentIP

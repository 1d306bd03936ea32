import PermanentIP.RendezvousServer.SimpleRendezvousServer
import PermanentIP.Lib.Run

/-!
# What the server's two operations do

One block of lemmas for each operation, read off the code once; everything
later cites these and unfolds neither.

`UpdateAddress` leaves every subscription set alone and stores the address
under its name; its loop changes no entry's value, since all a read by
`operator[]` can add is an empty string under a new key. So the datagrams it
sends can be computed from the registry as the loop finds it
(`updateAddress_sent`), while the keys it leaves are more than the names
registered (`mem_updateAddress`).

`ChangeSubscription` answers with the entry, or with the empty string where
there is none, which is one and the same read (`changeSubscription_answer`),
and flips one pair's membership in one set.
-/

namespace PermanentIP

open Lib

namespace SimpleRendezvousServer

variable {srv : SimpleRendezvousServer} {sock : Int} {n m : LogicalAddress}
  {address : PhysicalAddress} {s s' : Subscriber}

/-! ## The push loop -/

section PushUpdates

variable {names : UnorderedMap LogicalAddress PhysicalAddress}
  {subs : List Subscriber}

theorem pushAddr_touch (i : Subscriber) :
    pushAddr (UnorderedMap.touch names m) i = pushAddr names i := by
  rw [pushAddr, UnorderedMap.get_touch, pushAddr]

theorem get_pushUpdates :
    UnorderedMap.get (pushUpdates sock address subs names).2 n =
      UnorderedMap.get names n := by
  induction subs generalizing names with
  | nil => rfl
  | cons i rest ih => rw [pushUpdates, ih, UnorderedMap.get_touch]

theorem mem_pushUpdates :
    n ∈ (pushUpdates sock address subs names).2 ↔
      n ∈ names ∨ ∃ i ∈ subs, i.name = n := by
  induction subs generalizing names with
  | nil => simp [pushUpdates]
  | cons i rest ih =>
      rw [pushUpdates, ih, UnorderedMap.mem_touch, List.exists_mem_cons_iff,
        eq_comm (a := n)]
      tauto

theorem lookup_pushUpdates (h : n ∈ names) :
    (pushUpdates sock address subs names).2.lookup n = names.lookup n := by
  induction subs generalizing names with
  | nil => rfl
  | cons i rest ih =>
      rw [pushUpdates, ih (UnorderedMap.mem_touch.mpr (Or.inr h)),
        UnorderedMap.lookup_touch_of_mem h]

theorem pushUpdates_sent :
    (pushUpdates sock address subs names).1 =
      subs.flatMap fun i => sendto sock (address ++ [0]) (pushAddr names i) := by
  induction subs generalizing names with
  | nil => rfl
  | cons i rest ih =>
      rw [pushUpdates, ih, List.flatMap_cons]
      simp only [pushAddr_touch]

end PushUpdates

/-! ## `UpdateAddress` -/

@[simp] theorem subscribers_updateAddress :
    (srv.updateAddress sock n address).2.subscribers m = srv.subscribers m :=
  UnorderedMap.get_touch _ _ _

theorem get_updateAddress :
    UnorderedMap.get (srv.updateAddress sock n address).2.registeredNames m =
      if n = m then address else UnorderedMap.get srv.registeredNames m := by
  show UnorderedMap.get (pushUpdates _ _ _ _).2 m = _
  rw [get_pushUpdates]
  split
  · next h => subst h; exact UnorderedMap.get_insert _ _ _
  · next h => exact UnorderedMap.get_insert_ne (Ne.symm h)

/-- The keys afterwards: the name, and every subscriber's. -/
theorem mem_updateAddress :
    m ∈ (srv.updateAddress sock n address).2.registeredNames ↔
      m = n ∨ m ∈ srv.registeredNames ∨
        ∃ i ∈ srv.subscribers n, i.name = m := by
  show m ∈ (pushUpdates _ _ _ _).2 ↔ _
  rw [mem_pushUpdates, AList.mem_insert, or_assoc]
  rfl

theorem lookup_updateAddress_self :
    (srv.updateAddress sock n address).2.registeredNames.lookup n =
      some address := by
  show (pushUpdates _ _ _ _).2.lookup n = _
  rw [lookup_pushUpdates (AList.mem_insert _ |>.mpr (Or.inl rfl)),
    AList.lookup_insert]

theorem lookup_updateAddress_of_mem (hne : m ≠ n)
    (h : m ∈ srv.registeredNames) :
    (srv.updateAddress sock n address).2.registeredNames.lookup m =
      srv.registeredNames.lookup m := by
  show (pushUpdates _ _ _ _).2.lookup m = _
  rw [lookup_pushUpdates (AList.mem_insert _ |>.mpr (Or.inr h)),
    AList.lookup_insert_ne hne]

/-- The destination of the push to a subscriber of `n`, whose own entry is
already the new one when the loop reads it. -/
def pushDst (srv : SimpleRendezvousServer) (n : LogicalAddress)
    (address : PhysicalAddress) (i : Subscriber) : SockAddr where
  sinFamily := netV4
  sinPort := i.port
  sinAddr := (ipStringToInt (if n = i.name then address
    else UnorderedMap.get srv.registeredNames i.name)).toUInt32

theorem updateAddress_sent :
    (srv.updateAddress sock n address).1 =
      (srv.subscribers n).elems.flatMap fun i =>
        sendto sock (address ++ [0]) (srv.pushDst n address i) := by
  show (pushUpdates _ _ _ _).1 = _
  rw [pushUpdates_sent]
  refine List.flatMap_congr fun i _ => ?_
  unfold pushAddr pushDst
  split
  · next h => subst h; rw [UnorderedMap.get_insert]
  · next h => rw [UnorderedMap.get_insert_ne (Ne.symm h)]

theorem updateAddress_sent_of_nonneg (hsock : 0 ≤ sock) :
    (srv.updateAddress sock n address).1 =
      (srv.subscribers n).elems.map fun i =>
        ⟨sock, srv.pushDst n address i, address ++ [0]⟩ := by
  rw [updateAddress_sent, List.map_eq_flatMap]
  refine List.flatMap_congr fun i _ => ?_
  rw [sendto, if_neg (by omega)]

theorem mem_updateAddress_sent {d : Sent}
    (h : d ∈ (srv.updateAddress sock n address).1) :
    ∃ i ∈ srv.subscribers n,
      d = ⟨sock, srv.pushDst n address i, address ++ [0]⟩ := by
  rw [updateAddress_sent, List.mem_flatMap] at h
  obtain ⟨i, hi, hd⟩ := h
  rw [sendto] at hd
  split at hd
  · cases hd
  · exact ⟨i, hi, List.mem_singleton.mp hd⟩

/-! ## `ChangeSubscription` -/

/-- The answer, registered or not, is what a read of the registry gives. -/
theorem changeSubscription_answer :
    (srv.changeSubscription s n).1 =
      UnorderedMap.get srv.registeredNames n := by
  rw [changeSubscription]
  split
  · rfl
  · next h => exact (UnorderedMap.get_of_notMem h).symm

@[simp] theorem registeredNames_changeSubscription :
    (srv.changeSubscription s n).2.registeredNames = srv.registeredNames := by
  rw [changeSubscription]
  split <;> rfl

theorem changeSubscription_of_notMem (h : n ∉ srv.registeredNames) :
    srv.changeSubscription s n = ([], srv) := by
  rw [changeSubscription, if_neg h]

theorem subscribers_changeSubscription_ne (h : m ≠ n) :
    (srv.changeSubscription s n).2.subscribers m = srv.subscribers m := by
  rw [changeSubscription]
  split
  · exact UnorderedMap.get_insert_ne h
  · rfl

theorem subscribers_changeSubscription (h : n ∈ srv.registeredNames) :
    (srv.changeSubscription s n).2.subscribers n =
      if s ∈ srv.subscribers n then (srv.subscribers n).erase s
      else (srv.subscribers n).insert s := by
  rw [changeSubscription, if_pos h]
  exact UnorderedMap.get_insert _ _ _

theorem mem_changeSubscription_self (h : n ∈ srv.registeredNames) :
    s ∈ (srv.changeSubscription s n).2.subscribers n ↔
      s ∉ srv.subscribers n := by
  rw [subscribers_changeSubscription h]
  split
  · next hs => simp [hs]
  · next hs => simp [hs]

theorem mem_changeSubscription_ne (hne : s' ≠ s) :
    s' ∈ (srv.changeSubscription s n).2.subscribers m ↔
      s' ∈ srv.subscribers m := by
  rcases eq_or_ne m n with rfl | hm
  · by_cases h : m ∈ srv.registeredNames
    · rw [subscribers_changeSubscription h]
      split
      · rw [OrdSet.mem_erase]
        exact and_iff_right hne
      · rw [OrdSet.mem_insert]
        exact or_iff_right hne
    · rw [changeSubscription_of_notMem h]
  · rw [subscribers_changeSubscription_ne hm]

end SimpleRendezvousServer

end PermanentIP

import PermanentIP.Proofs.SubscriberStream

/-!
# One request on a state the server can reach

What a single datagram does to a server that has handled any others before it.

A registration is one `UpdateAddress`. Its loop overwrites the name's own entry
first and then reads the registry with an operator that may insert, but where
every subscriber has registered the read finds what it looks for, so the only
entry that changes is the name's, and each subscriber is sent the new address
once, at the address it last registered from (`registration_pushed_once`). That is
as long as the line about each push can be logged: see `pushed_once_iff`.

A lookup is parsed by its separator. A request without one is not refused:
`find` answers `npos`, `npos + 1` is zero, and the whole text is taken both for
who asks and for whom. What that does depends on the registry alone
(`malformed_lookup_unchanged_iff`).
-/

namespace PermanentIP

open Lib

namespace SimpleRendezvousServer

variable {srv : SimpleRendezvousServer} {n m : LogicalAddress} {a : UInt32}
  {sock : Int} {es : List Event} {s : Subscriber} {p : Packet}

/-! ## A registration -/

/-- Where `name` last registered from, once `n` has registered from `a`. -/
def locatedAt (es : List Event) (n : LogicalAddress) (a : UInt32)
    (name : LogicalAddress) : Option UInt32 :=
  if n = name then some a else lastRegistration name es

theorem pushDst_run (rl ll : Int) (h : Registered s.name es) :
    ∃ b, locatedAt es n a s.name = some b ∧
      ((new rl ll).run es).pushDst n (intToIPString a.toInt32) s =
        ⟨netV4, s.port, b⟩ := by
  rw [locatedAt, pushDst, get_run]
  split
  · refine ⟨a, rfl, ?_⟩
    rw [ipStringToInt_intToIPString]
    rfl
  · obtain ⟨b, hb⟩ :=
      Option.isSome_iff_exists.mp (lastRegistration_isSome_iff.mpr h)
    refine ⟨b, hb, ?_⟩
    rw [ipStringToInt_addressText, hb]
    rfl

/-- With every subscriber in the registry already, the reads of the loop add
no key to it. -/
theorem lookup_updateAddress_ne {address : PhysicalAddress}
    (hsubs : ∀ s ∈ srv.subscribers n, s.name ∈ srv.registeredNames)
    (hne : m ≠ n) :
    (srv.updateAddress sock n address).2.registeredNames.lookup m =
      srv.registeredNames.lookup m := by
  by_cases hm : m ∈ srv.registeredNames
  · exact lookup_updateAddress_of_mem hne hm
  · have hm' : m ∉ (srv.updateAddress sock n address).2.registeredNames := by
      rw [mem_updateAddress]
      rintro (rfl | hmem | ⟨i, hi, rfl⟩)
      · exact hne rfl
      · exact hm hmem
      · exact hm (hsubs i hi)
    rw [AList.lookup_eq_none.mpr hm', AList.lookup_eq_none.mpr hm]

/-- A registration of `n` from `a`, after these datagrams, has made the server send
this and left it as that: one datagram for each subscriber and no other, to the
subscriber's port at the address it last registered from, with a payload that
decodes to `a`. Every `IPStringToInt` on the way ends, no subscription has changed,
and of the registry only the entry of `n` has. -/
structure PushedOnce (rl ll : Int) (es : List Event) (n : LogicalAddress) (a : UInt32)
    (sock : Int) (sent : List Sent) (after : SimpleRendezvousServer) : Prop where
  terminates : ∀ s ∈ ((new rl ll).run es).subscribers n,
    (ipStringToIntRun (UnorderedMap.get after.registeredNames s.name)).isSome
  pushes : ∃ (subs : List Subscriber) (address : Subscriber → UInt32),
    subs.Nodup ∧ (∀ s, s ∈ subs ↔ s ∈ ((new rl ll).run es).subscribers n) ∧
    (∀ s ∈ subs, locatedAt es n a s.name = some (address s)) ∧
    sent = subs.map fun s =>
      ⟨sock, ⟨netV4, s.port, address s⟩, intToIPString a.toInt32 ++ [0]⟩
  decoded : ∀ src, (ipStringToInt
    (Packet.text ⟨src, intToIPString a.toInt32 ++ [0]⟩)).toUInt32 = a
  subscriptions : ∀ m, after.subscribers m = ((new rl ll).run es).subscribers m
  entry : after.registeredNames.lookup n = some (intToIPString a.toInt32)
  others : ∀ m, m ≠ n → after.registeredNames.lookup m =
    ((new rl ll).run es).registeredNames.lookup m

/-- What `UpdateAddress` does with a registration in a reachable state whose
subscribers of the name have all registered, as long as its log lets it -/
theorem registration_pushed_once (rl ll : Int) (es : List Event)
    (n : LogicalAddress) (a : UInt32) (sock : Int) (hsock : 0 ≤ sock)
    (hreg : ∀ s ∈ ((new rl ll).run es).subscribers n, Registered s.name es) :
    PushedOnce rl ll es n a sock
      (((new rl ll).run es).updateAddress sock n (intToIPString a.toInt32)).1
      (((new rl ll).run es).updateAddress sock n (intToIPString a.toInt32)).2 where
  terminates _ _ := ipStringToIntRun_isSome _
  pushes := by
    refine ⟨(((new rl ll).run es).subscribers n).elems,
      fun s => (locatedAt es n a s.name).getD 0, OrdSet.nodup _,
      fun _ => Iff.rfl, ?_, ?_⟩
    · intro s hs
      obtain ⟨b, hb, _⟩ := pushDst_run (n := n) (a := a) rl ll (hreg s hs)
      simp only [hb, Option.getD_some]
    · rw [updateAddress_sent_of_nonneg hsock]
      refine List.map_congr_left fun s hs => ?_
      obtain ⟨b, hb, hdst⟩ := pushDst_run (n := n) (a := a) rl ll (hreg s hs)
      simp only [hdst, hb, Option.getD_some]
  decoded src := ipStringToInt_push src a
  subscriptions _ := subscribers_updateAddress
  entry := lookup_updateAddress_self
  others _ hne := lookup_updateAddress_ne
    (fun s hs => mem_registeredNames_run (hreg s hs)) hne

/-! ## A lookup without a separator -/

theorem parseLookup_of_no_bar {request : NetworkMsg} (h : bar ∉ request) :
    parseLookup request = (request, request) := by
  rw [parseLookup, Str.find_eq_none.mpr h]
  rfl

theorem next_lookup_of_no_bar (hp : p.payload ≠ []) (hbar : bar ∉ p.text) :
    srv.next (.lookup p) =
      (srv.changeSubscription ⟨p.text, p.src.sinPort⟩ p.text).2 := by
  rw [SimpleRendezvousServer.next, (receive_lookup hp).1,
    parseLookup_of_no_bar hbar]

/-- A request without a separator leaves the registry as it was, and leaves the
subscriptions as they were exactly where its text is no key of the registry;
where it is one, the text is subscribed to itself, or unsubscribed. -/
theorem malformed_lookup_unchanged_iff (rl ll : Int) (es : List Event)
    (p : Packet) (hp : 1 ≤ p.payload.length ∧ p.payload.length ≤ 4095)
    (hbar : bar ∉ p.text) :
    ((∀ n s, s ∈ (((new rl ll).run es).next (.lookup p)).subscribers n ↔
        s ∈ ((new rl ll).run es).subscribers n) ∧
      (((new rl ll).run es).next (.lookup p)).registeredNames =
        ((new rl ll).run es).registeredNames) ↔
    p.text ∉ ((new rl ll).run es).registeredNames := by
  have hne : p.payload ≠ [] := by
    intro hnil
    rw [hnil] at hp
    exact absurd hp.1 (by decide)
  rw [next_lookup_of_no_bar hne hbar]
  constructor
  · rintro ⟨hsubs, _⟩ hmem
    -- the pair of the text and the request's port has changed sides
    have hflip := mem_changeSubscription_self
      (s := ⟨p.text, p.src.sinPort⟩) hmem
    rw [hsubs] at hflip
    exact iff_not_self hflip
  · intro hmem
    rw [changeSubscription_of_notMem hmem]
    exact ⟨fun _ _ => Iff.rfl, rfl⟩

/-- A bare name nobody has registered. -/
theorem malformed_lookup_unchanged_iff_example :
    (((new 3 4).run [.registration ⟨⟨netV4, 5, 7⟩, ascii "A"⟩ 6]).next
      (.lookup ⟨⟨netV4, 1, 8⟩, ascii "B"⟩)).registeredNames =
    ((new 3 4).run
      [.registration ⟨⟨netV4, 5, 7⟩, ascii "A"⟩ 6]).registeredNames :=
  ((malformed_lookup_unchanged_iff 3 4
    [.registration ⟨⟨netV4, 5, 7⟩, ascii "A"⟩ 6]
    ⟨⟨netV4, 1, 8⟩, ascii "B"⟩ (by decide) (by decide +kernel)).mpr
      (by decide +kernel)).2

/-- The bare name `A`, as it would be sent to the DNS, after A has registered:
from then on A is subscribed to itself. -/
theorem bare_name_subscribes : ¬ ∀ (es : List Event) (p : Packet),
    1 ≤ p.payload.length → p.payload.length ≤ 4095 → bar ∉ p.text →
    (∀ n s, s ∈ (((new 3 4).run es).next (.lookup p)).subscribers n ↔
        s ∈ ((new 3 4).run es).subscribers n) ∧
      (((new 3 4).run es).next (.lookup p)).registeredNames =
        ((new 3 4).run es).registeredNames := by
  intro h
  have hsubs := (h [.registration ⟨⟨netV4, 5, 7⟩, ascii "A"⟩ 6]
    ⟨⟨netV4, 1, 8⟩, ascii "A"⟩ (by decide) (by decide) (by decide +kernel)).1
  exact absurd (hsubs (ascii "A") ⟨ascii "A", 1⟩) (by decide +kernel)

end SimpleRendezvousServer

end PermanentIP

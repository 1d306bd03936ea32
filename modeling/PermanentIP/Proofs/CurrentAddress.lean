import PermanentIP.Common.Interfaces
import PermanentIP.MobileNode.SimpleMobileNode

/-!
# What `GetCurrentIPAddress` finds

The test keeps one bit of the address: the first octet is above 127, that is,
its top bit is set. It was to skip the loopback network, which it does, and it
skips every other network of the lower half with it; and it is made on the
bytes of every entry, whatever its family, so another family's bytes can be
taken for an address.

`high` is that test, and `usable` what it stands in for. The result is the
address the list has to offer exactly where the two agree on what comes first
(`current_address_iff`). For the daemon, which stores one result and compares it
with the next, this decides which moves it notices.
-/

namespace PermanentIP

namespace InterfaceAddr

/-- The first octet of the address, as it is written -/
def firstOctet (a : InterfaceAddr) : Nat := a.sAddr.toNat % 256

/-- An IPv4 address outside 127.0.0.0/8, and not 0.0.0.0 -/
def usable (a : InterfaceAddr) : Bool :=
  a.saFamily == afInet && a.firstOctet != 127 && a.sAddr != 0

/-- The first octet has its top bit set. -/
def high (a : InterfaceAddr) : Bool := 127 < a.firstOctet

/-- 255.255.255.255, which is -1 as an `int` -/
def broadcast : UInt32 := 4294967295

theorem toInt32_eq_neg_one {x : UInt32} : x.toInt32 = -1 ↔ x = broadcast := by
  constructor
  · intro h
    exact congrArg Int32.toUInt32 h
  · rintro rfl
    rfl

theorem high_iff_shifts (a : InterfaceAddr) :
    (a.sAddr <<< 24) >>> 24 > 127 ↔ a.high = true := by
  have hlt := a.sAddr.toNat_lt
  rw [high, firstOctet, decide_eq_true_eq, gt_iff_lt, UInt32.lt_iff_toNat_lt,
    UInt32.toNat_shiftRight, UInt32.toNat_shiftLeft]
  simp only [UInt32.reduceToNat, Nat.shiftLeft_eq, Nat.shiftRight_eq_div_pow,
    Nat.reduceMod, Nat.reducePow]
  omega

end InterfaceAddr

open InterfaceAddr

/-- The addresses in the list, in its order -/
def addresses (interfaces : List IfAddrs) : List InterfaceAddr :=
  interfaces.filterMap IfAddrs.ifaAddr

/-- The result is the first high entry's. -/
theorem getCurrentIPAddress_eq (interfaces : List IfAddrs) :
    getCurrentIPAddress interfaces =
      (((addresses interfaces).find? high).map fun a => a.sAddr.toInt32).getD (-1) := by
  induction interfaces with
  | nil => rfl
  | cons ifAddress ifaNext ih =>
      rw [getCurrentIPAddress, addresses, List.filterMap_cons]
      cases ifAddress.ifaAddr with
      | none => exact ih
      | some a =>
          simp only
          by_cases hhigh : a.high = true
          · rw [if_pos ((high_iff_shifts a).mpr hhigh), List.find?_cons_of_pos hhigh,
              Option.map_some, Option.getD_some]
          · rw [if_neg fun h => hhigh ((high_iff_shifts a).mp h),
              List.find?_cons_of_neg hhigh]
            exact ih

/-- The result is the address the list has to offer, and -1 exactly if it has
none. -/
def FindsAddress (interfaces : List IfAddrs) : Prop :=
  (∀ a ∈ (addresses interfaces).find? usable,
    getCurrentIPAddress interfaces = a.sAddr.toInt32) ∧
  (getCurrentIPAddress interfaces = -1 ↔
    (addresses interfaces).find? usable = none)

theorem toInt32_injective {x y : UInt32} (h : x.toInt32 = y.toInt32) : x = y :=
  congrArg Int32.toUInt32 h

theorem high_of_sAddr_eq {a b : InterfaceAddr} (h : a.sAddr = b.sAddr) :
    a.high = b.high := by
  rw [high, high, firstOctet, firstOctet, h]

/-- A list with a usable address: whatever high entry stands before the first
one has to look the same. -/
theorem findsAddress_of_usable {interfaces : List IfAddrs} {g : InterfaceAddr}
    {pre post : List InterfaceAddr} (heq : addresses interfaces = pre ++ g :: post)
    (hg : g.usable = true) (hpre : ∀ a ∈ pre, a.usable = false) :
    FindsAddress interfaces ↔ g.high = true ∧ g.sAddr ≠ broadcast ∧
      ∀ a ∈ pre.find? high, a.sAddr = g.sAddr := by
  have hfirst : (addresses interfaces).find? usable = some g :=
    List.find?_eq_some_iff_append.mpr ⟨hg, pre, post, heq, by simpa using hpre⟩
  have hresult := getCurrentIPAddress_eq interfaces
  rw [heq, List.find?_append] at hresult
  rw [FindsAddress, hfirst]
  simp only [Option.mem_def, Option.some.injEq, forall_eq', reduceCtorEq, iff_false]
  cases hhigh : pre.find? high with
  | some a =>
      rw [hhigh] at hresult
      have hresult : getCurrentIPAddress interfaces = a.sAddr.toInt32 := hresult
      have hahigh : a.high = true := List.find?_some hhigh
      simp only [hresult, Option.some.injEq, forall_eq', toInt32_eq_neg_one]
      constructor
      · rintro ⟨hsame, hne⟩
        have hsame := toInt32_injective hsame
        exact ⟨high_of_sAddr_eq hsame ▸ hahigh, hsame ▸ hne, hsame⟩
      · rintro ⟨_, hne, hsame⟩
        exact ⟨congrArg UInt32.toInt32 hsame, hsame ▸ hne⟩
  | none =>
      rw [hhigh, Option.none_or] at hresult
      by_cases hghigh : g.high = true
      · rw [List.find?_cons_of_pos hghigh] at hresult
        have hresult : getCurrentIPAddress interfaces = g.sAddr.toInt32 := hresult
        simp [hresult, toInt32_eq_neg_one, hghigh]
      · refine iff_of_false ?_ fun h => hghigh h.1
        rintro ⟨hsame, hne⟩
        rw [List.find?_cons_of_neg hghigh] at hresult
        cases hpost : post.find? high with
        | none =>
            rw [hpost] at hresult
            exact hne hresult
        | some e =>
            rw [hpost] at hresult
            have hword := toInt32_injective (hresult.symm.trans hsame)
            rw [← high_of_sAddr_eq hword] at hghigh
            exact hghigh (List.find?_some hpost)

theorem findsAddress_of_none {interfaces : List IfAddrs}
    (hnone : ∀ a ∈ addresses interfaces, a.usable = false) :
    FindsAddress interfaces ↔
      ∀ a ∈ (addresses interfaces).find? high, a.sAddr = broadcast := by
  have hfirst : (addresses interfaces).find? usable = none :=
    List.find?_eq_none.mpr (by simpa using hnone)
  rw [FindsAddress, hfirst, getCurrentIPAddress_eq]
  cases (addresses interfaces).find? high with
  | none => simp
  | some a => simp [toInt32_eq_neg_one]

/-! ## A device with one interface -/

def Loopback (entry : IfAddrs) : Prop :=
  ∀ a ∈ entry.ifaAddr, a.saFamily = afInet ∧ a.firstOctet = 127

instance (entry : IfAddrs) : Decidable (Loopback entry) :=
  inferInstanceAs (Decidable (∀ a ∈ entry.ifaAddr, a.saFamily = afInet ∧
    a.firstOctet = 127))

theorem find?_high_loopback {entries : List IfAddrs}
    (h : ∀ e ∈ entries, Loopback e) : (addresses entries).find? high = none := by
  refine List.find?_eq_none.mpr fun a ha => ?_
  obtain ⟨e, he, hea⟩ := List.mem_filterMap.mp ha
  simp [high, (h e he a hea).2]

theorem getCurrentIPAddress_single {before after : List IfAddrs}
    (hbefore : ∀ e ∈ before, Loopback e) (hafter : ∀ e ∈ after, Loopback e)
    (a : InterfaceAddr) :
    getCurrentIPAddress (before ++ ⟨some a⟩ :: after) =
      if a.high then a.sAddr.toInt32 else -1 := by
  have hsplit : addresses (before ++ ⟨some a⟩ :: after) =
      addresses before ++ a :: addresses after := by
    rw [addresses, List.filterMap_append, List.filterMap_cons]
    rfl
  rw [getCurrentIPAddress_eq, hsplit, List.find?_append,
    find?_high_loopback hbefore, Option.none_or, List.find?_cons,
    find?_high_loopback hafter]
  cases a.high <;> rfl

theorem sAddr_inet (addr : UInt32) : (InterfaceAddr.inet addr).sAddr = addr := by
  have hlt := addr.toNat_lt
  refine UInt32.toNat.inj ?_
  simp [sAddr, InterfaceAddr.inet]
  omega

/-- The daemon sees an address whose first octet is above 127, and -1 for any
other. -/
theorem currentIPAddress_eq (ip : Int32) : currentIPAddress ip =
    if 127 < ip.toUInt32.toNat % 256 then ip else -1 := by
  have hloopback : ∀ e ∈ [IfAddrs.mk (some (.inet 0x0100007F))], Loopback e := by
    decide +kernel
  have hsingle := getCurrentIPAddress_single hloopback (List.forall_mem_nil _)
    (.inet ip.toUInt32)
  rw [high, firstOctet, sAddr_inet] at hsingle
  simp only [decide_eq_true_eq] at hsingle
  exact hsingle

theorem reported_ne_iff {a b : InterfaceAddr} (hne : a.sAddr ≠ b.sAddr) :
    (if a.high then a.sAddr.toInt32 else -1) ≠
        (if b.high then b.sAddr.toInt32 else -1) ↔
      (a.high = true ∧ a.sAddr ≠ broadcast) ∨
        (b.high = true ∧ b.sAddr ≠ broadcast) := by
  cases a.high with
  | false =>
      cases b.high with
      | false => simp
      | true => simp [ne_comm, ← toInt32_eq_neg_one]
  | true =>
      cases b.high with
      | false => simp [← toInt32_eq_neg_one]
      | true =>
          refine iff_of_true (fun h => hne (toInt32_injective h)) ?_
          by_cases ha : a.sAddr = broadcast
          · exact Or.inr ⟨rfl, fun hb => hne (ha.trans hb.symm)⟩
          · exact Or.inl ⟨rfl, ha⟩

/-- `GetCurrentIPAddress` finds the address the list has to offer exactly if the
first usable one is high, is not 255.255.255.255, and no other high bytes stand
before it; or if there is none and the first high bytes, if any, are
255.255.255.255. And the daemon of a device with one interface notices a move
exactly if one of the two addresses is high and not 255.255.255.255. -/
theorem current_address_iff (interfaces : List IfAddrs) :
    (FindsAddress interfaces ↔
      (∃ pre g post, addresses interfaces = pre ++ g :: post ∧ g.usable = true ∧
        (∀ a ∈ pre, a.usable = false) ∧ g.high = true ∧ g.sAddr ≠ broadcast ∧
        ∀ a ∈ pre.find? high, a.sAddr = g.sAddr) ∨
      ((∀ a ∈ addresses interfaces, a.usable = false) ∧
        ∀ a ∈ (addresses interfaces).find? high, a.sAddr = broadcast)) ∧
    ∀ (node : SimpleMobileNode) (before after : List IfAddrs) (a b : InterfaceAddr),
      (∀ e ∈ before, Loopback e) → (∀ e ∈ after, Loopback e) → a.sAddr ≠ b.sAddr →
        ((node.storeIpAddress
            (getCurrentIPAddress (before ++ ⟨some a⟩ :: after))).hasMoved
            (getCurrentIPAddress (before ++ ⟨some b⟩ :: after)) = true ↔
          (a.high = true ∧ a.sAddr ≠ broadcast) ∨
            (b.high = true ∧ b.sAddr ≠ broadcast)) := by
  refine ⟨?_, fun node before after a b hbefore hafter hne => ?_⟩
  · constructor
    · intro h
      cases hfirst : (addresses interfaces).find? usable with
      | some g =>
          obtain ⟨hg, pre, post, heq, hpre⟩ := List.find?_eq_some_iff_append.mp hfirst
          have hpre : ∀ a ∈ pre, a.usable = false := by simpa using hpre
          exact Or.inl ⟨pre, g, post, heq, hg, hpre,
            (findsAddress_of_usable heq hg hpre).mp h⟩
      | none =>
          have hnone : ∀ a ∈ addresses interfaces, a.usable = false := by
            simpa using List.find?_eq_none.mp hfirst
          exact Or.inr ⟨hnone, (findsAddress_of_none hnone).mp h⟩
    · rintro (⟨pre, g, post, heq, hg, hpre, hagree⟩ | ⟨hnone, hagree⟩)
      · exact (findsAddress_of_usable heq hg hpre).mpr hagree
      · exact (findsAddress_of_none hnone).mpr hagree
  · rw [SimpleMobileNode.hasMoved, SimpleMobileNode.storeIpAddress, bne_iff_ne,
      getCurrentIPAddress_single hbefore hafter,
      getCurrentIPAddress_single hbefore hafter]
    exact reported_ne_iff hne

def interface (family : UInt16) (data : List UInt8) : IfAddrs :=
  ⟨some ⟨family, Vector.ofFn fun i => data.getD i 0⟩⟩

/-- A device that moves from 192.168.0.7 to 192.168.0.9 -/
theorem current_address_iff_example :
    ((SimpleMobileNode.new [] [] [] 0).storeIpAddress
      (getCurrentIPAddress [interface afInet [0, 0, 127, 0, 0, 1],
        interface afInet [0, 0, 192, 168, 0, 7]])).hasMoved
      (getCurrentIPAddress [interface afInet [0, 0, 127, 0, 0, 1],
        interface afInet [0, 0, 192, 168, 0, 9]]) = true :=
  ((current_address_iff []).2 _ [interface afInet [0, 0, 127, 0, 0, 1]] [] _ _
    (by decide) (by decide) (by decide)).mpr (Or.inl (by decide))

/-- The first octet of 10.0.0.1 is below 128. -/
theorem ten_network_invisible : ¬ ∀ interfaces, FindsAddress interfaces := by
  intro h
  have hbad := h [interface afInet [0, 0, 10, 0, 0, 1]]
  exact absurd (hbad.2.mp (by decide)) (by decide)

end PermanentIP

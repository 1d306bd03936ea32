import PermanentIP.Proofs.AddressParser
import Mathlib.Tactic.NormNum

/-!
# The address codec

`IntToIPString` prints the four bytes of an address, least significant first,
and `IPStringToInt` adds up what it reads between dots, each number shifted
eight bits further than the one before. This file proves that the two undo
each other: the second the first on every 32-bit `int`, sign bit and all, and
the first the second on every canonical dotted quad. It also has what the rest
of the development needs to know about the text in between: it is never empty
and has no NUL, so it survives every C string it travels through.

The encoder masks an arithmetic shift, so its octets are the octets of the
unsigned address (`toNat_sshiftRight_and`); the decoder's sum over four octets
is the number they are the digits of (`toNat_shiftedSum_quad`).
-/

namespace PermanentIP

open Lib

/-! ## The octets the encoder prints -/

/-- Octet `i` of an address, counted from the least significant. -/
def octet (a : UInt32) (i : Nat) : Nat := a.toNat / 256 ^ i % 256

theorem octet_lt (a : UInt32) (i : Nat) : octet a i < 256 :=
  Nat.mod_lt _ (by omega)

/-- Under a mask of eight bits an arithmetic shift by up to 24 is a logical
one: the copies of the sign bit all land above the mask. -/
theorem toNat_sshiftRight_and (x : BitVec 32) {k : Nat} (hk : k ≤ 24) :
    (x.sshiftRight k &&& 255#32).toNat = x.toNat / 2 ^ k % 256 := by
  have hbits : x.sshiftRight k &&& 255#32 = x >>> k &&& 255#32 := by
    apply BitVec.eq_of_getLsbD_eq
    intro i hi
    rw [BitVec.getLsbD_and, BitVec.getLsbD_and]
    rcases Nat.lt_or_ge i 8 with hlow | hhigh
    · rw [BitVec.getLsbD_sshiftRight, BitVec.getLsbD_ushiftRight]
      have hin : k + i < 32 := by omega
      have hout : ¬ 32 ≤ i := by omega
      simp [hin, hout]
    · have hmask : (255#32).getLsbD i = false := by
        rw [BitVec.getLsbD_ofNat, Nat.testBit_lt_two_pow (x := 255)]
        · simp
        · calc 255 < 2 ^ 8 := by norm_num
            _ ≤ 2 ^ i := Nat.pow_le_pow_right (by norm_num) hhigh
      rw [hmask, Bool.and_false, Bool.and_false]
  rw [hbits, BitVec.toNat_and, BitVec.toNat_ushiftRight,
    Nat.shiftRight_eq_div_pow]
  exact Nat.and_two_pow_sub_one_eq_mod _ 8

/-- A masked `int` is its octet, and prints as that. -/
theorem percentD_of_toBitVec {n : Int32} {x : BitVec 32} {k : Nat}
    (hk : k ≤ 24) (h : n.toBitVec = x.sshiftRight k &&& 255#32) :
    percentD n = decimal (x.toNat / 2 ^ k % 256) := by
  have hnat := toNat_sshiftRight_and x hk
  have hlt : x.toNat / 2 ^ k % 256 < 256 := Nat.mod_lt _ (by omega)
  have hint : n.toInt = (x.toNat / 2 ^ k % 256 : Nat) := by
    rw [Int32.toInt, h, BitVec.toInt_eq_toNat_of_lt (by omega), hnat]
  rw [percentD, hint, if_neg (by omega), Int.natAbs_natCast]

theorem length_decimal_octet (a : UInt32) (i : Nat) :
    (decimal (octet a i)).length ≤ 3 :=
  length_decimal_le (by omega) (Nat.lt_trans (octet_lt a i) (by norm_num))

theorem length_octets_le (a : UInt32) :
    (decimal (octet a 0) ++ dot :: (decimal (octet a 1) ++
      dot :: (decimal (octet a 2) ++ dot :: decimal (octet a 3)))).length ≤ 15 := by
  have h0 := length_decimal_octet a 0
  have h1 := length_decimal_octet a 1
  have h2 := length_decimal_octet a 2
  have h3 := length_decimal_octet a 3
  simp only [List.length_append, List.length_cons]
  omega

/-- The text of an address: four octets between dots. Fifteen bytes at most,
so the 100 bytes of `buffer` never cut it. -/
theorem intToIPString_eq (x : Int32) :
    intToIPString x = decimal (octet x.toUInt32 0) ++
      dot :: (decimal (octet x.toUInt32 1) ++
        dot :: (decimal (octet x.toUInt32 2) ++
          dot :: decimal (octet x.toUInt32 3))) := by
  have h0 : percentD (x &&& 255) = decimal (octet x.toUInt32 0) :=
    percentD_of_toBitVec (k := 0) (by omega) (by simp)
  have h1 : percentD ((x >>> 8) &&& 255) = decimal (octet x.toUInt32 1) :=
    percentD_of_toBitVec (k := 8) (by omega) rfl
  have h2 : percentD ((x >>> 16) &&& 255) = decimal (octet x.toUInt32 2) :=
    percentD_of_toBitVec (k := 16) (by omega) rfl
  have h3 : percentD ((x >>> 24) &&& 255) = decimal (octet x.toUInt32 3) :=
    percentD_of_toBitVec (k := 24) (by omega) rfl
  simp only [intToIPString, snprintf, h0, h1, h2, h3]
  exact List.take_of_length_le
    (Nat.le_trans (length_octets_le x.toUInt32) (by norm_num))

/-! ## What the text is made of -/

theorem ne_dot_of_mem_decimal {n : Nat} {c : UInt8} (h : c ∈ decimal n) :
    c ≠ dot := by
  rintro rfl
  exact absurd (isDigit_of_mem_decimal h) (by decide)

theorem nulFree_decimal (n : Nat) : NulFree (decimal n) := by
  intro h
  exact absurd (isDigit_of_mem_decimal h) (by decide)

theorem nulFree_intToIPString (x : Int32) : NulFree (intToIPString x) := by
  have hdot : ∀ s : Bytes, NulFree s → NulFree (dot :: s) := by
    intro s hs hmem
    rcases List.mem_cons.mp hmem with h | h
    · exact absurd h (by decide)
    · exact hs h
  rw [intToIPString_eq]
  iterate 3
    refine nulFree_append.mpr ⟨nulFree_decimal _, hdot _ ?_⟩
  exact nulFree_decimal _

theorem intToIPString_ne_nil (x : Int32) : intToIPString x ≠ [] := by
  rw [intToIPString_eq]
  intro h
  exact decimal_ne_nil _ (List.append_eq_nil_iff.mp h).1

theorem length_intToIPString_le (x : Int32) :
    (intToIPString x).length ≤ 15 := by
  rw [intToIPString_eq]
  exact length_octets_le x.toUInt32

/-! ## The decoder on four numerals -/

theorem atoi_decimal {n : Nat} (hn : n < 2 ^ 31) : atoi (decimal n) = Int32.ofInt n := by
  obtain ⟨c, cs, hcs⟩ := List.exists_cons_of_ne_nil (decimal_ne_nil n)
  have hc : isDigit c = true :=
    isDigit_of_mem_decimal (n := n) (by rw [hcs]; exact List.mem_cons_self)
  have hspace : isSpace c = false := by
    simp only [isDigit, isSpace, Bool.and_eq_true, decide_eq_true_eq,
      Bool.or_eq_false_iff, Bool.and_eq_false_iff, decide_eq_false_iff_not,
      beq_eq_false_iff_ne] at hc ⊢
    refine ⟨?_, by omega⟩
    rintro rfl
    exact absurd hc.1 (by decide)
  have hsign : ∀ d : UInt8, d = 45 ∨ d = 43 → c ≠ d := by
    rintro d hd rfl
    rcases hd with rfl | rfl <;> exact absurd hc (by decide)
  have hdrop : (decimal n).dropWhile isSpace = decimal n := by
    rw [hcs, List.dropWhile_cons_of_neg (by simp [hspace])]
  have hhead : (decimal n).head? = some c := by
    rw [hcs]; rfl
  have hdigits : (decimal n).takeWhile isDigit = decimal n :=
    List.takeWhile_eq_self_iff.mpr fun d hd => isDigit_of_mem_decimal hd
  simp only [atoi, strtol, hdrop, hhead, Option.some.injEq,
    if_neg (hsign 45 (Or.inl rfl)), if_neg (hsign 43 (Or.inr rfl)), hdigits,
    digitsValue_decimal]
  congr 1
  omega

theorem splitOn_quad {a b c d : Bytes} (ha : dot ∉ a) (hb : dot ∉ b) (hc : dot ∉ c)
    (hd : dot ∉ d) :
    (a ++ dot :: (b ++ dot :: (c ++ dot :: d))).splitOn dot = [a, b, c, d] := by
  rw [List.splitOn_append_cons_self, List.splitOn_append_cons_self,
    List.splitOn_append_cons_self, List.splitOn_eq_singleton ha,
    List.splitOn_eq_singleton hb, List.splitOn_eq_singleton hc,
    List.splitOn_eq_singleton hd]
  rfl

theorem toNat_shiftedSum_quad {n₀ n₁ n₂ n₃ : Nat} (h₀ : n₀ < 256) (h₁ : n₁ < 256)
    (h₂ : n₂ < 256) (h₃ : n₃ < 256) :
    (shiftedSum 0 [decimal n₀, decimal n₁, decimal n₂, decimal n₃]).toNat =
      n₀ + n₁ * 256 + n₂ * 65536 + n₃ * 16777216 := by
  have hatoi : ∀ n, n < 256 → (atoi (decimal n)).toUInt32 = UInt32.ofNat n := by
    intro n hn
    rw [atoi_decimal (by omega)]
    rfl
  simp only [shiftedSum, hatoi _ h₀, hatoi _ h₁, hatoi _ h₂, hatoi _ h₃,
    UInt32.toNat_add, UInt32.toNat_shiftLeft, UInt32.toNat_ofNat',
    UInt32.reduceToNat, Nat.shiftLeft_eq]
  norm_num
  omega

theorem ipStringToInt_quad {n₀ n₁ n₂ n₃ : Nat} :
    ipStringToInt (decimal n₀ ++ dot :: (decimal n₁ ++
      dot :: (decimal n₂ ++ dot :: decimal n₃))) =
      (shiftedSum 0 [decimal n₀, decimal n₁, decimal n₂, decimal n₃]).toInt32 := by
  have hdots : ∀ n, dot ∉ decimal n := fun n h => ne_dot_of_mem_decimal h rfl
  rw [ipStringToInt_eq,
    splitOn_quad (hdots n₀) (hdots n₁) (hdots n₂) (hdots n₃)]

/-- Decoding an address's text gives the address back. -/
theorem ipStringToInt_intToIPString (x : Int32) :
    ipStringToInt (intToIPString x) = x := by
  have hsum : shiftedSum 0 [decimal (octet x.toUInt32 0), decimal (octet x.toUInt32 1),
      decimal (octet x.toUInt32 2), decimal (octet x.toUInt32 3)] = x.toUInt32 := by
    have hx := x.toUInt32.toNat_lt
    apply UInt32.toNat_inj.mp
    rw [toNat_shiftedSum_quad (octet_lt _ _) (octet_lt _ _) (octet_lt _ _)
      (octet_lt _ _)]
    simp only [octet]
    omega
  rw [intToIPString_eq, ipStringToInt_quad, hsum]
  rfl

/-! ## Dotted quads

The texts that stand for an address, and each address has one of them. -/

/-- A decimal octet as it is printed. -/
def OctetText (s : Bytes) : Prop := Canonical s ∧ digitsValue s ≤ 255

/-- Four decimal octets with dots between them. -/
def CanonicalQuad (s : PhysicalAddress) : Prop :=
  (s.splitOn dot).length = 4 ∧ ∀ c ∈ s.splitOn dot, OctetText c

instance (s : Bytes) : Decidable (OctetText s) :=
  inferInstanceAs (Decidable (_ ∧ _))

instance (s : PhysicalAddress) : Decidable (CanonicalQuad s) :=
  inferInstanceAs (Decidable (_ ∧ _))

theorem canonicalQuad_iff {s : PhysicalAddress} : CanonicalQuad s ↔
    ∃ n₀ n₁ n₂ n₃, n₀ < 256 ∧ n₁ < 256 ∧ n₂ < 256 ∧ n₃ < 256 ∧
      s = decimal n₀ ++ dot :: (decimal n₁ ++
        dot :: (decimal n₂ ++ dot :: decimal n₃)) := by
  have hdots : ∀ n, dot ∉ decimal n := fun n h => ne_dot_of_mem_decimal h rfl
  constructor
  · rintro ⟨hlen, hoctets⟩
    obtain ⟨a, b, c, d, hsplit⟩ := List.length_eq_four.mp hlen
    have hval : ∀ t ∈ [a, b, c, d],
        digitsValue t < 256 ∧ decimal (digitsValue t) = t := by
      intro t ht
      obtain ⟨hcanonical, hle⟩ := hoctets t (hsplit ▸ ht)
      exact ⟨by omega, decimal_digitsValue hcanonical⟩
    refine ⟨digitsValue a, digitsValue b, digitsValue c, digitsValue d,
      (hval a (by simp)).1, (hval b (by simp)).1, (hval c (by simp)).1,
      (hval d (by simp)).1, ?_⟩
    rw [(hval a (by simp)).2, (hval b (by simp)).2, (hval c (by simp)).2,
      (hval d (by simp)).2]
    have hjoin : [dot].intercalate (s.splitOn dot) = s := List.intercalate_splitOn dot
    rw [hsplit] at hjoin
    rw [← hjoin]
    simp [List.intercalate, List.intersperse]
  · rintro ⟨n₀, n₁, n₂, n₃, h₀, h₁, h₂, h₃, rfl⟩
    have htext : ∀ n, n < 256 → OctetText (decimal n) := by
      intro n hn
      refine ⟨canonical_decimal n, ?_⟩
      rw [digitsValue_decimal]
      omega
    rw [CanonicalQuad, splitOn_quad (hdots _) (hdots _) (hdots _) (hdots _)]
    simp only [List.forall_mem_cons, List.not_mem_nil, false_implies, implies_true,
      and_true]
    exact ⟨rfl, htext _ h₀, htext _ h₁, htext _ h₂, htext _ h₃⟩

theorem canonicalQuad_intToIPString (x : Int32) : CanonicalQuad (intToIPString x) :=
  canonicalQuad_iff.mpr ⟨_, _, _, _, octet_lt _ 0, octet_lt _ 1, octet_lt _ 2,
    octet_lt _ 3, intToIPString_eq x⟩

/-- Encoding what a dotted quad decodes to gives the quad back. -/
theorem intToIPString_ipStringToInt {s : PhysicalAddress} (h : CanonicalQuad s) :
    intToIPString (ipStringToInt s) = s := by
  obtain ⟨n₀, n₁, n₂, n₃, h₀, h₁, h₂, h₃, rfl⟩ := canonicalQuad_iff.mp h
  have hsum := toNat_shiftedSum_quad h₀ h₁ h₂ h₃
  rw [ipStringToInt_quad, intToIPString_eq]
  have hoctets : ∀ a : UInt32,
      a.toNat = n₀ + n₁ * 256 + n₂ * 65536 + n₃ * 16777216 →
      octet a 0 = n₀ ∧ octet a 1 = n₁ ∧ octet a 2 = n₂ ∧ octet a 3 = n₃ := by
    intro a ha
    simp only [octet, ha]
    omega
  obtain ⟨e₀, e₁, e₂, e₃⟩ := hoctets _ hsum
  rw [UInt32.toUInt32_toInt32, e₀, e₁, e₂, e₃]

/-- The codec is a bijection between the 32-bit integers and the canonical
dotted quads, each side undoing the other, and four rounds read a quad. -/
theorem address_codec_bijective :
    (∀ x : Int32, ipStringToInt (intToIPString x) = x ∧
      CanonicalQuad (intToIPString x)) ∧
    ∀ s : PhysicalAddress, CanonicalQuad s →
      intToIPString (ipStringToInt s) = s ∧
      ∃ run, ipStringToIntRun s = some run ∧ run.2.length = 4 := by
  refine ⟨fun x => ⟨ipStringToInt_intToIPString x, canonicalQuad_intToIPString x⟩,
    fun s hs => ⟨intToIPString_ipStringToInt hs, _, ipStringToIntRun_eq s, ?_⟩⟩
  rw [length_shiftCounts, ← length_splitOn]
  exact hs.1

theorem address_codec_bijective_example :
    CanonicalQuad (ascii "128.0.10.255") ∧
      intToIPString (ipStringToInt (ascii "128.0.10.255")) = ascii "128.0.10.255" :=
  have hquad : CanonicalQuad (ascii "128.0.10.255") := by decide +kernel
  ⟨hquad, (address_codec_bijective.2 _ hquad).1⟩

end PermanentIP

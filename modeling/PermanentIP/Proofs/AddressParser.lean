import PermanentIP.Common.Utils

/-!
# The address parser on any text

`IPStringToInt` is given whatever text the network delivered. Its loop makes
one round for each component of the text, the runs of bytes between the dots,
and no more: the text it still has is always the components it has not read yet
with a dot after each, so the measure is their number (`ipStringToIntLoop_eq`).
It always ends, and a round reads its own component only.

The shift count grows by eight with every round and nothing else bounds it.
From the fifth component on it is 32 or more, which the language gives no
meaning; up to four the sum is the one the text stands for (`parsed_iff`).
-/

namespace PermanentIP

open Lib

/-! ## One component -/

theorem ne_isSpace_dot : isSpace dot = false := by decide

theorem ne_isDigit_dot : isDigit dot = false := by decide

/-- `atoi` of what is left of the text reads no further than the next dot. -/
theorem atoi_append_dot (c rest : Bytes) : atoi (c ++ dot :: rest) = atoi c := by
  have hdigits : ∀ t : Bytes,
      (t ++ dot :: rest).takeWhile isDigit = t.takeWhile isDigit := by
    intro t
    rw [List.takeWhile_append]
    split
    · next hlen =>
        rw [List.takeWhile_cons_of_neg (by simp [ne_isDigit_dot]), List.append_nil]
        exact ((List.takeWhile_prefix _).eq_of_length hlen).symm
    · rfl
  have hspace : (c ++ dot :: rest).dropWhile isSpace =
      c.dropWhile isSpace ++ dot :: rest := by
    rw [List.dropWhile_append]
    split
    · next hnil =>
        rw [List.dropWhile_cons_of_neg (by simp [ne_isSpace_dot]),
          List.isEmpty_iff.mp hnil, List.nil_append]
    · rfl
  rw [atoi, atoi, strtol, strtol, hspace]
  cases c.dropWhile isSpace with
  | nil =>
      simp only [List.nil_append, List.head?_cons, List.head?_nil,
        List.takeWhile_cons_of_neg (by simp [ne_isDigit_dot] : ¬ isDigit dot = true)]
      rfl
  | cons d t =>
      have hdrop : ∀ l : Bytes, ((d :: l).drop 1) = l := fun l => rfl
      have hall := hdigits (d :: t)
      rw [List.cons_append] at hall
      simp only [List.cons_append, List.head?_cons, hdrop, hdigits, hall]

/-! ## The loop -/

/-- What the rounds from shift count `offset` on add up for these components. -/
def shiftedSum : Nat → List Bytes → UInt32
  | _, [] => 0
  | offset, c :: cs =>
      (atoi c).toUInt32 <<< UInt32.ofNat offset + shiftedSum (offset + 8) cs

/-- The shift counts of `n` rounds -/
def shiftCounts : Nat → Nat → List Nat
  | _, 0 => []
  | offset, n + 1 => offset :: shiftCounts (offset + 8) n

theorem length_shiftCounts (n : Nat) : ∀ offset, (shiftCounts offset n).length = n := by
  induction n with
  | zero => intro offset; rfl
  | succ n ih => intro offset; rw [shiftCounts, List.length_cons, ih]

theorem forall_shiftCounts {k : Nat} (n : Nat) : ∀ offset,
    (∀ i ∈ shiftCounts offset (n + 1), i < k) ↔ offset + 8 * n < k := by
  induction n with
  | zero => intro offset; simp [shiftCounts]
  | succ n ih =>
      intro offset
      rw [shiftCounts, List.forall_mem_cons, ih (offset + 8)]
      omega

theorem length_splitOn (s : Bytes) :
    (s.splitOn dot).length = s.count dot + 1 := by
  induction s with
  | nil => rfl
  | cons c s ih =>
      rw [List.splitOn_cons_eq_if_modifyHead, List.count_cons]
      split
      · rw [List.length_cons, ih]
      · rw [List.length_modifyHead, ih]

/-- One round for each component, and the text left is what they have not
read. -/
theorem ipStringToIntLoop_eq (fuel : Nat) :
    ∀ (s : Bytes) (offset : Nat) (address : UInt32), s.count dot < fuel →
      ipStringToIntLoop fuel (s ++ [dot]) offset address =
        some (address + shiftedSum offset (s.splitOn dot),
          shiftCounts offset (s.count dot + 1)) := by
  induction fuel with
  | zero => intro s offset address h; omega
  | succ fuel ih =>
      intro s offset address h
      rw [ipStringToIntLoop]
      by_cases hdot : dot ∈ s
      · obtain ⟨c, rest, rfl, hc⟩ := List.eq_append_cons_of_mem hdot
        have hcount : (c ++ dot :: rest).count dot = rest.count dot + 1 := by
          rw [List.count_append, List.count_eq_zero.mpr hc, List.count_cons_self,
            Nat.zero_add]
        have hsplit : (c ++ dot :: rest).splitOn dot = c :: rest.splitOn dot := by
          rw [List.splitOn_append_cons_self, List.splitOn_eq_singleton hc]
          rfl
        have htext : c ++ dot :: rest ++ [dot] = c ++ dot :: (rest ++ [dot]) := by
          rw [List.append_assoc, List.cons_append]
        rw [htext, Str.substr_find_append hc, atoi_append_dot,
          if_neg fun hnone => Str.find_eq_none.mp hnone (by simp),
          ih rest _ _ (by omega), hsplit, hcount]
        simp only [Option.map_some, shiftedSum, shiftCounts, UInt32.add_assoc]
      · rw [Str.substr_find_append hdot, atoi_append_dot,
          if_pos (Str.find_eq_none.mpr List.not_mem_nil),
          List.splitOn_eq_singleton hdot, List.count_eq_zero.mpr hdot]
        simp only [shiftedSum, shiftCounts, UInt32.add_zero]

theorem ipStringToIntRun_eq (s : PhysicalAddress) :
    ipStringToIntRun s = some (shiftedSum 0 (s.splitOn dot),
      shiftCounts 0 (s.count dot + 1)) := by
  rw [ipStringToIntRun,
    ipStringToIntLoop_eq _ s 0 0 (Nat.lt_succ_of_le List.count_le_length),
    UInt32.zero_add]

theorem ipStringToInt_eq (s : PhysicalAddress) :
    ipStringToInt s = (shiftedSum 0 (s.splitOn dot)).toInt32 := by
  rw [ipStringToInt, ipStringToIntRun_eq]

/-- The loop ends, on any text at all. -/
theorem ipStringToIntRun_isSome (s : PhysicalAddress) :
    (ipStringToIntRun s).isSome := by
  rw [ipStringToIntRun_eq]
  rfl

theorem ipStringToInt_nil : ipStringToInt [] = 0 := by decide

/-! ## What the sum is -/

/-- The number the components stand for, each eight bits further than the one
before. -/
def componentSum (cs : List Bytes) : Int :=
  (cs.mapIdx fun i c => (atoi c).toInt * 2 ^ (8 * i)).sum

theorem toBitVec_shift (x : Int32) {offset : Nat} (h : offset < 32) :
    (x.toUInt32 <<< UInt32.ofNat offset).toBitVec =
      BitVec.ofInt 32 (x.toInt * 2 ^ offset) := by
  have hcount : ((UInt32.ofNat offset).toBitVec % 32).toNat = offset := by
    rw [BitVec.toNat_umod]
    show offset % 2 ^ 32 % 32 = offset
    omega
  have hpow : BitVec.ofInt 32 (2 ^ offset) = BitVec.twoPow 32 offset := by
    have hcast : (2 : Int) ^ offset = ((2 ^ offset : Nat) : Int) := by
      rw [Int.natCast_pow]
      rfl
    apply BitVec.eq_of_toNat_eq
    rw [hcast, BitVec.ofInt_natCast, BitVec.toNat_ofNat, BitVec.toNat_twoPow]
  rw [UInt32.toBitVec_shiftLeft, BitVec.shiftLeft_eq', hcount,
    BitVec.shiftLeft_eq_mul_twoPow, BitVec.ofInt_mul, hpow]
  congr 1
  exact BitVec.ofInt_toInt.symm

theorem toBitVec_shiftedSum (cs : List Bytes) : ∀ offset,
    offset + 8 * cs.length < 40 → (shiftedSum offset cs).toBitVec =
      BitVec.ofInt 32
        (cs.mapIdx fun i c => (atoi c).toInt * 2 ^ (offset + 8 * i)).sum := by
  induction cs with
  | nil => intro offset _; rfl
  | cons c cs ih =>
      intro offset h
      rw [List.length_cons] at h
      have hexp : (fun (i : Nat) (c : Bytes) =>
          (atoi c).toInt * 2 ^ (offset + 8 * (i + 1))) =
          fun i c => (atoi c).toInt * 2 ^ (offset + 8 + 8 * i) := by
        funext i c
        congr 2
        omega
      rw [shiftedSum, UInt32.toBitVec_add, ih (offset + 8) (by omega),
        toBitVec_shift _ (by omega), List.mapIdx_cons, List.sum_cons,
        BitVec.ofInt_add, hexp]
      rfl

theorem shiftedSum_eq {cs : List Bytes} (h : cs.length ≤ 4) :
    (shiftedSum 0 cs).toInt32 = Int32.ofInt (componentSum cs) := by
  apply Int32.toBitVec_inj.mp
  show (shiftedSum 0 cs).toBitVec = BitVec.ofInt 32 (componentSum cs)
  rw [toBitVec_shiftedSum cs 0 (by omega), componentSum]
  simp only [Nat.zero_add]

/-- The parser ends on every text, with a round for each component; but every
shift it makes is one the language defines, and its result the sum, exactly
where the text has at most three dots. -/
theorem parsed_iff (s : PhysicalAddress) :
    (∃ run, ipStringToIntRun s = some run ∧ run.2.length = s.count dot + 1 ∧
      (∀ k ∈ run.2, k < 32) ∧
      ipStringToInt s = Int32.ofInt (componentSum (s.splitOn dot))) ↔
    s.count dot ≤ 3 := by
  rw [ipStringToIntRun_eq]
  constructor
  · rintro ⟨run, hrun, _, hshifts, _⟩
    injection hrun with hrun
    rw [← hrun, forall_shiftCounts] at hshifts
    omega
  · intro hdots
    refine ⟨_, rfl, length_shiftCounts _ _, ?_, ?_⟩
    · rw [forall_shiftCounts]
      omega
    · have hlen : (s.splitOn dot).length ≤ 4 := by
        rw [length_splitOn]
        omega
      rw [ipStringToInt_eq, shiftedSum_eq hlen]

/-- Five components: the last is shifted by 32 bits. -/
theorem five_components_shifted : ¬ ∀ s : PhysicalAddress, NulFree s →
    s.length ≤ 4095 →
      ∃ run, ipStringToIntRun s = some run ∧ run.2.length = s.count dot + 1 ∧
        (∀ k ∈ run.2, k < 32) ∧
        ipStringToInt s = Int32.ofInt (componentSum (s.splitOn dot)) := by
  intro h
  obtain ⟨run, hrun, _, hshifts, _⟩ :=
    h (ascii "1.2.3.4.5") (by decide) (by decide)
  rw [ipStringToIntRun_eq] at hrun
  injection hrun with hrun
  rw [← hrun] at hshifts
  exact absurd (hshifts 32 (by decide)) (by decide)

end PermanentIP

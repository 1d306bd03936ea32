import Mathlib.Data.List.Induction
import Mathlib.Data.List.TakeWhile
import Mathlib.Tactic.IntervalCases

/-!
# Decimal numerals in ASCII bytes

What `%d` prints and what a reader of digits makes of it. `decimal n` is the
numeral of a natural number, `digitsValue` the number a run of digits stands
for, and `digitsValue_decimal` says the second undoes the first. Everything
goes through the two equations `decimal_of_lt` and `decimal_of_ge`, the last
digit split off the others, and the induction is on the number, by tens.
-/

namespace PermanentIP.Lib

def isDigit (c : UInt8) : Bool := 48 ≤ c.toNat && c.toNat ≤ 57

/-- The numeral of `n`, most significant digit first. -/
def decimal (n : Nat) : List UInt8 :=
  (Nat.toDigits 10 n).map fun c => c.toNat.toUInt8

/-- The number a sequence of digits stands for, on top of what was read. -/
def digitsFrom (acc : Nat) (ds : List UInt8) : Nat :=
  ds.foldl (fun acc c => 10 * acc + (c.toNat - 48)) acc

def digitsValue (ds : List UInt8) : Nat := digitsFrom 0 ds

theorem digitByte_eq {d : Nat} (h : d < 10) :
    (Nat.digitChar d).toNat.toUInt8 = (48 + d).toUInt8 := by
  interval_cases d <;> rfl

theorem toNat_digitByte {d : Nat} (h : d < 10) :
    ((48 + d).toUInt8).toNat = 48 + d := by
  have hlt : 48 + d < 256 := by omega
  simpa using Nat.mod_eq_of_lt hlt

theorem decimal_of_lt {n : Nat} (h : n < 10) : decimal n = [(48 + n).toUInt8] := by
  rw [decimal, Nat.toDigits_of_lt_base h, List.map_singleton, digitByte_eq h]

theorem decimal_of_ge {n : Nat} (h : 10 ≤ n) :
    decimal n = decimal (n / 10) ++ [(48 + n % 10).toUInt8] := by
  have hlt : n % 10 < 10 := Nat.mod_lt n (by omega)
  rw [decimal, Nat.toDigits_of_base_le (by omega) h, List.map_append,
    List.map_singleton, digitByte_eq hlt]
  rfl

theorem decimal_ne_nil (n : Nat) : decimal n ≠ [] := by
  intro h
  exact Nat.toDigits_ne_nil (List.map_eq_nil_iff.mp h)

theorem isDigit_digitByte {d : Nat} (h : d < 10) :
    isDigit (48 + d).toUInt8 = true := by
  simp only [isDigit, toNat_digitByte h, Bool.and_eq_true, decide_eq_true_eq]
  omega

theorem isDigit_of_mem_decimal {n : Nat} {c : UInt8} (h : c ∈ decimal n) :
    isDigit c = true := by
  induction n using Nat.strong_induction_on with
  | h n ih =>
      rcases Nat.lt_or_ge n 10 with hlt | hge
      · rw [decimal_of_lt hlt, List.mem_singleton] at h
        subst h
        exact isDigit_digitByte hlt
      · rw [decimal_of_ge hge, List.mem_append, List.mem_singleton] at h
        rcases h with h | rfl
        · exact ih (n / 10) (by omega) h
        · exact isDigit_digitByte (Nat.mod_lt n (by omega))

theorem digitsFrom_append (acc : Nat) (ds es : List UInt8) :
    digitsFrom acc (ds ++ es) = digitsFrom (digitsFrom acc ds) es :=
  List.foldl_append

theorem digitsValue_decimal (n : Nat) : digitsValue (decimal n) = n := by
  unfold digitsValue
  induction n using Nat.strong_induction_on with
  | h n ih =>
      rcases Nat.lt_or_ge n 10 with hlt | hge
      · rw [decimal_of_lt hlt]
        simp only [digitsFrom, List.foldl_cons, List.foldl_nil,
          toNat_digitByte hlt]
        omega
      · have hlast : n % 10 < 10 := Nat.mod_lt n (by omega)
        rw [decimal_of_ge hge, digitsFrom_append, ih (n / 10) (by omega)]
        simp only [digitsFrom, List.foldl_cons, List.foldl_nil,
          toNat_digitByte hlast]
        omega

/-! ## The numerals there are

A numeral is canonical if it is digits and its leading digit is no zero that
could be left out. Those are exactly the ones that `decimal` writes. -/

def Canonical (ds : List UInt8) : Prop :=
  ds ≠ [] ∧ (∀ c ∈ ds, isDigit c) ∧ (ds.head? = some 48 → ds = [48])

instance (ds : List UInt8) : Decidable (Canonical ds) :=
  inferInstanceAs (Decidable (_ ∧ _ ∧ _))

theorem digitsValue_concat (ds : List UInt8) (c : UInt8) :
    digitsValue (ds ++ [c]) = 10 * digitsValue ds + (c.toNat - 48) :=
  digitsFrom_append 0 ds [c]

theorem canonical_decimal (n : Nat) : Canonical (decimal n) := by
  refine ⟨decimal_ne_nil n, fun c hc => isDigit_of_mem_decimal hc, ?_⟩
  induction n using Nat.strong_induction_on with
  | h n ih =>
      intro hhead
      rcases Nat.lt_or_ge n 10 with hlt | hge
      · rw [decimal_of_lt hlt] at hhead ⊢
        simpa using hhead
      · rw [decimal_of_ge hge, List.head?_append,
          Option.or_of_isSome (List.isSome_head?.mpr (decimal_ne_nil _))] at hhead
        -- a leading zero would make the other digits' number zero
        have hzero := digitsValue_decimal (n / 10)
        rw [ih (n / 10) (by omega) hhead] at hzero
        change 0 = n / 10 at hzero
        omega

theorem decimal_digit {c : UInt8} (hc : isDigit c = true) :
    decimal (c.toNat - 48) = [c] := by
  simp only [isDigit, Bool.and_eq_true, decide_eq_true_eq] at hc
  rw [decimal_of_lt (by omega), Nat.add_sub_cancel' hc.1]
  exact congrArg (fun d => [d]) (UInt8.ofNat_toNat)

/-- A canonical numeral is what its number prints as. -/
theorem decimal_digitsValue {ds : List UInt8} (h : Canonical ds) :
    decimal (digitsValue ds) = ds := by
  induction ds using List.reverseRecOn with
  | nil => exact absurd rfl h.1
  | append_singleton ds c ih =>
      obtain ⟨_, hdigits, hlead⟩ := h
      have hc : isDigit c = true := hdigits c (by simp)
      cases ds with
      | nil =>
          rw [digitsValue_concat, show digitsValue [] = 0 from rfl, Nat.mul_zero,
            Nat.zero_add, decimal_digit hc, List.nil_append]
      | cons d ds =>
          have hd : d ≠ 48 := by
            rintro rfl
            exact absurd (hlead rfl) (by simp)
          have hinit : decimal (digitsValue (d :: ds)) = d :: ds := by
            refine ih ⟨by simp, fun x hx => hdigits x (List.mem_append_left _ hx),
              ?_⟩
            intro hhead
            exact absurd (Option.some.inj hhead) hd
          have hpos : digitsValue (d :: ds) ≠ 0 := by
            intro hzero
            rw [hzero] at hinit
            exact hd (List.cons.inj hinit).1.symm
          have hlt := hc
          simp only [isDigit, Bool.and_eq_true, decide_eq_true_eq] at hlt
          rw [digitsValue_concat, decimal_of_ge (by omega)]
          have hdiv : (10 * digitsValue (d :: ds) + (c.toNat - 48)) / 10 =
              digitsValue (d :: ds) := by omega
          have hmod : (10 * digitsValue (d :: ds) + (c.toNat - 48)) % 10 =
              c.toNat - 48 := by omega
          rw [hdiv, hinit, hmod, Nat.add_sub_cancel' hlt.1]
          exact congrArg (fun x => d :: ds ++ [x]) (UInt8.ofNat_toNat)

theorem length_decimal_le {n k : Nat} (hk : 0 < k) (h : n < 10 ^ k) :
    (decimal n).length ≤ k := by
  rw [decimal, List.length_map]
  exact (Nat.length_toDigits_le_iff (by omega) hk).mpr h

end PermanentIP.Lib

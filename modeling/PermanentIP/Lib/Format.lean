import Mathlib.Data.List.Basic

/-!
# Formats

What `printf` makes of a format. A byte stands for itself, `%%` for a `%`, and
`%` with any other letter for the next argument, if that letter is the one the
argument is printed with. `Expands` says this of a format that matches its
arguments; `expand` is the reader, which meets formats that do not.

A text that has been expanded is no format, but nothing stops a program from
reading it as one. `reread` is that, any number of times over. A text without a
`%` does not notice, and no other comes out as it went in: a `%%` loses a byte
for good, and a `%` with any other letter after it asks for an argument that is
not there (`reread_succ_eq_some_self`). It can be read at all if its `%`s come in
pairs (`isSome_expand_nil`), and what stands between two other bytes is `paired`
or not for itself (`paired_append_append`).
-/

namespace PermanentIP.Lib

def percent : UInt8 := 37

/-- The arguments of a format: the letter each is printed with, and as what. -/
structure Conversions (α : Type*) where
  letter : α → UInt8
  print : α → List UInt8
  letter_ne : ∀ a, letter a ≠ percent

section Format

variable {α : Type*} (C : Conversions α)

/-- The format matches its arguments, and expands to this text. -/
inductive Expands : List UInt8 → List α → List UInt8 → Prop
  | nil : Expands [] [] []
  | byte {c : UInt8} {format : List UInt8} {args : List α} {text : List UInt8}
      (hc : c ≠ percent) (h : Expands format args text) :
      Expands (c :: format) args (c :: text)
  | escape {format : List UInt8} {args : List α} {text : List UInt8}
      (h : Expands format args text) :
      Expands (percent :: percent :: format) args (percent :: text)
  | directive {format : List UInt8} {a : α} {args : List α} {text : List UInt8}
      (h : Expands format args text) :
      Expands (percent :: C.letter a :: format) (a :: args) (C.print a ++ text)

/-- The expansion, with `none` for a directive that is not the letter of an
argument. Arguments left over are not looked at. -/
def expand : List UInt8 → List α → Option (List UInt8)
  | [], _ => some []
  | [c], _ => if c = percent then none else some [c]
  | c :: d :: format, args =>
      if c = percent then
        if d = percent then (expand format args).map (percent :: ·)
        else
          match args with
          | [] => none
          | a :: args =>
              if d = C.letter a then (expand format args).map (C.print a ++ ·)
              else none
      else (expand (d :: format) args).map (c :: ·)

/-- The text read as a format without arguments, `n` times over -/
def reread : Nat → List UInt8 → Option (List UInt8)
  | 0, text => some text
  | n + 1, text => (expand C text []).bind (reread n)

/-- Whether a format has a `%%` -/
def escapes : List UInt8 → Bool
  | [] => false
  | [_] => false
  | c :: d :: format =>
      if c = percent then d == percent || escapes format else escapes (d :: format)

/-- Whether every `%` of a text has a second one behind it, read from the left -/
def paired : List UInt8 → Bool
  | [] => true
  | [c] => c != percent
  | c :: d :: text =>
      if c = percent then d == percent && paired text else paired (d :: text)

variable {C} {c d : UInt8} {format text u : List UInt8} {args : List α}

/-! ## The reader, by the head of the format -/

theorem expand_cons_of_ne (hc : c ≠ percent) :
    expand C (c :: format) args = (expand C format args).map (c :: ·) := by
  cases format with
  | nil => simp [expand, hc]
  | cons d format =>
      rw [expand.eq_def]
      exact if_neg hc

theorem expand_escape :
    expand C (percent :: percent :: format) args =
      (expand C format args).map (percent :: ·) := by
  rw [expand.eq_def]
  exact (if_pos rfl).trans (if_pos rfl)

theorem Expands.expand_eq (h : Expands C format args text) :
    expand C format args = some text := by
  induction h with
  | nil => rfl
  | byte hc _ ih => rw [expand_cons_of_ne hc, ih, Option.map_some]
  | escape _ ih => rw [expand_escape, ih, Option.map_some]
  | @directive format a args text _ ih =>
      rw [expand, if_pos rfl, if_neg (C.letter_ne a)]
      simp only [if_true, ih, Option.map_some]

/-- A `%` of the expansion comes from a `%%` or from an argument. -/
theorem Expands.percent_mem_iff (h : Expands C format args text) :
    percent ∈ text ↔ escapes format = true ∨ ∃ a ∈ args, percent ∈ C.print a := by
  induction h with
  | nil => simp [escapes]
  | @byte c format args text hc h ih =>
      have hescapes : escapes (c :: format) = escapes format := by
        cases format with
        | nil => rfl
        | cons d format => rw [escapes, if_neg hc]
      rw [hescapes, ← ih, List.mem_cons]
      exact or_iff_right (Ne.symm hc)
  | escape _ _ => simp [escapes]
  | @directive format a args text h ih =>
      have hescapes : escapes (percent :: C.letter a :: format) = escapes format := by
        rw [escapes, if_pos rfl, beq_eq_false_iff_ne.mpr (C.letter_ne a), Bool.false_or]
      rw [hescapes, List.mem_append, ih, List.exists_mem_cons_iff]
      exact or_left_comm

/-- What holds of every byte of the format and of the arguments holds of every
byte of the expansion. -/
theorem Expands.forall_mem {P : UInt8 → Prop} (h : Expands C format args text)
    (hformat : ∀ c ∈ format, P c) (hargs : ∀ a ∈ args, ∀ c ∈ C.print a, P c) :
    ∀ c ∈ text, P c := by
  induction h with
  | nil => exact hformat
  | byte _ _ ih =>
      rw [List.forall_mem_cons] at hformat ⊢
      exact ⟨hformat.1, ih hformat.2 hargs⟩
  | escape _ ih =>
      rw [List.forall_mem_cons, List.forall_mem_cons] at hformat
      rw [List.forall_mem_cons]
      exact ⟨hformat.1, ih hformat.2.2 hargs⟩
  | directive _ ih =>
      rw [List.forall_mem_cons, List.forall_mem_cons] at hformat
      rw [List.forall_mem_cons] at hargs
      rw [List.forall_mem_append]
      exact ⟨hargs.1, ih hformat.2.2 hargs.2⟩

theorem Expands.append {pre : List UInt8} (hpre : percent ∉ pre)
    (h : Expands C format args text) : Expands C (pre ++ format) args (pre ++ text) := by
  induction pre with
  | nil => exact h
  | cons c pre ih =>
      rw [List.mem_cons, not_or] at hpre
      exact .byte (Ne.symm hpre.1) (ih hpre.2)

theorem expands_self (h : percent ∉ text) : Expands C text [] text := by
  have happend : Expands C (text ++ []) [] (text ++ []) := .append h .nil
  rwa [List.append_nil] at happend

/-! ## A text read as a format -/

theorem expand_append_of_not_mem (h : percent ∉ text) :
    expand C (text ++ format) args = (expand C format args).map (text ++ ·) := by
  induction text with
  | nil => simp
  | cons c text ih =>
      rw [List.mem_cons, not_or] at h
      rw [List.cons_append, expand_cons_of_ne (Ne.symm h.1), ih h.2, Option.map_map]
      rfl

theorem expand_of_not_mem (h : percent ∉ text) : expand C text [] = some text :=
  (expands_self h).expand_eq

/-- The reader's answers are expansions of the arguments it has used. -/
theorem expands_of_expand (h : expand C format args = some text) :
    ∃ used rest, args = used ++ rest ∧ Expands C format used text := by
  fun_induction expand C format args generalizing text with
  | case1 args =>
      cases h
      exact ⟨[], args, rfl, .nil⟩
  | case2 args => cases h
  | case3 c args hc =>
      cases h
      exact ⟨[], args, rfl, .byte hc .nil⟩
  | case4 format args ih =>
      obtain ⟨t, ht, rfl⟩ := Option.map_eq_some_iff.mp h
      obtain ⟨used, rest, rfl, hexp⟩ := ih ht
      exact ⟨used, rest, rfl, .escape hexp⟩
  | case5 => cases h
  | case6 format a args _ ih =>
      obtain ⟨t, ht, rfl⟩ := Option.map_eq_some_iff.mp h
      obtain ⟨used, rest, rfl, hexp⟩ := ih ht
      exact ⟨a :: used, rest, rfl, .directive hexp⟩
  | case7 => cases h
  | case8 c d format args hc ih =>
      obtain ⟨t, ht, rfl⟩ := Option.map_eq_some_iff.mp h
      obtain ⟨used, rest, rfl, hexp⟩ := ih ht
      exact ⟨used, rest, rfl, .byte hc hexp⟩

/-- Without arguments only a `%%` can be read, and what is left of it is a `%`. -/
theorem Expands.length_eq (h : Expands C format args text) (hargs : args = []) :
    format.length = text.length + text.count percent ∧
      (percent ∈ format → percent ∈ text) := by
  induction h with
  | nil => exact ⟨rfl, id⟩
  | byte hc _ ih =>
      obtain ⟨hlen, hmem⟩ := ih hargs
      rw [List.length_cons, List.length_cons, List.count_cons_of_ne hc, hlen]
      refine ⟨by omega, fun h => List.mem_cons_of_mem _ (hmem ?_)⟩
      exact List.mem_of_ne_of_mem (Ne.symm hc) h
  | escape _ ih =>
      obtain ⟨hlen, _⟩ := ih hargs
      rw [List.length_cons, List.length_cons, List.length_cons, List.count_cons_self, hlen]
      exact ⟨by omega, fun _ => List.mem_cons_self⟩
  | directive _ _ => cases hargs

theorem length_of_expand_nil (h : expand C text [] = some u) :
    u.length ≤ text.length ∧ (percent ∈ text → u.length < text.length) := by
  obtain ⟨used, rest, hargs, hexp⟩ := expands_of_expand h
  obtain ⟨hlen, hmem⟩ := hexp.length_eq (List.append_eq_nil_iff.mp hargs.symm).1
  refine ⟨by omega, fun hpercent => ?_⟩
  have hpos := List.count_pos_iff.mpr (hmem hpercent)
  omega

theorem length_of_reread {n : Nat} (h : reread C n text = some u) :
    u.length ≤ text.length := by
  induction n generalizing text with
  | zero =>
      cases h
      exact Nat.le_refl _
  | succ n ih =>
      obtain ⟨t, ht, h⟩ := Option.bind_eq_some_iff.mp h
      exact Nat.le_trans (ih h) (length_of_expand_nil ht).1

/-- Read as a format, once or more, a text is itself only if it has no `%`. -/
theorem reread_succ_eq_some_self {n : Nat} :
    reread C (n + 1) text = some text ↔ percent ∉ text := by
  constructor
  · intro h hpercent
    obtain ⟨t, ht, h⟩ := Option.bind_eq_some_iff.mp h
    have hlt := (length_of_expand_nil ht).2 hpercent
    exact absurd (length_of_reread h) (by omega)
  · intro h
    induction n with
    | zero => rw [reread, expand_of_not_mem h, Option.bind_some, reread]
    | succ n ih => rw [reread, expand_of_not_mem h, Option.bind_some, ih]

/-! ## The texts that can be read -/

theorem paired_cons_of_ne (hc : c ≠ percent) : paired (c :: text) = paired text := by
  cases text with
  | nil => simp [paired, hc]
  | cons d text => rw [paired, if_neg hc]

theorem paired_append_of_not_mem (h : percent ∉ text) :
    paired (text ++ u) = paired u := by
  induction text with
  | nil => rfl
  | cons c text ih =>
      rw [List.mem_cons, not_or] at h
      rw [List.cons_append, paired_cons_of_ne (Ne.symm h.1), ih h.2]

theorem paired_of_not_mem (h : percent ∉ text) : paired text = true := by
  rw [← List.append_nil text, paired_append_of_not_mem h]
  rfl

/-- A byte that is no `%` parts a text. -/
theorem paired_append_cons (hc : c ≠ percent) :
    paired (text ++ c :: u) = (paired text && paired u) := by
  fun_induction paired text with
  | case1 => rw [List.nil_append, paired_cons_of_ne hc, Bool.true_and]
  | case2 d =>
      by_cases hd : d = percent
      · simp [paired, hd, hc]
      · simp [paired_cons_of_ne, hd, hc]
  | case3 d text ih => simp [paired, ih, Bool.and_assoc]
  | case4 b d text hb ih =>
      rw [List.cons_append, paired_cons_of_ne hb, ih]

/-- So does a text without a `%`. -/
theorem paired_append_append {pre mid : List UInt8} (hmid : percent ∉ mid)
    (hne : mid ≠ []) : paired (pre ++ (mid ++ u)) = (paired pre && paired u) := by
  cases mid with
  | nil => exact absurd rfl hne
  | cons c mid =>
      rw [List.mem_cons, not_or] at hmid
      rw [List.cons_append, paired_append_cons (Ne.symm hmid.1),
        paired_append_of_not_mem hmid.2]

/-- Without arguments a format can be read if and only if its `%`s come in pairs. -/
theorem isSome_expand_nil : (expand C text []).isSome = paired text := by
  fun_induction paired text with
  | case1 => rfl
  | case2 d =>
      by_cases hd : d = percent
      · simp [expand, hd]
      · simp [expand, hd]
  | case3 d text ih =>
      rw [expand, if_pos rfl]
      by_cases hd : d = percent
      · simp [hd, ih]
      · simp [hd]
  | case4 c d text hc ih => rw [expand_cons_of_ne hc, Option.isSome_map, ih]

end Format

end PermanentIP.Lib

import PermanentIP.Common.Trim
import Mathlib.Data.List.DropRight

/-!
# When `Trim` trims

The loop cuts the text at the first place where two white-space characters
stand side by side, wherever in the text that is, and the test after it takes
at most one more character off the end. Nothing looks at the front. So the
result is the trimmed text exactly where there is nothing to take off the
front, and the first pair, if there is one, already begins the trailing run
(`trims_iff`); and a text that begins with a pair is cut to nothing, after which
the last index is -1.

`beforePair` is what the loop leaves. The loop's invariant is that it is still
to be found from the current index on.
-/

namespace PermanentIP

/-- The text before its first two adjacent white-space characters; all of it,
if it has no such two. -/
def beforePair : Bytes → Bytes
  | c :: d :: rest =>
      if isSpace c && isSpace d then [] else c :: beforePair (d :: rest)
  | w => w

/-- The text without its leading and its trailing white space. -/
def strip (w : Bytes) : Bytes := (w.dropWhile isSpace).rdropWhile isSpace

/-- What `Trim` owes its caller: no access outside the array, and the text it
leaves is the stripped one. -/
def Trims (w : Bytes) : Prop :=
  ∃ fuel word, trim fuel (some (w ++ [0])) = some (some word) ∧ cstr word = strip w

variable {w word : Bytes} {fuel : Nat} {i : UInt32}

/-! ## The array -/

theorem strlen_terminated (hw : NulFree w) : strlen (w ++ [0]) = w.length := by
  rw [strlen, cstr_append_nul hw []]

theorem cstr_isPrefix (word : Bytes) : cstr word <+: word := List.takeWhile_prefix _

theorem charAt_of_lt {k : Nat} (hk : k < (cstr word).length) :
    charAt word k = some (cstr word)[k] := by
  rw [charAt, if_pos (Int.natCast_nonneg k), Int.toNat_natCast,
    (cstr_isPrefix word).getElem hk]
  exact List.getElem?_eq_getElem _

theorem putNul_of_lt {k : Nat} (hk : k < (cstr word).length) :
    putNul word k = some (word.set k 0) := by
  have hlen := (cstr_isPrefix word).length_le
  rw [putNul, if_pos ⟨Int.natCast_nonneg k, by omega⟩, Int.toNat_natCast]

/-- A NUL written into the text ends it there. -/
theorem cstr_set {k : Nat} (hk : k < (cstr word).length) :
    cstr (word.set k 0) = (cstr word).take k := by
  have hlen := (cstr_isPrefix word).length_le
  have htake : word.take k = (cstr word).take k := by
    conv_rhs => rw [List.prefix_iff_eq_take.mp (cstr_isPrefix word)]
    rw [List.take_take, Nat.min_eq_left hk.le]
  rw [List.set_eq_take_append_cons_drop, if_pos (by omega), htake]
  exact cstr_append_nul ((nulFree_cstr word).take k) _

/-! ## The loop -/

theorem beforePair_short (h : w.length ≤ 1) : beforePair w = w := by
  match w, h with
  | [], _ => rfl
  | [_], _ => rfl

/-- At index `i` the loop has found no pair yet. -/
def Searched (w : Bytes) (i : Nat) : Prop :=
  beforePair w = w.take i ++ beforePair (w.drop i)

theorem searched_zero (w : Bytes) : Searched w 0 := rfl

theorem drop_pair {k : Nat} (hk : k + 1 < w.length) :
    w.drop k = w[k] :: w[k + 1] :: w.drop (k + 2) := by
  rw [List.drop_eq_getElem_cons (by omega), List.drop_eq_getElem_cons (by omega)]

theorem Searched.pair {k : Nat} (h : Searched w k) (hk : k + 1 < w.length)
    (hcd : (isSpace w[k] && isSpace w[k + 1]) = true) :
    beforePair w = w.take k := by
  rw [h, drop_pair hk, beforePair, hcd, if_pos rfl, List.append_nil]

theorem Searched.next {k : Nat} (h : Searched w k) (hk : k + 1 < w.length)
    (hcd : (isSpace w[k] && isSpace w[k + 1]) = false) : Searched w (k + 1) := by
  rw [Searched, h, drop_pair hk, beforePair, hcd, if_neg (by simp),
    List.take_succ_eq_append_getElem (by omega), List.append_assoc,
    List.singleton_append, List.drop_eq_getElem_cons hk]

theorem Searched.all {k : Nat} (h : Searched w k) (hk : w.length ≤ k + 1) :
    beforePair w = w := by
  rw [h, beforePair_short (by rw [List.length_drop]; omega), List.take_append_drop]

theorem Searched.le_length {k : Nat} (h : Searched w k) (hk : k ≤ w.length) :
    k ≤ (beforePair w).length := by
  rw [h, List.length_append, List.length_take, Nat.min_eq_left hk]
  exact Nat.le_add_right _ _

theorem spacesAt_eq (hw : NulFree w) (hi : i.toNat < w.length)
    (hi' : (i + 1).toNat < w.length) :
    spacesAt (w ++ [0]) i =
      some (isSpace w[i.toNat] && isSpace w[(i + 1).toNat]) := by
  have htext : cstr (w ++ [0]) = w := cstr_append_nul hw []
  rw [spacesAt, charAt_of_lt (by rw [htext]; exact hi),
    charAt_of_lt (by rw [htext]; exact hi')]
  simp only [htext, Option.map_some]
  cases isSpace w[i.toNat] <;> simp

theorem toNat_succ (i : UInt32) :
    (i.toNat + 1 < 2 ^ 32 ∧ (i + 1).toNat = i.toNat + 1) ∨
      (i.toNat + 1 = 2 ^ 32 ∧ (i + 1).toNat = 0) := by
  have hi := i.toNat_lt
  rw [UInt32.toNat_add]
  show _ ∧ (i.toNat + 1) % 2 ^ 32 = _ ∨ _ ∧ (i.toNat + 1) % 2 ^ 32 = _
  omega

/-- One round from an index the loop has come to: it ends with the text cut at
the first pair, or whole, or it goes on. What an index that wraps compares the
last character with is the first. -/
theorem trimLoop_succ (hw : NulFree w) (h : Searched w i.toNat) (fuel : Nat) :
    (∃ word, trimLoop (fuel + 1) (w ++ [0]) i = some word ∧
      strlen word ≤ 2 ^ 32 ∧ (cstr word = beforePair w ∨
        i.toNat = 2 ^ 32 - 1 ∧ strlen word = i.toNat)) ∨
    (trimLoop (fuel + 1) (w ++ [0]) i = trimLoop fuel (w ++ [0]) (i + 1) ∧
      i.toNat + 1 < w.length ∧ Searched w (i + 1).toNat) := by
  have hwrap := toNat_succ i
  have htext : cstr (w ++ [0]) = w := cstr_append_nul hw []
  rw [trimLoop, strlen_terminated hw]
  split
  · next hlt =>
      have hi : i.toNat < w.length := by omega
      rw [spacesAt_eq hw hi (by omega)]
      cases hcd : isSpace w[i.toNat] && isSpace w[(i + 1).toNat] with
      | true =>
          have hk : i.toNat < (cstr (w ++ [0])).length := by rw [htext]; exact hi
          have hcut : cstr ((w ++ [0]).set i.toNat 0) = w.take i.toNat := by
            rw [cstr_set hk, htext]
          have hlen : strlen ((w ++ [0]).set i.toNat 0) = i.toNat := by
            rw [strlen, hcut, List.length_take, Nat.min_eq_left hi.le]
          refine Or.inl ⟨_, putNul_of_lt hk, by omega, ?_⟩
          rcases hwrap with ⟨_, hnext⟩ | ⟨hmax, _⟩
          · left
            simp only [hnext] at hcd
            rw [hcut, h.pair (by omega) hcd]
          · right
            omega
      | false =>
          refine Or.inr ⟨rfl, by omega, ?_⟩
          rcases hwrap with ⟨_, hnext⟩ | ⟨_, hzero⟩
          · simp only [hnext] at hcd ⊢
            exact h.next (by omega) hcd
          · rw [hzero]
            exact searched_zero w
  · next hge =>
      have hlen := strlen_terminated hw
      refine Or.inl ⟨_, rfl, by omega, Or.inl ?_⟩
      rw [htext, h.all (by omega)]

theorem trimLoop_leaves (hw : NulFree w) (fuel : Nat) :
    ∀ i : UInt32, Searched w i.toNat → trimLoop fuel (w ++ [0]) i = some word →
      strlen word ≤ 2 ^ 32 ∧
        (cstr word = beforePair w ∨ strlen word = 2 ^ 32 - 1) := by
  induction fuel with
  | zero => intro i _ h; cases h
  | succ fuel ih =>
      intro i hi h
      rcases trimLoop_succ hw hi fuel with
        ⟨word', heq, hlen, hleft⟩ | ⟨heq, _, hnext⟩
      · rw [heq] at h
        injection h with h
        rw [← h]
        exact ⟨hlen, hleft.imp_right fun hmax => hmax.2.trans hmax.1⟩
      · rw [heq] at h
        exact ih _ hnext h

/-- The loop comes to the first pair, or to the end, if the index can. -/
theorem trimLoop_ends (hw : NulFree w) (hlen : (beforePair w).length ≤ 2 ^ 31)
    (left : Nat) : ∀ i : UInt32, Searched w i.toNat → i.toNat ≤ 2 ^ 31 →
      (beforePair w).length - i.toNat = left →
        ∃ fuel word, trimLoop fuel (w ++ [0]) i = some word ∧
          cstr word = beforePair w := by
  induction left with
  | zero =>
      intro i hi hle hleft
      rcases trimLoop_succ hw hi 0 with ⟨word, heq, _, htext⟩ | ⟨_, hlt, hnext⟩
      · exact ⟨1, word, heq, htext.resolve_right (by omega)⟩
      · have hwrap := toNat_succ i
        have hsearched := hnext.le_length (by omega)
        omega
  | succ left ih =>
      intro i hi hle hleft
      rcases trimLoop_succ hw hi 0 with ⟨word, heq, _, htext⟩ | ⟨_, hlt, hnext⟩
      · exact ⟨1, word, heq, htext.resolve_right (by omega)⟩
      · have hwrap := toNat_succ i
        have hsearched := hnext.le_length (by omega)
        obtain ⟨fuel, word, heq, htext⟩ := ih (i + 1) hnext (by omega) (by omega)
        rcases trimLoop_succ hw hi fuel with
          ⟨word', heq', _, htext'⟩ | ⟨heq', _, _⟩
        · exact ⟨fuel + 1, word', heq', htext'.resolve_right (by omega)⟩
        · exact ⟨fuel + 1, word, heq'.trans heq, htext⟩

/-! ## The last character -/

/-- The text without its last character, if that is white space. -/
def dropSpace (p : Bytes) : Bytes :=
  if p.getLast?.any isSpace then p.dropLast else p

theorem toInt_last {n : Nat} (hle : n ≤ 2 ^ 32) :
    (1 ≤ n ∧ n ≤ 2 ^ 31 ∧ (Int32.ofInt ((n : Int) - 1)).toInt = (n - 1 : Nat)) ∨
      ((n = 0 ∨ 2 ^ 31 < n) ∧ (Int32.ofInt ((n : Int) - 1)).toInt < 0) := by
  have hsize : (Int32.size : Int) = 4294967296 := rfl
  rw [Int32.toInt_ofInt, Int.bmod_def, hsize]
  split <;> omega

theorem trimEnd_eq (h1 : 1 ≤ strlen word) (h2 : strlen word ≤ 2 ^ 31) :
    ∃ word', trimEnd word = some word' ∧ cstr word' = dropSpace (cstr word) := by
  have hlast : strlen word - 1 < (cstr word).length := by
    rw [strlen] at h1 ⊢
    omega
  rcases toInt_last (n := strlen word) (by omega) with ⟨_, _, hidx⟩ | ⟨_, _⟩
  · have hget : (cstr word).getLast? = some (cstr word)[strlen word - 1] := by
      rw [List.getLast?_eq_getElem?]
      exact List.getElem?_eq_getElem hlast
    rw [trimEnd, hidx, charAt_of_lt hlast, dropSpace, hget]
    simp only [Option.any_some]
    split
    · refine ⟨_, putNul_of_lt hlast, ?_⟩
      rw [cstr_set hlast, List.dropLast_eq_take]
      rfl
    · exact ⟨word, rfl, rfl⟩
  · omega

/-- With no text left, or with more than an `int` counts, the last index is
negative. -/
theorem trimEnd_eq_none (hle : strlen word ≤ 2 ^ 32)
    (h : strlen word = 0 ∨ 2 ^ 31 < strlen word) : trimEnd word = none := by
  rcases toInt_last hle with ⟨_, _, _⟩ | ⟨_, hneg⟩
  · omega
  · rw [trimEnd, charAt, if_neg (by omega)]

/-! ## The whole function -/

theorem trim_eq (hw : NulFree w) (hne : w ≠ []) (fuel : Nat) :
    trim fuel (some (w ++ [0])) =
      ((trimLoop fuel (w ++ [0]) 0).bind trimEnd).map some := by
  obtain ⟨c, cs, rfl⟩ := List.exists_cons_of_ne_nil hne
  have hc : c ≠ 0 := fun h => hw (h ▸ List.mem_cons_self)
  have hfirst : charAt (c :: cs ++ [0]) 0 = some c := rfl
  rw [trim, hfirst]
  simp only [if_neg hc]

/-- `Trim` ends without leaving the array exactly if the loop leaves some text,
and no more than an `int` counts. -/
theorem trims_iff_dropSpace (hw : NulFree w) (hne : w ≠ []) :
    Trims w ↔ beforePair w ≠ [] ∧ (beforePair w).length ≤ 2 ^ 31 ∧
      dropSpace (beforePair w) = strip w := by
  constructor
  · rintro ⟨fuel, word, htrim, htext⟩
    rw [trim_eq hw hne] at htrim
    obtain ⟨word', hend, hsome⟩ := Option.map_eq_some_iff.mp htrim
    injection hsome with hsome
    subst hsome
    obtain ⟨left, hloop, hend⟩ := Option.bind_eq_some_iff.mp hend
    obtain ⟨hlen, hleft⟩ := trimLoop_leaves hw fuel 0 (searched_zero w) hloop
    have hbounds : 1 ≤ strlen left ∧ strlen left ≤ 2 ^ 31 := by
      by_contra hout
      rw [trimEnd_eq_none hlen (by omega)] at hend
      cases hend
    obtain ⟨word'', heq, htext'⟩ := trimEnd_eq hbounds.1 hbounds.2
    rw [hend] at heq
    injection heq with heq
    have hbefore : cstr left = beforePair w := by
      rcases hleft with h | h
      · exact h
      · omega
    rw [strlen, hbefore] at hbounds
    refine ⟨List.length_pos_iff.mp hbounds.1, hbounds.2, ?_⟩
    rw [← hbefore, ← htext', ← heq, htext]
  · rintro ⟨hsome, hlen, htext⟩
    obtain ⟨fuel, left, hloop, hbefore⟩ :=
      trimLoop_ends hw hlen _ 0 (searched_zero w) (Nat.zero_le _) rfl
    have hbounds : 1 ≤ strlen left ∧ strlen left ≤ 2 ^ 31 := by
      rw [strlen, hbefore]
      exact ⟨List.length_pos_iff.mpr hsome, hlen⟩
    obtain ⟨word, hend, hcut⟩ := trimEnd_eq hbounds.1 hbounds.2
    refine ⟨fuel, word, ?_, ?_⟩
    · rw [trim_eq hw hne, hloop, Option.bind_some, hend, Option.map_some]
    · rw [hcut, hbefore, htext]

/-! ## What is left against what is asked for -/

theorem rdropWhile_append (a b : Bytes) :
    (a ++ b).rdropWhile isSpace =
      if b.all isSpace then a.rdropWhile isSpace
      else a ++ b.rdropWhile isSpace := by
  rw [List.rdropWhile, List.reverse_append, List.dropWhile_append]
  by_cases h : b.all isSpace
  · have hnil : b.reverse.dropWhile isSpace = [] :=
      List.dropWhile_eq_nil_iff.mpr fun c hc =>
        List.all_eq_true.mp h c (List.mem_reverse.mp hc)
    rw [if_pos h, hnil, if_pos List.isEmpty_nil]
    rfl
  · have hsome : (b.reverse.dropWhile isSpace).isEmpty = false := by
      rw [List.isEmpty_eq_false_iff]
      intro hnil
      rw [List.dropWhile_eq_nil_iff] at hnil
      exact h (List.all_eq_true.mpr fun c hc => hnil c (List.mem_reverse.mpr hc))
    rw [if_neg h, hsome, if_neg (by simp), List.reverse_append, List.reverse_reverse]
    rfl

/-- A pair of spaces bounds what stands before the first. -/
theorem length_beforePair_le {c d : UInt8} (hc : isSpace c = true)
    (hd : isSpace d = true) (rest a : Bytes) :
    (beforePair (a ++ c :: d :: rest)).length ≤ a.length := by
  induction a with
  | nil =>
      rw [List.nil_append, beforePair, hc, hd]
      exact Nat.le_refl _
  | cons x a ih =>
      obtain ⟨y, ys, hys⟩ : ∃ y ys, a ++ c :: d :: rest = y :: ys :=
        List.exists_cons_of_ne_nil (by simp)
      rw [hys] at ih
      rw [List.cons_append, hys, beforePair]
      split
      · exact Nat.zero_le _
      · exact Nat.succ_le_succ ih

/-- There is no pair, or what stands before the first one ends in no space. -/
theorem beforePair_cases (w : Bytes) :
    beforePair w = w ∨ ∃ a c d rest, w = a ++ c :: d :: rest ∧ isSpace c = true ∧
      isSpace d = true ∧ beforePair w = a ∧
      ∀ hne : a ≠ [], ¬ isSpace (a.getLast hne) = true := by
  have hsplit : beforePair w = w ∨ ∃ a c d rest, w = a ++ c :: d :: rest ∧
      isSpace c = true ∧ isSpace d = true ∧ beforePair w = a := by
    fun_induction beforePair w with
    | case1 c d rest hcd =>
        rw [Bool.and_eq_true] at hcd
        exact Or.inr ⟨[], c, d, rest, rfl, hcd.1, hcd.2, rfl⟩
    | case2 c d rest _ ih =>
        rcases ih with heq | ⟨a, x, y, rest', hw, hx, hy, heq⟩
        · exact Or.inl (by rw [heq])
        · exact Or.inr ⟨c :: a, x, y, rest', by rw [hw]; rfl, hx, hy, by rw [heq]⟩
    | case3 w _ => exact Or.inl rfl
  refine hsplit.imp_right ?_
  rintro ⟨a, c, d, rest, hw, hc, hd, ha⟩
  refine ⟨a, c, d, rest, hw, hc, hd, ha, fun hne hlast => ?_⟩
  have hbound := length_beforePair_le hlast hc (d :: rest) a.dropLast
  have hjoin : a.dropLast ++ a.getLast hne :: c :: d :: rest = w := by
    rw [hw, List.append_cons, List.dropLast_append_getLast]
  rw [hjoin, ha, List.length_dropLast] at hbound
  have hpos := List.length_pos_iff.mpr hne
  omega

/-- Without a pair there is at most one space at the end. -/
theorem dropSpace_of_no_pair (h : beforePair w = w) :
    dropSpace w = w.rdropWhile isSpace := by
  induction w using List.reverseRecOn with
  | nil => rfl
  | append_singleton w c _ =>
      rw [dropSpace, List.getLast?_concat, Option.any_some, List.dropLast_concat,
        List.rdropWhile_concat]
      split
      · next hc =>
          refine (List.rdropWhile_eq_self_iff.mpr fun hne hlast => ?_).symm
          have hbound := length_beforePair_le hlast hc [] w.dropLast
          have hjoin : w.dropLast ++ [w.getLast hne, c] = w ++ [c] := by
            rw [List.append_cons, List.dropLast_append_getLast]
          rw [hjoin, h, List.length_append, List.length_singleton,
            List.length_dropLast] at hbound
          omega
      · rfl

theorem strip_of_head {c : UInt8} {cs : Bytes} (hc : isSpace c = false) :
    strip (c :: cs) = (c :: cs).rdropWhile isSpace := by
  rw [strip, List.dropWhile_cons_of_neg (by simp [hc])]

theorem head_strip {c : UInt8} {cs : Bytes} (h : strip w = c :: cs) :
    isSpace c = false := by
  have hle : c :: cs <+: w.dropWhile isSpace := by
    rw [← h]
    exact List.rdropWhile_prefix _ _
  obtain ⟨rest, hrest⟩ := hle
  have hhead := List.head?_dropWhile_not isSpace w
  rw [← hrest] at hhead
  exact hhead

/-- A text that begins with a space is trimmed only if it is that space. -/
theorem dropSpace_eq_strip_iff_nil {c : UInt8} {cs : Bytes} (hc : isSpace c = true) :
    (beforePair (c :: cs) ≠ [] ∧
      dropSpace (beforePair (c :: cs)) = strip (c :: cs)) ↔ cs = [] := by
  constructor
  · rintro ⟨hsome, htext⟩
    cases cs with
    | nil => rfl
    | cons d rest =>
        have hd : isSpace d = false := by
          rw [beforePair, hc, Bool.true_and] at hsome
          cases hd : isSpace d with
          | true => simp [hd] at hsome
          | false => rfl
        have hbefore : ∃ ys, beforePair (c :: d :: rest) = c :: d :: ys := by
          rw [beforePair, hc, hd, if_neg (by simp)]
          cases rest with
          | nil => exact ⟨[], rfl⟩
          | cons e rest =>
              rw [beforePair, hd, Bool.false_and, if_neg (by simp)]
              exact ⟨_, rfl⟩
        obtain ⟨ys, hys⟩ := hbefore
        have hkept : ∃ zs, dropSpace (c :: d :: ys) = c :: zs := by
          rw [dropSpace]
          split
          · exact ⟨_, rfl⟩
          · exact ⟨_, rfl⟩
        obtain ⟨zs, hzs⟩ := hkept
        rw [hys, hzs] at htext
        rw [head_strip htext.symm] at hc
        cases hc
  · rintro rfl
    refine ⟨by simp [beforePair], ?_⟩
    simp [beforePair, dropSpace, strip, hc]

/-- With nothing to take off the front, what follows the first pair has to be
white space. -/
theorem dropSpace_eq_strip_iff {c : UInt8} {cs : Bytes} (hc : isSpace c = false) :
    dropSpace (beforePair (c :: cs)) = strip (c :: cs) ↔
      ∀ d ∈ (c :: cs).drop (beforePair (c :: cs)).length, isSpace d = true := by
  rw [strip_of_head hc]
  rcases beforePair_cases (c :: cs) with
    hall | ⟨a, x, y, rest, hw, hx, hy, ha, hlast⟩
  · rw [hall, List.drop_length, dropSpace_of_no_pair hall]
    simp
  · have hkept : dropSpace a = a := by
      rcases List.eq_nil_or_concat' a with rfl | ⟨b, d, rfl⟩
      · rfl
      · have hd := hlast (by simp)
        rw [List.getLast_concat] at hd
        rw [dropSpace, List.getLast?_concat, Option.any_some, if_neg hd]
    rw [ha, hw, List.drop_left, hkept, rdropWhile_append]
    split
    · next hspaces =>
        rw [List.all_eq_true] at hspaces
        exact iff_of_true (List.rdropWhile_eq_self_iff.mpr hlast).symm hspaces
    · next hspaces =>
        rw [List.all_eq_true] at hspaces
        refine iff_of_false (fun heq => hspaces ?_) hspaces
        have hnil := List.append_right_eq_self.mp heq.symm
        exact (List.rdropWhile_eq_nil_iff).mp hnil

/-- `Trim` trims exactly the texts that are one white-space character, and
those with nothing to take off the front whose first two adjacent white-space
characters, if there are any, are the beginning of the trailing run, and within
an `int`'s reach. -/
theorem trims_iff (hw : NulFree w) (hne : w ≠ []) :
    Trims w ↔ (∃ c, w = [c] ∧ isSpace c = true) ∨
      ((∀ c ∈ w.head?, isSpace c = false) ∧
        (∀ c ∈ w.drop (beforePair w).length, isSpace c = true) ∧
        (beforePair w).length ≤ 2 ^ 31) := by
  rw [trims_iff_dropSpace hw hne]
  obtain ⟨c, cs, rfl⟩ := List.exists_cons_of_ne_nil hne
  simp only [List.head?_cons, Option.mem_def, Option.some.injEq, forall_eq',
    List.cons.injEq]
  cases hc : isSpace c with
  | true =>
      have hiff : (beforePair (c :: cs) ≠ [] ∧
          dropSpace (beforePair (c :: cs)) = strip (c :: cs)) ↔ cs = [] :=
        dropSpace_eq_strip_iff_nil hc
      constructor
      · rintro ⟨hsome, _, htext⟩
        exact Or.inl ⟨c, ⟨rfl, hiff.mp ⟨hsome, htext⟩⟩, hc⟩
      · rintro (⟨_, ⟨_, hcs⟩, _⟩ | ⟨hfalse, _⟩)
        · obtain ⟨hsome, htext⟩ := hiff.mpr hcs
          refine ⟨hsome, ?_, htext⟩
          rw [hcs]
          norm_num [beforePair]
        · cases hfalse
  | false =>
      have hsome : beforePair (c :: cs) ≠ [] := by
        cases cs with
        | nil => simp [beforePair]
        | cons d cs => simp [beforePair, hc]
      rw [dropSpace_eq_strip_iff hc]
      constructor
      · rintro ⟨_, hlen, hrest⟩
        exact Or.inr ⟨rfl, hrest, hlen⟩
      · rintro (⟨d, ⟨rfl, _⟩, hd⟩ | ⟨_, hrest, hlen⟩)
        · rw [hc] at hd
          cases hd
        · exact ⟨hsome, hlen, hrest⟩

theorem trims_iff_example : Trims (ascii "a b \n") :=
  (trims_iff (by decide) (by decide)).mpr
    (Or.inr ⟨by decide +kernel, by decide +kernel, by decide⟩)

/-- The documented example keeps the space in front. -/
theorem leading_space_kept : ¬ ∀ w : Bytes, NulFree w → w ≠ [] → Trims w := by
  intro h
  have hbad := h (ascii " abc\n") (by decide) (by decide)
  rw [trims_iff_dropSpace (by decide) (by decide)] at hbad
  exact absurd hbad (by decide)

end PermanentIP

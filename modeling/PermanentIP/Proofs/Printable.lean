import PermanentIP.Proofs.AddressCodec
import PermanentIP.Proofs.Log

/-!
# The calls of `Log` that return

Whether a line comes out as it should is one question; whether the call that
writes it comes back is another. It does if and only if the text fits the buffer
it is expanded into and can be read once more as a format, which is that its `%`s
come in pairs (`returns_logFiledes_iff`). Between two pieces of the format an
argument has to have them in pairs by itself.
-/

namespace PermanentIP

open Lib

variable {format text : Bytes} {args : List Arg}

/-! ## Texts that can be written -/

/-- The text fits its buffer, and can be read as a format. -/
structure Printable (text : Bytes) : Prop where
  fits : text.length < bufferSize
  paired : paired text = true

instance (text : Bytes) : Decidable (Printable text) :=
  decidable_of_iff (text.length < bufferSize ∧ paired text = true)
    ⟨fun h => ⟨h.1, h.2⟩, fun h => ⟨h.1, h.2⟩⟩

/-- A text that takes less than half of its line, and can be read as a format -/
def Brief (text : Bytes) : Prop := paired text = true ∧ text.length ≤ 2000

instance (text : Bytes) : Decidable (Brief text) := inferInstanceAs (Decidable (_ ∧ _))

theorem returns_logFiledes_iff (h : Expands conversions (cstr format) args text)
    (file : FilePtr) (level : Level) :
    (∃ r, logFiledes (some file) level format args = .ok r) ↔ Printable text := by
  by_cases hfits : text.length < bufferSize
  · have hread : reread conversions 1 text = expand conversions text [] :=
      Option.bind_fun_some _
    rw [logFiledes_eq h hfits, hread]
    cases hexpand : expand conversions text [] with
    | none =>
        refine iff_of_false ?_ fun hprint => ?_
        · rintro ⟨r, hr⟩
          cases hr
        · have hsome := (isSome_expand_nil (C := conversions)).trans hprint.paired
          rw [hexpand] at hsome
          cases hsome
    | some t =>
        refine iff_of_true ⟨_, rfl⟩ ⟨hfits, ?_⟩
        rw [← isSome_expand_nil (C := conversions), hexpand]
        rfl
  · refine iff_of_false ?_ fun hprint => hfits hprint.fits
    have hbuffer : vsprintf format args = .error .overflow := by
      rw [vsprintf, expansion, h.expand_eq]
      exact if_neg hfits
    simp only [logFiledes, fprintf, expansion_logPrefix, hbuffer]
    rintro ⟨r, hr⟩
    cases hr

/-- The rule for a call of `Log` -/
theorem does_log {ω : Type*} (h : Expands conversions (cstr format) args text)
    (stderr : FilePtr) (level : Level) :
    Does (log stderr level format args : Outcome ω Failure Unit) (Printable text) [] () := by
  refine does_call ?_
  rw [← returns_logFiledes_iff h stderr level]
  cases logFiledes (some stderr) level format args with
  | error failure =>
      refine iff_of_false ?_ ?_
      · rintro ⟨u, hu⟩
        cases hu
      · rintro ⟨r, hr⟩
        cases hr
  | ok r => exact iff_of_true ⟨(), rfl⟩ ⟨r, rfl⟩

/-- A line that is always the same -/
theorem does_log_constant {ω : Type*} (hpercent : percent ∉ cstr format)
    (hfits : (cstr format).length < bufferSize) (stderr : FilePtr) (level : Level) :
    Does (log stderr level format [] : Outcome ω Failure Unit) True [] () :=
  (does_log (expands_self hpercent) stderr level).congr
    (iff_of_true ⟨hfits, paired_of_not_mem hpercent⟩ trivial)

/-- What a `ShutDown` logs comes out, where what else it shuts down does. -/
theorem does_logShutDown {ω : Type*} {title : Bytes} {also : Outcome ω Failure Unit}
    (htitle : percent ∉ cstr title ∧ (cstr title).length < bufferSize)
    (hformat : percent ∉ cstr format ∧ (cstr format).length < bufferSize)
    (halso : Does also True [] ()) (stderr : FilePtr) :
    Does (logShutDown stderr title format also) True [] () :=
  ((does_log_constant htitle.1 htitle.2 stderr .debug).bind
    ((does_log_constant hformat.1 hformat.2 stderr .warning).bind
      (halso.bind (does_log_constant (by decide) (by decide) stderr .success)))).congr
    (by simp)

/-! ## What the arguments print as -/

theorem length_percentD_le (n : Int32) : (percentD n).length ≤ 11 := by
  have habs : n.toInt.natAbs < 10 ^ 10 := by
    have hlo := n.le_toInt
    have hhi := n.toInt_lt
    omega
  have hdecimal := length_decimal_le (k := 10) (by omega) habs
  rw [percentD]
  split
  · rw [List.length_append]
    exact Nat.add_le_add (Nat.le_refl 1) hdecimal
  · omega

theorem percent_not_mem_intToIPString (x : Int32) : percent ∉ intToIPString x := by
  have hdecimal (n : Nat) : percent ∉ decimal n := fun h =>
    ne_of_isDigit (by decide) (isDigit_of_mem_decimal h) rfl
  have hdot : percent ≠ dot := by decide
  simp [intToIPString_eq, hdecimal, hdot]

end PermanentIP

import PermanentIP.RendezvousServer.RequestLog

/-!
# What reaches the log

Each overload of `Log` expands the caller's format once, as it should, and then
hands the text to a function that takes it for a format: once more where it
writes to the stream, and by file name a second time, since that overload calls
the one for streams with the text in the format's place. So what is written is
the text read again (`reread`), once or twice over, and that is the text if and
only if there is no `%` in it: none that a `%%` of the format left, and none
that came with an argument.
-/

namespace PermanentIP

open Lib

variable {format text : Bytes} {args : List Arg} {level : Level}

/-! ## C strings -/

theorem forall_mem_percentD {P : UInt8 → Prop} (hminus : P 45)
    (hdigit : ∀ c, isDigit c = true → P c) (n : Int32) : ∀ c ∈ percentD n, P c := by
  have hdecimal : ∀ c ∈ decimal n.toInt.natAbs, P c :=
    fun c hc => hdigit c (isDigit_of_mem_decimal hc)
  rw [percentD]
  split
  · rw [List.forall_mem_append]
    exact ⟨List.forall_mem_singleton.mpr hminus, hdecimal⟩
  · exact hdecimal

theorem ne_of_isDigit {c d : UInt8} (hd : isDigit d = false) (hc : isDigit c = true) :
    c ≠ d := by
  rintro rfl
  rw [hd] at hc
  cases hc

/-- What an argument prints as holds no NUL. -/
theorem nulFree_print (a : Arg) : NulFree (conversions.print a) := by
  cases a with
  | str s => exact nulFree_cstr s
  | int n =>
      intro h
      exact forall_mem_percentD (P := (· ≠ 0)) (by decide)
        (fun _ => ne_of_isDigit (by decide)) n 0 h rfl

theorem percent_not_mem_percentD (n : Int32) : percent ∉ percentD n := by
  intro h
  exact forall_mem_percentD (P := (· ≠ percent)) (by decide)
    (fun _ => ne_of_isDigit (by decide)) n percent h rfl

theorem nulFree_of_expands (h : Expands conversions format args text)
    (hn : NulFree format) : NulFree text := by
  intro h0
  refine h.forall_mem (P := (· ≠ 0)) ?_ (fun a _ => ?_) 0 h0 rfl
  · rintro c hc rfl
    exact hn hc
  · rintro c hc rfl
    exact nulFree_print a hc

theorem expands_str {s : Bytes} (h : Expands conversions format args text) :
    Expands conversions (percent :: 115 :: format) (.str s :: args) (cstr s ++ text) :=
  .directive (a := Arg.str s) h

theorem expands_int {n : Int32} (h : Expands conversions format args text) :
    Expands conversions (percent :: 100 :: format) (.int n :: args) (percentD n ++ text) :=
  .directive (a := Arg.int n) h

/-! ## The library's calls -/

theorem ok_bind {α β : Type} (a : α) (next : α → Except Failure β) :
    (Except.ok a >>= next) = next a := rfl

/-- A reading as the result of a call that goes on with it -/
def onReading {β : Type} (reading : Option Bytes) (next : Bytes → β) : Except Failure β :=
  reading.elim (.error .directive) fun text => .ok (next text)

theorem onReading_eq_ok_iff {β : Type} {next : Bytes → β}
    (hnext : Function.Injective next) {reading : Option Bytes} :
    onReading reading next = .ok (next text) ↔ reading = some text := by
  cases reading with
  | none => simp [onReading]
  | some t => simp [onReading, hnext.eq_iff]

/-- A buffer with this text in it -/
def holding (text : Bytes) : Bytes := store (text ++ [0]) zeroed

theorem cstr_store_terminated (hn : NulFree text) (buffer : Bytes) :
    cstr (store (text ++ [0]) buffer) = text := by
  rw [store, List.append_assoc, List.singleton_append]
  exact cstr_append_nul hn _

theorem cstr_holding (hn : NulFree text) : cstr (holding text) = text :=
  cstr_store_terminated hn zeroed

theorem vsprintf_of_expands (h : Expands conversions (cstr format) args text)
    (hfits : text.length < bufferSize) : vsprintf format args = .ok (holding text) := by
  rw [vsprintf, expansion, h.expand_eq]
  exact if_pos hfits

/-- The text in a buffer, read as a format -/
theorem fprintf_buffer (file : FilePtr) {buffer : Bytes} (h : cstr buffer = text) :
    fprintf (some file) buffer [] =
      onReading (reread conversions 1 text) fun t => [(file, t)] := by
  simp only [fprintf, expansion, h, reread]
  cases expand conversions text [] <;> rfl

/-! ## The prefix -/

/-- What stands before a message -/
def logPrefix (level : Level) : Bytes :=
  levelColor level ++ ascii "[" ++ levelDescriptor level ++ ascii "]" ++ clearColor ++
    ascii " "

theorem expansion_logPrefix (level : Level) :
    expansion prefixFormat (prefixArgs level) = .ok (logPrefix level) := by
  cases level <;> rfl

theorem nulFree_logPrefix (level : Level) : NulFree (logPrefix level) := by
  cases level <;> decide

theorem percent_not_mem_logPrefix (level : Level) : percent ∉ logPrefix level := by
  cases level <;> decide

/-! ## The overloads -/

def newline : Bytes := ascii "\n"

/-- A line as the overload for streams writes it -/
def lineOn (file : FilePtr) (level : Level) (text : Bytes) : Written :=
  [(file, logPrefix level), (file, text), (file, newline)]

/-- A line as the overload by level writes it -/
def lineIn (file : FilePtr) (level : Level) (text : Bytes) : Written :=
  [(file, logPrefix level ++ text), (file, newline)]

theorem logFiledes_eq (h : Expands conversions (cstr format) args text)
    (hfits : text.length < bufferSize) (file : FilePtr) (level : Level) :
    logFiledes (some file) level format args =
      onReading (reread conversions 1 text) fun t => (true, lineOn file level t) := by
  have hn : NulFree text := nulFree_of_expands h (nulFree_cstr format)
  have hbefore : fprintf (some file) prefixFormat (prefixArgs level) =
      .ok [(file, logPrefix level)] := by
    rw [fprintf, expansion_logPrefix]
    rfl
  simp only [logFiledes, hbefore, vsprintf_of_expands h hfits, ok_bind,
    fprintf_buffer file (cstr_holding hn)]
  cases reread conversions 1 text <;> rfl

/-- A text with a directive in it does not get past the second reading. -/
theorem logFiledes_of_expand_none (h : expand conversions (cstr format) args = none)
    (file : FilePtr) (level : Level) :
    logFiledes (some file) level format args = .error .directive := by
  simp only [logFiledes, fprintf, vsprintf, expansion, h]
  rw [← expansion, expansion_logPrefix]
  rfl

theorem logFilename_eq {fopen : Bytes → Option FilePtr} {filename : Bytes}
    {file : FilePtr} (hopen : fopen filename = some file)
    (h : Expands conversions (cstr format) args text)
    (hfits : text.length < bufferSize) (level : Level) :
    logFilename fopen filename level format args =
      onReading (reread conversions 2 text) fun t => (true, lineOn file level t) := by
  have hn : NulFree text := nulFree_of_expands h (nulFree_cstr format)
  simp only [logFilename, hopen, vsprintf_of_expands h hfits, ok_bind]
  rw [reread]
  cases hread : expand conversions text [] with
  | none =>
      refine logFiledes_of_expand_none ?_ file level
      rw [cstr_holding hn, hread]
  | some t =>
      obtain ⟨used, rest, hargs, hexp⟩ := expands_of_expand hread
      have hused : used = [] := (List.append_eq_nil_iff.mp hargs.symm).1
      subst hused
      rw [← cstr_holding hn] at hexp
      refine logFiledes_eq hexp (lt_of_le_of_lt ?_ hfits) file level
      exact (length_of_expand_nil hread).1

/-! ## By level -/

/-- The handles a call by level writes to, once it has opened what was closed -/
structure Opened (fopen : Bytes → Option FilePtr) (files : LogFiles) (level : Level)
    (root own : FilePtr) (after : LogFiles) : Prop where
  opens : openIfClosed fopen files = .ok after
  logFile : after.logFile = some root
  levelFile : after.levelFileHandles level = some own

/-- The first call opens all six, if they can be opened. -/
theorem opened_of_fopen {fopen : Bytes → Option FilePtr} {root : FilePtr}
    {own : Level → FilePtr} (hroot : fopen (logDir ++ logFileName) = some root)
    (hown : ∀ level, fopen (logDir ++ levelFile level) = some (own level))
    (level : Level) :
    Opened fopen .closed level root (own level) ⟨some root, fun l => some (own l)⟩ := by
  refine ⟨?_, rfl, rfl⟩
  have hclosed : LogFiles.closed.logFile = none := rfl
  rw [openIfClosed, if_pos hclosed, openLogFiles, levels, hroot]
  simp only [List.foldlM_cons, List.foldlM_nil, hown]
  refine congrArg Except.ok (congrArg (LogFiles.mk (some root)) (funext fun l => ?_))
  cases l <;> rfl

theorem logLevel_eq {fopen : Bytes → Option FilePtr} {files after : LogFiles}
    {root own : FilePtr} (hopen : Opened fopen files level root own after)
    (h : Expands conversions (cstr format) args text)
    (hfits : (logPrefix level).length + text.length < bufferSize) :
    logLevel fopen files level format args =
      onReading (reread conversions 1 text) fun t =>
        (after, lineIn root level t ++ lineIn own level t) := by
  have hn : NulFree text := nulFree_of_expands h (nulFree_cstr format)
  have hbefore := nulFree_logPrefix level
  -- The buffer `log_format`, before and after the message is put behind the prefix
  have hsnprintf : snprintf bufferSize (logPrefix level) = logPrefix level :=
    List.take_of_length_le (by omega)
  have hstrncat : strncat (store (snprintf bufferSize (logPrefix level) ++ [0]) zeroed)
      (holding text) (cstr (holding text)).length =
        .ok (store (logPrefix level ++ text ++ [0]) (holding (logPrefix level))) := by
    rw [hsnprintf, ← holding, strncat, cstr_holding hn, cstr_holding hbefore,
      List.take_length, if_pos (by rwa [List.length_append])]
  have hcstr : cstr (store (logPrefix level ++ text ++ [0]) (holding (logPrefix level))) =
      logPrefix level ++ text :=
    cstr_store_terminated (nulFree_append.mpr ⟨hbefore, hn⟩) _
  have hread : reread conversions 1 (logPrefix level ++ text) =
      (reread conversions 1 text).map (logPrefix level ++ ·) := by
    simp only [reread, expand_append_of_not_mem (percent_not_mem_logPrefix level)]
    cases expand conversions text [] <;> rfl
  simp only [logLevel, hopen.opens, expansion_logPrefix, vsprintf_of_expands h
    (Nat.lt_of_le_of_lt (Nat.le_add_left _ _) hfits), ok_bind, hstrncat, hopen.logFile,
    hopen.levelFile, fprintf_buffer root hcstr, fprintf_buffer own hcstr, hread]
  cases reread conversions 1 text <;> rfl

/-! ## What `HandleRequests` has to log -/

namespace SimpleRendezvousServer

/-- `(address:port)`, from its second byte on -/
def sourceText (src : SockAddr) : Bytes :=
  percentD src.sinAddr.toInt32 ++ (ascii ":" ++
    (percentD (Int32.ofNat (htons src.sinPort).toNat) ++ ascii ")"))

/-- What the log should say of a lookup -/
def lookupText (subscriber peer : Bytes) (src : SockAddr) : Bytes :=
  ascii "Sending RS lookup of <" ++ (cstr subscriber ++ (ascii ", " ++
    (cstr peer ++ (ascii "> to (" ++ sourceText src))))

/-- What it should say of a registration -/
def registrationText (name : Bytes) (src : SockAddr) : Bytes :=
  ascii "Updating RS registration of <" ++ (cstr name ++ (ascii "> from (" ++
    sourceText src))

theorem expands_source (src : SockAddr) :
    Expands conversions (percent :: 100 :: (ascii ":" ++ percent :: 100 :: ascii ")"))
      (sourceArgs src) (sourceText src) :=
  expands_int (.append (by decide) (expands_int (expands_self (by decide))))

theorem expands_lookup (subscriber peer : Bytes) (src : SockAddr) :
    Expands conversions (cstr lookupLogFormat)
      (.str subscriber :: .str peer :: sourceArgs src)
      (lookupText subscriber peer src) := by
  have hformat : cstr lookupLogFormat = ascii "Sending RS lookup of <" ++
      percent :: 115 :: (ascii ", " ++ percent :: 115 :: (ascii "> to (" ++
        percent :: 100 :: (ascii ":" ++ percent :: 100 :: ascii ")"))) := by decide
  rw [hformat]
  exact .append (by decide) (expands_str (.append (by decide) (expands_str
    (.append (by decide) (expands_source src)))))

theorem expands_registration (name : Bytes) (src : SockAddr) :
    Expands conversions (cstr registrationLogFormat) (.str name :: sourceArgs src)
      (registrationText name src) := by
  have hformat : cstr registrationLogFormat = ascii "Updating RS registration of <" ++
      percent :: 115 :: (ascii "> from (" ++
        percent :: 100 :: (ascii ":" ++ percent :: 100 :: ascii ")")) := by decide
  rw [hformat]
  exact .append (by decide) (expands_str (.append (by decide) (expands_source src)))

end SimpleRendezvousServer

/-! ## When the log is the text -/

/-- There is nothing in the expansion to be read again: no `%%` in the format,
and no `%` in the string arguments. -/
def Plain (format : Bytes) (args : List Arg) : Prop :=
  escapes (cstr format) = false ∧ ∀ s, Arg.str s ∈ args → percent ∉ cstr s

theorem percent_not_mem_iff (h : Expands conversions (cstr format) args text) :
    percent ∉ text ↔ Plain format args := by
  rw [h.percent_mem_iff, not_or, Bool.not_eq_true, Plain]
  refine and_congr_right fun _ => ?_
  constructor
  · intro hargs s hs hpercent
    exact hargs ⟨.str s, hs, hpercent⟩
  · rintro hargs ⟨a, ha, hpercent⟩
    cases a with
    | str s => exact hargs s ha hpercent
    | int n => exact percent_not_mem_percentD n hpercent

theorem lineOn_injective (file : FilePtr) (level : Level) :
    Function.Injective fun text => (true, lineOn file level text) := by
  intro t u h
  simpa [lineOn] using h

theorem logFiledes_iff (h : Expands conversions (cstr format) args text)
    (hfits : text.length < bufferSize) (file : FilePtr) (level : Level) :
    logFiledes (some file) level format args = .ok (true, lineOn file level text) ↔
      Plain format args := by
  rw [logFiledes_eq h hfits, onReading_eq_ok_iff (lineOn_injective file level),
    reread_succ_eq_some_self, percent_not_mem_iff h]

/-- For each overload: the line it writes to each of its files is the prefix and
the expansion of the format, if and only if neither the format nor a string
argument leaves a `%` in the expansion. -/
theorem logs_iff (h : Expands conversions (cstr format) args text)
    (hfits : text.length < bufferSize) (level : Level) :
    (∀ fopen files after root own, Opened fopen files level root own after →
      (logPrefix level).length + text.length < bufferSize →
        (logLevel fopen files level format args =
            .ok (after, lineIn root level text ++ lineIn own level text) ↔
          Plain format args)) ∧
    (∀ file, logFiledes (some file) level format args =
        .ok (true, lineOn file level text) ↔ Plain format args) ∧
    ∀ fopen filename file, fopen filename = some file →
      (logFilename fopen filename level format args =
          .ok (true, lineOn file level text) ↔ Plain format args) := by
  refine ⟨fun fopen files after root own hopen hroom => ?_,
    fun file => logFiledes_iff h hfits file level, fun fopen filename file hopen => ?_⟩
  · have hinjective : Function.Injective fun text =>
        (after, lineIn root level text ++ lineIn own level text) := by
      intro t u h
      simpa [lineIn] using h
    rw [logLevel_eq hopen h hroom, onReading_eq_ok_iff hinjective,
      reread_succ_eq_some_self, percent_not_mem_iff h]
  · rw [logFilename_eq hopen h hfits, onReading_eq_ok_iff (lineOn_injective file level),
      reread_succ_eq_some_self, percent_not_mem_iff h]

/-- The first line of a process that can open its files, and one on `stderr` -/
theorem logs_iff_example :
    logLevel (fun path => some path.length) .closed .debug
        (ascii "Sending %s to our friend...") [.str (ascii "hi")] =
      .ok (⟨some 8, fun level => some (logDir ++ levelFile level).length⟩,
        lineIn 8 .debug (ascii "Sending hi to our friend...") ++
          lineIn 14 .debug (ascii "Sending hi to our friend...")) ∧
    logFiledes (some 2) .debug (ascii "Sending %s to our friend...") [.str (ascii "hi")] =
      .ok (true, lineOn 2 .debug (ascii "Sending hi to our friend...")) := by
  have hformat : cstr (ascii "Sending %s to our friend...") =
      ascii "Sending " ++ percent :: 115 :: ascii " to our friend..." := by decide
  have htext : ascii "Sending hi to our friend..." =
      ascii "Sending " ++ (cstr (ascii "hi") ++ ascii " to our friend...") := by decide
  have h : Expands conversions (cstr (ascii "Sending %s to our friend..."))
      [.str (ascii "hi")] (ascii "Sending hi to our friend...") := by
    rw [hformat, htext]
    exact .append (by decide) (expands_str (expands_self (by decide)))
  have hplain : Plain (ascii "Sending %s to our friend...") [.str (ascii "hi")] := by
    refine ⟨by decide, fun s hs => ?_⟩
    rw [List.mem_singleton, Arg.str.injEq] at hs
    subst hs
    decide
  have hlogs := logs_iff h (by decide) .debug
  exact ⟨(hlogs.1 _ _ _ _ _ (opened_of_fopen rfl (fun _ => rfl) .debug)
    (by decide)).mpr hplain, (hlogs.2.1 2).mpr hplain⟩

namespace SimpleRendezvousServer

/-- A lookup by `50%%` of a name nobody registered -/
def percentLookup : Packet := ⟨⟨netV4, 7, 0⟩, ascii "50%%|bob"⟩

theorem percent_is_read :
    (lookupText (ascii "50%%") [] percentLookup.src).length < bufferSize ∧
      Expands conversions (cstr lookupLogFormat)
        (.str (ascii "50%%") :: .str [] :: sourceArgs percentLookup.src)
        (lookupText (ascii "50%%") [] percentLookup.src) ∧
      (new 3 4).logRequest 2 true percentLookup ≠ .ok (true, lineOn 2 .success
        (lookupText (ascii "50%%") [] percentLookup.src)) := by
  have hnames : (new 3 4).lookupNames percentLookup = (ascii "50%%", []) := by
    decide +kernel
  have hfits : (lookupText (ascii "50%%") [] percentLookup.src).length < bufferSize := by
    decide
  refine ⟨hfits, expands_lookup _ _ _, fun h => ?_⟩
  have hcall : (new 3 4).logRequest 2 true percentLookup = logFiledes (some 2) .success
      lookupLogFormat (.str (ascii "50%%") :: .str [] :: sourceArgs percentLookup.src) := by
    simp only [logRequest, if_true, hnames]
  rw [hcall, logFiledes_iff (expands_lookup _ _ _) hfits] at h
  exact absurd (h.2 _ List.mem_cons_self) (by decide)

/-! ## The requests -/

variable {srv : SimpleRendezvousServer} {stderr : FilePtr} {p : Packet}

/-- A lookup is logged as it is if and only if neither name has a `%`. -/
theorem lookup_logged_iff
    (hfits : (lookupText (srv.lookupNames p).1 (srv.lookupNames p).2 p.src).length <
      bufferSize) :
    srv.logRequest stderr true p = .ok (true, lineOn stderr .success
        (lookupText (srv.lookupNames p).1 (srv.lookupNames p).2 p.src)) ↔
      percent ∉ cstr (srv.lookupNames p).1 ∧ percent ∉ cstr (srv.lookupNames p).2 := by
  have hescapes : escapes (cstr lookupLogFormat) = false := by decide
  rw [logRequest, if_pos rfl, logFiledes_iff (expands_lookup _ _ _) hfits, Plain]
  simp [hescapes, sourceArgs]

theorem registration_logged_iff
    (hfits : (registrationText p.text p.src).length < bufferSize) :
    srv.logRequest stderr false p = .ok (true, lineOn stderr .warning
        (registrationText p.text p.src)) ↔ percent ∉ p.text := by
  have hescapes : escapes (cstr registrationLogFormat) = false := by decide
  have htext : cstr p.text = p.text := cstr_eq_self (nulFree_cstr _)
  rw [logRequest, if_neg (by decide), logFiledes_iff (expands_registration _ _) hfits, Plain]
  simp [hescapes, sourceArgs, htext]

end SimpleRendezvousServer

end PermanentIP

import PermanentIP.Lib.Format
import PermanentIP.Lib.Outcome
import PermanentIP.Common.Utils
import PermanentIP.Common.Socket

/-!
# The log (`Utils::Log`)

`Log` is overloaded three ways: by level alone, which writes to the root log and
to the level's own file; by a stream; and by a file name. All three expand the
caller's format into a buffer of 4096 bytes and hand the buffer to a function
that takes a format.

The calls of the C library fail in the ways that matter here: a directive
without its argument, a text too long for its buffer, a stream that is `NULL`.
What the program does then is undefined, and a model's call ends with a
`Failure`. A `FILE*` other than `NULL` is a number, and what a call of `Log`
does to the files is the list of its writes.

Nearly all that the programs log goes to `stderr`, in the middle of what they do,
and a call with a `Failure` is where the program ends. `log` is such a call as a
statement of a program.
-/

namespace PermanentIP

open Lib

/-! ## `printf` -/

/-- An argument of a variadic call: a `const char*` or an `int` -/
inductive Arg where
  | str (s : Bytes)
  | int (n : Int32)
deriving DecidableEq

/-- `%s` and `%d` -/
def conversions : Conversions Arg where
  letter
    | .str _ => 115
    | .int _ => 100
  print
    | .str s => cstr s
    | .int n => percentD n
  letter_ne
    | .str _ => (by decide : (115 : UInt8) ≠ percent)
    | .int _ => (by decide : (100 : UInt8) ≠ percent)

/-- What ends a call before it returns -/
inductive Failure where
  | exit
  | nullStream
  | directive
  | overflow
deriving DecidableEq, Repr

/-- A `FILE*` that is not `NULL` -/
abbrev FilePtr := Nat

/-- What was written, piece by piece, and to which stream -/
abbrev Written := List (FilePtr × Bytes)

def expansion (format : Bytes) (args : List Arg) : Except Failure Bytes :=
  match expand conversions (cstr format) args with
  | none => .error .directive
  | some text => .ok text

def fprintf (stream : Option FilePtr) (format : Bytes) (args : List Arg) :
    Except Failure Written :=
  match stream with
  | none => .error .nullStream
  | some file => (expansion format args).map fun text => [(file, text)]

/-- What is in a zeroed buffer of 4096 bytes after a `vsprintf` into it -/
def vsprintf (format : Bytes) (args : List Arg) : Except Failure Bytes := do
  let text ← expansion format args
  if text.length < bufferSize then return store (text ++ [0]) zeroed
  else throw .overflow

/-- `strncat(dest, src, n)`, `dest` a buffer of 4096 bytes -/
def strncat (dest src : Bytes) (n : Nat) : Except Failure Bytes :=
  let text := cstr dest ++ (cstr src).take n
  if text.length < bufferSize then .ok (store (text ++ [0]) dest)
  else .error .overflow

/-! ## Levels and files -/

inductive Level where
  | success
  | debug
  | warning
  | error
  | fatal
deriving DecidableEq, Repr

/-- The levels in the order of the arrays they index -/
def levels : List Level := [.success, .debug, .warning, .error, .fatal]

/-- `level_files` -/
def levelFile : Level → Bytes
  | .success => ascii "log.success"
  | .debug => ascii "log.debug"
  | .warning => ascii "log.warning"
  | .error => ascii "log.error"
  | .fatal => ascii "log.fatal"

/-- `level_colors` -/
def levelColor : Level → Bytes
  | .success => ascii "\x1b[1;32m"
  | .debug => ascii "\x1b[1;34m"
  | .warning => ascii "\x1b[1;33m"
  | .error => ascii "\x1b[1;31m"
  | .fatal => ascii "\x1b[1;39m"

/-- `CLEAR_COLOR` -/
def clearColor : Bytes := ascii "\x1b[0m"

/-- `level_descriptors` -/
def levelDescriptor : Level → Bytes
  | .success => ascii "SUCCESS"
  | .debug => ascii "DEBUG"
  | .warning => ascii "WARNING"
  | .error => ascii "ERROR"
  | .fatal => ascii "FATAL"

/-- `LOGDIR` -/
def logDir : Bytes := ascii "logs/"

/-- `LOGFILE` -/
def logFileName : Bytes := ascii "log"

/-- The format `PREPENDED` and `COLOR_OUT` put before a message -/
def prefixFormat : Bytes := ascii "%s[%s]%s "

def prefixArgs (level : Level) : List Arg :=
  [.str (levelColor level), .str (levelDescriptor level), .str clearColor]

/-- The handles that stay open from call to call -/
structure LogFiles where
  logFile : Option FilePtr
  levelFileHandles : Level → Option FilePtr

def LogFiles.closed : LogFiles := ⟨none, fun _ => none⟩

/-- `OpenLogFiles`, when `fopen` opens for a path what it says. The root log is
not asked whether it opened. -/
def openLogFiles (fopen : Bytes → Option FilePtr) (files : LogFiles) :
    Except Failure LogFiles :=
  levels.foldlM
    (fun files level =>
      match fopen (logDir ++ levelFile level) with
      | none => .error .exit
      | some file => .ok { files with
          levelFileHandles := Function.update files.levelFileHandles level (some file) })
    { files with logFile := fopen (logDir ++ logFileName) }

/-- `if (log_file == NULL) OpenLogFiles();` -/
def openIfClosed (fopen : Bytes → Option FilePtr) (files : LogFiles) :
    Except Failure LogFiles :=
  if files.logFile = none then openLogFiles fopen files else .ok files

/-! ## The overloads -/

/-- `Log(level, format, ...)` -/
def logLevel (fopen : Bytes → Option FilePtr) (files : LogFiles) (level : Level)
    (format : Bytes) (args : List Arg) : Except Failure (LogFiles × Written) := do
  let files ← openIfClosed fopen files
  let text ← expansion prefixFormat (prefixArgs level)
  let logFormat := store (snprintf bufferSize text ++ [0]) zeroed
  let buffer ← vsprintf format args
  let logFormat ← strncat logFormat buffer (cstr buffer).length
  let root ← fprintf files.logFile logFormat []
  let rootEnd ← fprintf files.logFile (ascii "\n") []
  let own ← fprintf (files.levelFileHandles level) logFormat []
  let ownEnd ← fprintf (files.levelFileHandles level) (ascii "\n") []
  return (files, root ++ rootEnd ++ own ++ ownEnd)

/-- `Log(filedes, level, format, ...)` -/
def logFiledes (filedes : Option FilePtr) (level : Level) (format : Bytes)
    (args : List Arg) : Except Failure (Bool × Written) := do
  let before ← fprintf filedes prefixFormat (prefixArgs level)
  let buffer ← vsprintf format args
  let message ← fprintf filedes buffer []
  let after ← fprintf filedes (ascii "\n") []
  return (true, before ++ message ++ after)

/-- `Log(filename, level, format, ...)` -/
def logFilename (fopen : Bytes → Option FilePtr) (filename : Bytes) (level : Level)
    (format : Bytes) (args : List Arg) : Except Failure (Bool × Written) :=
  match fopen filename with
  | none => .ok (false, [])
  | some log => do
      let buffer ← vsprintf format args
      logFiledes (some log) level buffer []

/-- `Log(stderr, level, format, ...);` -/
def log {ω : Type*} (stderr : FilePtr) (level : Level) (format : Bytes)
    (args : List Arg) : Outcome ω Failure Unit :=
  .call ((logFiledes (some stderr) level format args).map fun _ => ())

/-- What each `ShutDown` logs: what is shut down, why, what else it shuts down, and
that it is through. Its `arguments` are handed on as the one argument of a format
that has no directive. -/
def logShutDown {ω : Type*} (stderr : FilePtr) (title format : Bytes)
    (also : Outcome ω Failure Unit) : Outcome ω Failure Unit := do
  log stderr .debug title []
  log stderr .warning format []
  also
  log stderr .success (ascii "OK") []

end PermanentIP

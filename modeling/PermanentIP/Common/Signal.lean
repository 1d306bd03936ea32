import Mathlib.Init

/-!
# The life of a program (`Common/Signal.h`)

One flag, which a signal handler or a `ShutDown` sets and the loops look at.
It is `static` in a header: every source file that includes the header has a
flag of its own.
-/

namespace PermanentIP

structure Signal where
  exitFlag : Bool
deriving DecidableEq

namespace Signal

def shouldContinue (s : Signal) : Bool := !s.exitFlag

def exitProgram (_ : Signal) : Signal := ⟨true⟩

def restartProgram (_ : Signal) : Signal := ⟨false⟩

end Signal

end PermanentIP

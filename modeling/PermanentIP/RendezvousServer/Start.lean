import PermanentIP.RendezvousServer.SimpleRendezvousServer

/-!
# The server's life (`SimpleRendezvousServer::Start`, `Common/Signal.h`)

`Start` opens the two listeners and then polls them in turn. `BeginListening`
reports a failure in two ways: its result is what `ShutDown` returns, which is
`false`, as a descriptor number; and `ShutDown` sets the exit flag. `Start`
looks at neither before its loop, and clears the flag on the way to it.

What the system calls return, what the receives find and whether a signal
arrives are inputs, one record for each `BeginListening` and one for each pass
of the loop. The loop ends when the flag is set, or when an assertion fails,
which ends the process; on a list of passes that runs out before either, it is
still running. The signal handlers' installation and the sleep are left out. Every
line that is logged comes out here; `RequestLog` has the loop with its lines.
-/

namespace PermanentIP

namespace SimpleRendezvousServer

/-- What the system calls of one `BeginListening` returned. -/
structure ListenCalls where
  socket : Int
  bind : Int
  setsockopt : Int
  getfl : Int
  setfl : Int

/-- None of them is one `BeginListening` shuts down on. -/
def ListenCalls.ok (calls : ListenCalls) : Bool :=
  0 ≤ calls.socket && calls.bind == 0 && 0 ≤ calls.setsockopt &&
    0 ≤ calls.getfl && 0 ≤ calls.setfl

/-- The server, the exit flag, and what `ShutDown` has closed. -/
structure Process where
  server : SimpleRendezvousServer
  exitFlag : Bool
  closed : List Int

namespace Process

/-! ## `Signal` -/

def shouldContinue (p : Process) : Bool := !p.exitFlag

def exitProgram (p : Process) : Process := { p with exitFlag := true }

def restartProgram (p : Process) : Process := { p with exitFlag := false }

/-! ## Opening the listeners -/

def shutDown (p : Process) : Bool × Process :=
  let closed := p.closed ++ [p.server.registrationListener, p.server.lookupListener]
  (false, { p with closed := closed }.exitProgram)

/-- `BeginListening`; each `return ShutDown(...)` converts a `bool` to the
`int` it returns. -/
def beginListening (p : Process) (calls : ListenCalls) : Int × Process :=
  let failed := (p.shutDown.1.toInt, p.shutDown.2)
  if calls.socket < 0 then failed
  else if calls.bind ≠ 0 then failed
  else if calls.setsockopt < 0 then failed
  else if calls.getfl < 0 then failed
  else if calls.setfl < 0 then failed
  else (calls.socket, p)

/-- The first two lines of `Start`. -/
def listen (p : Process) (registration lookup : ListenCalls) : Process :=
  let r := p.beginListening registration
  let p := { r.2 with server := { r.2.server with registrationListener := r.1 } }
  let l := p.beginListening lookup
  { l.2 with server := { l.2.server with lookupListener := l.1 } }

/-! ## The loop -/

/-- What a pass of the loop meets: what a receive on each descriptor finds, at
the first call of `HandleRequests` and at the second, what an update's `socket`
returns, and whether a signal comes in. -/
structure Round where
  lookups : Int → Socket
  registrations : Int → Socket
  updateSocket : Int
  interrupted : Bool

/-- What a pass did: the descriptors it received from, what it sent, and the
process, unless an assertion ended it. -/
structure Pass where
  received : List Int
  sent : List Sent
  process : Option Process

/-- The body of the loop. -/
def pass (p : Process) (r : Round) : Pass :=
  let srv := p.server
  let l := srv.handleRequests srv.lookupListener true
    (r.lookups srv.lookupListener) (-1)
  if l.ok then
    let g := l.server.handleRequests l.server.registrationListener false
      (r.registrations l.server.registrationListener) r.updateSocket
    let p := { p with server := g.server, exitFlag := p.exitFlag || r.interrupted }
    { received := [srv.lookupListener, l.server.registrationListener]
      sent := l.sent ++ g.sent
      process := if g.ok then some p else none }
  else { received := [srv.lookupListener], sent := l.sent, process := none }

inductive Outcome where
  | running
  | aborted
  | returned (result : Bool)
deriving DecidableEq

/-- How far `Start` has come, and what it received from and sent on the way. -/
structure Served where
  outcome : Outcome
  received : List Int
  sent : List Sent

/-- `while (Signal::ShouldContinue())` after a pass, and what `next` does where
it is true. -/
def Pass.andThen (s : Pass) (next : Process → Served) : Served :=
  match s.process with
  | none => ⟨.aborted, s.received, s.sent⟩
  | some p =>
      if p.shouldContinue then
        let t := next p
        ⟨t.outcome, s.received ++ t.received, s.sent ++ t.sent⟩
      else ⟨.returned true, s.received, s.sent⟩

/-- The `do`-`while` loop, on a first pass and those that may follow it. -/
def loop (p : Process) (r : Round) : List Round → Served
  | [] => (p.pass r).andThen fun _ => ⟨.running, [], []⟩
  | next :: rounds => (p.pass r).andThen fun p => p.loop next rounds

def start (p : Process) (registration lookup : ListenCalls) (first : Round)
    (rounds : List Round) : Served :=
  (p.listen registration lookup).restartProgram.loop first rounds

end Process

end SimpleRendezvousServer

end PermanentIP

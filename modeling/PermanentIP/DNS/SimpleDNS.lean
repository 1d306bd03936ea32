import PermanentIP.Lib.AssocMap
import PermanentIP.Common.Signal
import PermanentIP.Common.Utils
import PermanentIP.Common.Socket
import PermanentIP.RendezvousServer.Start

/-!
# The name server (`DNS/SimpleDNS.cc`)

A map from names to the addresses of the rendezvous servers they are kept at,
and a loop that answers one request after the other. `LookupName` counts before
it indexes, so a name that is not there is not inserted; a request is looked up
twice, for the log and for the reply, and the reply is the whole buffer it came
in. `request_src` is not initialised in the source; it is read only after a
receive that filled it in.

`Start` puts two names in, opens its listener and serves. Unlike the rendezvous
server's it asserts that the listener is open. While it runs another thread may
call `ShutDown`, as the tests do, and a signal may come in: `Outside` is what
those do to it, and a pass of the loop meets some of it before its receive and
some after. The signal handlers' installation and the sleep are left out. This is the
server as long as every line it logs comes out; with the calls of `Log` it is in
`RequestLog`.
-/

namespace PermanentIP

open Lib

open SimpleRendezvousServer (ListenCalls)

open SimpleRendezvousServer.Process (Outcome)

structure SimpleDNS where
  registeredNames : UnorderedMap LogicalAddress PhysicalAddress
  listener : Int

namespace SimpleDNS

/-- The constructor; the listener is what `BeginListening` opens. -/
def new (listener : Int) : SimpleDNS := ⟨∅, listener⟩

def addName (dns : SimpleDNS) (name : LogicalAddress) (address : PhysicalAddress) :
    SimpleDNS :=
  { dns with registeredNames := dns.registeredNames.insert name address }

/-- `LookupName`, and the server its `operator[]` leaves. -/
def lookupName (dns : SimpleDNS) (name : LogicalAddress) :
    PhysicalAddress × SimpleDNS :=
  if name ∈ dns.registeredNames then
    (UnorderedMap.get dns.registeredNames name,
      { dns with registeredNames := UnorderedMap.touch dns.registeredNames name })
  else ([], dns)

/-- What `HandleRequests` did: its result (false only through `ShutDown`), what
it sent, and the server and the socket it left. -/
structure Handled where
  ok : Bool
  sent : List Sent
  dns : SimpleDNS
  socket : Socket

/-- `HandleRequests`, where a receive on the listener finds `socket`. -/
def handleRequests (dns : SimpleDNS) (socket : Socket) : Handled :=
  let r := recvfrom socket false bufferSize .zero sizeofSockAddr
  let buffer := store r.data zeroed
  if 0 < r.bytesRead then
    let logged := dns.lookupName (cstr buffer)
    let found := logged.2.lookupName (cstr buffer)
    let buffer := store (snprintf bufferSize (cstr found.1) ++ [0]) buffer
    { ok := true
      sent := sendto dns.listener buffer r.addr
      dns := found.2
      socket := r.socket }
  else
    { ok := !(r.bytesRead < 0 && r.errno != .again)
      sent := []
      dns := dns
      socket := r.socket }

/-- One datagram, as one pass of `Start`'s loop finds it. -/
def receive (dns : SimpleDNS) (p : Packet) : Handled :=
  dns.handleRequests ⟨[p], none⟩

/-! ## The life of the server -/

/-- The server, the receive queue of its listener and whether that has been
closed, and its file's exit flag. -/
structure Process where
  dns : SimpleDNS
  queue : List Packet
  closed : Bool
  signal : Signal

namespace Process

def shutDown (p : Process) : Bool × Process :=
  (false, { p with closed := true, signal := p.signal.exitProgram })

def beginListening (p : Process) (calls : ListenCalls) : Bool × Process :=
  let p := { p with
    dns := { p.dns with listener := calls.socket }
    queue := []
    closed := false }
  if calls.socket < 0 then p.shutDown
  else if calls.bind ≠ 0 then p.shutDown
  else if calls.setsockopt < 0 then p.shutDown
  else if calls.getfl < 0 then p.shutDown
  else if calls.setfl < 0 then p.shutDown
  else (true, p)

/-- What comes from outside the loop: the `close` of a `ShutDown` in another
thread, and the `ExitProgram` that follows it or that a signal calls. -/
inductive Outside where
  | close
  | exit
deriving DecidableEq

def outside (p : Process) : Outside → Process
  | .close => { p with closed := true }
  | .exit => { p with signal := p.signal.exitProgram }

/-- What a pass of the loop meets: the datagrams that have come since the last
one, an error its receive may report, and what happens outside, before
`HandleRequests` and after it. -/
structure Round where
  arrived : List Packet
  error : Option Nat
  early : List Outside
  late : List Outside

/-- What the receive of a pass finds; on a descriptor that has been closed it
fails with `EBADF`. -/
def found (p : Process) (r : Round) : Socket :=
  if p.closed then ⟨[], some (.other 9)⟩
  else ⟨p.queue ++ r.arrived, r.error.map .other⟩

/-- The body of the loop: what it sent, and the process, unless the assertion
ended it. -/
def pass (p : Process) (r : Round) : List Sent × Option Process :=
  let p := r.early.foldl outside p
  let h := p.dns.handleRequests (p.found r)
  let p := r.late.foldl outside { p with dns := h.dns, queue := h.socket.queue }
  (h.sent, if h.ok then some p else none)

/-- How far `Start` has come, and what it sent on the way. -/
structure Served where
  outcome : Outcome
  sent : List Sent
deriving DecidableEq

/-- `while (Signal::ShouldContinue())` after a pass, and what `next` does where
it is true. -/
def andThen (pass : List Sent × Option Process) (next : Process → Served) :
    Served :=
  match pass.2 with
  | none => ⟨.aborted, pass.1⟩
  | some p =>
      if p.signal.shouldContinue then
        ⟨(next p).outcome, pass.1 ++ (next p).sent⟩
      else ⟨.returned true, pass.1⟩

/-- The `do`-`while` loop, on a first pass and those that may follow it. -/
def loop (p : Process) (r : Round) : List Round → Served
  | [] => andThen (p.pass r) fun _ => ⟨.running, []⟩
  | next :: rounds => andThen (p.pass r) fun p => p.loop next rounds

/-- The names `Start` knows. -/
def demoNames : List (LogicalAddress × PhysicalAddress) :=
  [(ascii "python", ascii "128.36.232.37"), (ascii "tick", ascii "128.36.232.37")]

def start (p : Process) (calls : ListenCalls) (first : Round)
    (rounds : List Round) : Served :=
  let dns := demoNames.foldl (fun dns n => dns.addName n.1 n.2) p.dns
  let opened := { p with dns := dns }.beginListening calls
  if opened.1 then
    { opened.2 with signal := opened.2.signal.restartProgram }.loop first rounds
  else ⟨.aborted, []⟩

end Process

end SimpleDNS

end PermanentIP

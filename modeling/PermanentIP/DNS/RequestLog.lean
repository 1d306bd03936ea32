import PermanentIP.Common.Log
import PermanentIP.DNS.SimpleDNS

/-!
# The name server and its log

A request is looked up twice, once for the log and once for the answer, and the log
comes first: the name somebody asks for, the address it has, and who asks. A call of
`Log` that does not return ends the server where it is, with the answer not sent.
`handleRequests` and `Process.start` are what the two functions do as long as that
does not happen; here they are with the lines they write once the listener is open.
What comes before that is the same every time.
-/

namespace PermanentIP

open Lib

open SimpleRendezvousServer (ListenCalls)

open SimpleRendezvousServer.Process (Outcome)

namespace SimpleDNS

def requestLogFormat : Bytes := ascii "Sending DNS lookup of <%s, %s> to (%d:%d)"

def shutDownLog (stderr : FilePtr) (format : Bytes) :
    Lib.Outcome Sent Failure Unit :=
  logShutDown stderr (ascii "Shutting Down DNS Server (") format (pure ())

/-- `HandleRequests`: its result, the server and the listener it leaves -/
def handleRequestsWithLog (dns : SimpleDNS) (stderr : FilePtr) (socket : Socket) :
    Lib.Outcome Sent Failure (Bool × SimpleDNS × Socket) :=
  let r := recvfrom socket false bufferSize .zero sizeofSockAddr
  let buffer := store r.data zeroed
  if 0 < r.bytesRead then do
    let logged := dns.lookupName (cstr buffer)
    log stderr .success requestLogFormat
      [.str buffer, .str logged.1, .int r.addr.sinAddr.toInt32,
        .int (Int32.ofNat (htons r.addr.sinPort).toNat)]
    let found := logged.2.lookupName (cstr buffer)
    let buffer := store (snprintf bufferSize (cstr found.1) ++ [0]) buffer
    .put (sendto dns.listener buffer r.addr)
    return (true, found.2, r.socket)
  else if r.bytesRead < 0 && r.errno != .again then do
    shutDownLog stderr (ascii "Error listening on socket")
    return (false, dns, r.socket)
  else return (true, dns, r.socket)

/-- `HandleRequests` on one request -/
def receiveWithLog (dns : SimpleDNS) (stderr : FilePtr) (p : Packet) :
    Lib.Outcome Sent Failure SimpleDNS := do
  let handled ← dns.handleRequestsWithLog stderr ⟨[p], none⟩
  return handled.2.1

namespace Process

/-- The body of the loop -/
def passWithLog (p : Process) (stderr : FilePtr) (r : Round) :
    Lib.Outcome Sent Failure (Option Process) := do
  let p := r.early.foldl outside p
  let handled ← p.dns.handleRequestsWithLog stderr (p.found r)
  let p := r.late.foldl outside { p with
    dns := handled.2.1, queue := handled.2.2.queue }
  return if handled.1 then some p else none

/-- The loop, with the assertion on each pass -/
def loopWithLog (p : Process) (stderr : FilePtr) (r : Round) :
    List Round → Lib.Outcome Sent Failure Outcome
  | [] => do
      let passed ← p.passWithLog stderr r
      .andThen passed (·.signal.shouldContinue) .aborted (.returned true) fun _ =>
        pure .running
  | next :: rounds => do
      let passed ← p.passWithLog stderr r
      .andThen passed (·.signal.shouldContinue) .aborted (.returned true) fun p =>
        p.loopWithLog stderr next rounds

def startWithLog (p : Process) (stderr : FilePtr) (calls : ListenCalls) (first : Round)
    (rounds : List Round) : Lib.Outcome Sent Failure Outcome :=
  let dns := demoNames.foldl (fun dns n => dns.addName n.1 n.2) p.dns
  let opened := { p with dns := dns }.beginListening calls
  if opened.1 then
    { opened.2 with signal := opened.2.signal.restartProgram }.loopWithLog stderr first
      rounds
  else pure .aborted

end Process

end SimpleDNS

end PermanentIP

import PermanentIP.Common.Log
import PermanentIP.RendezvousServer.Start

/-!
# The rendezvous server and its log

A datagram with something in it is logged on `stderr` before it is answered: a
lookup with the two names it is about, a registration with the name it brings.
The names are the sender's. `UpdateAddress` logs each of its updates before it
goes out, with the subscriber's name as well: that is of an earlier sender.

A call of `Log` that does not return ends the server where it is. `handleRequests`,
`updateAddress` and `Process.start` are what the functions do as long as that does
not happen; `handleRequestsWithLog`, `updateAddressWithLog` and
`Process.startWithLog` are the functions with the calls of `Log` where they are. What
`BeginListening` logs is the same every time.
-/

namespace PermanentIP

open Lib

namespace SimpleRendezvousServer

/-- `source_address` and `ntohs(request_src.sin_port)`, as `int`s -/
def sourceArgs (src : SockAddr) : List Arg :=
  [.int src.sinAddr.toInt32, .int (Int32.ofNat (htons src.sinPort).toNat)]

def lookupLogFormat : Bytes := ascii "Sending RS lookup of <%s, %s> to (%d:%d)"

def registrationLogFormat : Bytes :=
  ascii "Updating RS registration of <%s> from (%d:%d)"

/-- `subscriber` and `peer`, for this request -/
def lookupNames (srv : SimpleRendezvousServer) (p : Packet) :
    LogicalAddress × PhysicalAddress :=
  let subscriber := (parseLookup p.text).1
  let subscribee := (parseLookup p.text).2
  (subscriber, (srv.changeSubscription ⟨subscriber, p.src.sinPort⟩ subscribee).1)

/-- The call of `Log` in `HandleRequests`, for a datagram with something in it -/
def logRequest (srv : SimpleRendezvousServer) (stderr : FilePtr) (lookup : Bool)
    (p : Packet) : Except Failure (Bool × Written) :=
  if lookup then
    let names := srv.lookupNames p
    logFiledes (some stderr) .success lookupLogFormat
      (.str names.1 :: .str names.2 :: sourceArgs p.src)
  else
    logFiledes (some stderr) .warning registrationLogFormat
      (.str p.text :: sourceArgs p.src)

def updateLogFormat : Bytes := ascii "Sending update of %s<%s> to %s(%s:%d)"

/-- `name`, `address`, `i->first`, `registered_names_[i->first]` and
`ntohs(i->second)` -/
def updateArgs (names : UnorderedMap LogicalAddress PhysicalAddress)
    (name : LogicalAddress) (address : PhysicalAddress) (i : Subscriber) : List Arg :=
  [.str name, .str address, .str i.name, .str (UnorderedMap.get names i.name),
    .int (Int32.ofNat (htons i.port).toNat)]

/-- The loop of `UpdateAddress` -/
def pushUpdatesWithLog (stderr : FilePtr) (updateSocket : Int) (name : LogicalAddress)
    (address : PhysicalAddress) :
    List Subscriber → UnorderedMap LogicalAddress PhysicalAddress →
    Outcome Sent Failure (UnorderedMap LogicalAddress PhysicalAddress)
  | [], names => pure names
  | i :: rest, names => do
      let subscriber := pushAddr names i
      let names := UnorderedMap.touch names i.name
      log stderr .warning updateLogFormat (updateArgs names name address i)
      .put (sendto updateSocket (address ++ [0]) subscriber)
      pushUpdatesWithLog stderr updateSocket name address rest names

/-- `UpdateAddress` -/
def updateAddressWithLog (srv : SimpleRendezvousServer) (stderr : FilePtr)
    (updateSocket : Int) (name : LogicalAddress) (address : PhysicalAddress) :
    Outcome Sent Failure SimpleRendezvousServer := do
  let names ← pushUpdatesWithLog stderr updateSocket name address
    (srv.subscribers name).elems (srv.registeredNames.insert name address)
  return { srv with
    registeredNames := names
    subscriptions := UnorderedMap.touch srv.subscriptions name }

def shutDownLog (stderr : FilePtr) (format : Bytes) : Outcome Sent Failure Unit :=
  logShutDown stderr (ascii "Shutting Down Rendezvous Server (") format (pure ())

/-- `HandleRequests`: its result, the server and the listener it leaves -/
def handleRequestsWithLog (srv : SimpleRendezvousServer) (stderr : FilePtr)
    (listeningSocket : Int) (lookup : Bool) (listener : Socket) (updateSocket : Int) :
    Outcome Sent Failure (Bool × SimpleRendezvousServer × Socket) :=
  let r := recvfrom listener false bufferSize .zero sizeofSockAddr
  let buffer := store r.data zeroed
  if 0 < r.bytesRead then
    if lookup then do
      let request := cstr buffer
      let subscriber := (parseLookup request).1
      let subscribee := (parseLookup request).2
      let c := srv.changeSubscription ⟨subscriber, r.addr.sinPort⟩ subscribee
      log stderr .success lookupLogFormat
        (.str subscriber :: .str c.1 :: sourceArgs r.addr)
      .put (sendto listeningSocket (store (snprintf bufferSize c.1 ++ [0]) buffer) r.addr)
      return (true, c.2, r.socket)
    else do
      log stderr .warning registrationLogFormat (.str (cstr buffer) :: sourceArgs r.addr)
      let srv ← srv.updateAddressWithLog stderr updateSocket (cstr buffer)
        (intToIPString r.addr.sinAddr.toInt32)
      let switcher := cstr buffer
      let reply := switcher ++ ascii " " ++ percentD r.addr.sinAddr.toInt32
      .put (sendto listeningSocket (store (snprintf bufferSize reply ++ [0]) buffer) r.addr)
      return (true, srv, r.socket)
  else if r.bytesRead < 0 && r.errno != .again then do
    shutDownLog stderr (ascii "Error listening on socket")
    return (false, srv, r.socket)
  else return (true, srv, r.socket)

/-- `HandleRequests` on one datagram -/
def receiveWithLog (srv : SimpleRendezvousServer) (stderr : FilePtr) (e : Event) :
    Outcome Sent Failure SimpleRendezvousServer := do
  let handled ←
    match e with
    | .lookup packet =>
        srv.handleRequestsWithLog stderr srv.lookupListener true ⟨[packet], none⟩ (-1)
    | .registration packet updateSocket =>
        srv.handleRequestsWithLog stderr srv.registrationListener false ⟨[packet], none⟩
          updateSocket
  return handled.2.1

/-- A server that handles one datagram after the other until `Log` ends it -/
def runWithLog (srv : SimpleRendezvousServer) (stderr : FilePtr) (es : List Event) :
    Outcome Sent Failure SimpleRendezvousServer :=
  Outcome.foldl (receiveWithLog · stderr) srv es

namespace Process

/-- The body of the loop -/
def passWithLog (p : Process) (stderr : FilePtr) (r : Round) :
    Lib.Outcome Sent Failure (Option Process) := do
  let srv := p.server
  let l ← srv.handleRequestsWithLog stderr srv.lookupListener true
    (r.lookups srv.lookupListener) (-1)
  if l.1 then do
    let g ← l.2.1.handleRequestsWithLog stderr l.2.1.registrationListener false
      (r.registrations l.2.1.registrationListener) r.updateSocket
    return if g.1 then
      some { p with server := g.2.1, exitFlag := p.exitFlag || r.interrupted }
    else none
  else return none

/-- The loop, with the assertions on each pass -/
def loopWithLog (p : Process) (stderr : FilePtr) (r : Round) :
    List Round → Lib.Outcome Sent Failure Outcome
  | [] => do
      let passed ← p.passWithLog stderr r
      .andThen passed shouldContinue .aborted (.returned true) fun _ => pure .running
  | next :: rounds => do
      let passed ← p.passWithLog stderr r
      .andThen passed shouldContinue .aborted (.returned true) fun p =>
        p.loopWithLog stderr next rounds

def startWithLog (p : Process) (stderr : FilePtr) (registration lookup : ListenCalls)
    (first : Round) (rounds : List Round) : Lib.Outcome Sent Failure Outcome :=
  (p.listen registration lookup).restartProgram.loopWithLog stderr first rounds

end Process

end SimpleRendezvousServer

end PermanentIP

import PermanentIP.Applications.EchoApp
import PermanentIP.Common.Signal
import PermanentIP.MobileNode.ConnectToServer

/-!
# The application's life (`EchoApp::Start`, `EchoApp::ShutDown`)

A process with two threads. The application's connects to its peer and then
receives, sends its heartbeat and looks at the exit flag, over and over; the
daemon's is the loop of `SimpleMobileNode::Start`. The flag is `static` in a
header, so each thread looks at the one of its own source file: `signal` is that
of `EchoApp.cc`, which the signal handlers and `EchoApp::ShutDown` set, and
`daemonSignal` that of `SimpleMobileNode.cc`, which `SimpleMobileNode::ShutDown`
sets. `EchoApp::ShutDown` calls that too.

A step is the return of one call of one of the two threads, or something from
outside: a signal's `ExitProgram`, or one of the three things a `ShutDown` in
another thread does. What a call finds in a receive queue, what the servers
answered and what the device's address is are inputs of the step. A registration
and the two requests of `RegisterPeer` wait for their answer as long as it takes,
so where none comes their step is never taken, and the thread stays where it is.
`RegisterPeer` is two steps, the first of which puts its second request on the app
socket.

A descriptor that has been closed is not used again by another socket. `Start`
looks at no result of `PrintReceivedData` and `SendMessage`, and installs the
handlers only when it has connected; before that a signal ends the process, as a
line that `Log` does not survive does at any time. The sleeps are left out.
-/

namespace PermanentIP

open Lib SimpleMobileNode

namespace EchoApp

/-- Where the application is in `Start`: before the socket calls of
`ConnectToPeer`; before a `RegisterPeer`; in one, with the name server's answer;
at the three lines of the loop. -/
inductive Thread where
  | opening
  | connecting (backoff : Nat)
  | waiting (backoff : Nat) (rsAddr : PhysicalAddress)
  | receiving
  | sending
  | checking
  | returned (result : Bool)
deriving DecidableEq

/-- Where the daemon is in its `Start`: before its first registration; at the
loop's compare; in `UpdateRendezvousServer`; in `PollSubscriptions`, with the
sockets it has still to poll and its local `server`; at the flag. -/
inductive Daemon where
  | registering
  | comparing
  | updating
  | polling (rest : List (Sigma fun _ : Int => Ptr)) (server : SockAddr)
  | checking
  | ended
deriving DecidableEq

structure Process where
  app : EchoApp
  signal : Signal
  daemonSignal : Signal
  closed : Bool
  thread : Thread
  daemon : Daemon
  wire : List Sent

namespace Process

/-- The process when `CreateMobileNodeDelegate` has started the daemon. -/
def start (app : EchoApp) (ip : Int32) : Process where
  app := app.createMobileNodeDelegate ip
  signal := ⟨false⟩
  daemonSignal := ⟨false⟩
  closed := false
  thread := .opening
  daemon := .registering
  wire := []

def node (p : Process) : SimpleMobileNode := p.app.mobileNode

/-- `EchoApp::ShutDown`, the daemon's in it -/
def shutDown (p : Process) : Process :=
  { p with
    closed := true
    daemonSignal := p.daemonSignal.exitProgram
    signal := p.signal.exitProgram }

/-- What a receive on `fd` finds, if `socket` is what is there for it. -/
def found (p : Process) (fd : Int) (socket : Socket) : Socket :=
  if p.closed ∧ fd = p.app.appSocket then ⟨[], some (.other 9)⟩ else socket

/-- The second request of `RegisterPeer`, if the first found a server and no call
before it failed. -/
def asking (p : Process) (rsAddr : PhysicalAddress) (asked : Bool) : List Sent :=
  if rsAddr = [] ∨ asked = false ∨ p.closed then []
  else sendto p.app.appSocket
    (lookupRequest p.node.logicalAddress p.app.peerAddr)
    (serverIn rsAddr globLookupPort)

/-- `PollSubscriptions` at its first socket -/
def pollAll (p : Process) : Daemon := .polling p.node.appSockets.entries .zero

/-- One round of `PollSubscriptions` -/
def pollOne (p : Process) (serverSize : Int → Int32) (socket : Socket)
    (fd : Int) (ptr : Ptr) (server : SockAddr) : PollState :=
  pollSocket serverSize
    { node := p.node
      sockets := fun _ => p.found fd socket
      server := server
      sent := []
      shutDown := false } fd ptr

inductive Action where
  | openSocket (calls : SocketSetUp)
  | ask (rsAddr : PhysicalAddress) (asked : Bool)
  | register (rsAddr peerLoc : PhysicalAddress)
  | print (socket : Socket)
  | send
  | check
  | daemonRegister
  | compare (ip : Int32)
  | update
  | poll (serverSize : Int → Int32) (socket : Socket)
  | store (ip : Int32)
  | daemonCheck
  | close
  | stopDaemon
  | exit

def step (p : Process) : Action → Option Process
  | .openSocket calls =>
      if p.thread = .opening then
        let p := { p with
          app := { p.app with appSocket := calls.socket }, closed := false }
        if calls.ok then some { p with thread := .connecting 1 }
        else some { p.shutDown with thread := .returned false }
      else none
  | .ask rsAddr asked =>
      match p.thread with
      | .connecting backoff =>
          some { p with
            wire := p.wire ++ p.asking rsAddr asked
            thread := .waiting backoff rsAddr }
      | .opening | .waiting .. | .receiving | .sending | .checking | .returned _ =>
          none
  | .register rsAddr peerLoc =>
      match p.thread with
      | .waiting backoff addr =>
          if rsAddr = addr then
            let p := { p with app := p.app.registerPeer rsAddr peerLoc }
            if p.app.peerInfo = none then
              if backoff > maxAttempts then
                some { p.shutDown with thread := .returned false }
              else some { p with thread := .connecting (backoff + 1) }
            else some { p with
              app := p.app.fillPeerContainer, thread := .receiving }
          else none
      | .opening | .connecting _ | .receiving | .sending | .checking
      | .returned _ => none
  | .print socket =>
      if p.thread = .receiving then
        let r := p.app.printReceivedData (p.found p.app.appSocket socket)
        let p := { p with
          app := r.app, wire := p.wire ++ r.sent, thread := .sending }
        if r.ok then some p else some p.shutDown
      else none
  | .send =>
      if p.thread = .sending then
        let r := p.app.sendMessage p.app.keyword none
        some { p with
          app := r.2.2
          wire := if p.closed then p.wire else p.wire ++ r.2.1
          thread := .checking }
      else none
  | .check =>
      if p.thread = .checking then
        some { p with thread :=
          if p.signal.shouldContinue then .receiving else .returned true }
      else none
  | .daemonRegister =>
      match p.daemon with
      | .registering => some { p with daemon := .comparing }
      | .comparing | .updating | .polling .. | .checking | .ended => none
  | .compare ip =>
      match p.daemon with
      | .comparing =>
          some { p with daemon := if p.node.hasMoved ip then .updating else p.pollAll }
      | .registering | .updating | .polling .. | .checking | .ended => none
  | .update =>
      match p.daemon with
      | .updating => some { p with daemon := p.pollAll }
      | .registering | .comparing | .polling .. | .checking | .ended => none
  | .poll serverSize socket =>
      match p.daemon with
      | .polling (e :: rest) server =>
          let r := p.pollOne serverSize socket e.1 e.2 server
          some { p with
            app := { p.app with mobileNode := r.node }
            daemonSignal :=
              if r.shutDown then p.daemonSignal.exitProgram else p.daemonSignal
            daemon := .polling rest r.server
            wire := p.wire ++ r.sent }
      | .polling [] _ | .registering | .comparing | .updating | .checking
      | .ended => none
  | .store ip =>
      match p.daemon with
      | .polling [] _ =>
          some { p with
            app := { p.app with mobileNode := p.node.storeIpAddress ip }
            daemon := .checking }
      | .polling (_ :: _) _ | .registering | .comparing | .updating | .checking
      | .ended => none
  | .daemonCheck =>
      match p.daemon with
      | .checking =>
          some { p with daemon :=
            if p.daemonSignal.shouldContinue then .comparing else .ended }
      | .registering | .comparing | .updating | .polling .. | .ended => none
  | .close => some { p with closed := true }
  | .stopDaemon => some { p with daemonSignal := p.daemonSignal.exitProgram }
  | .exit => some { p with signal := p.signal.exitProgram }

end Process

end EchoApp

end PermanentIP

import PermanentIP.MobileNode.SimpleMobileNode

/-!
# The echo application (`Applications/EchoApp.cc`)

An application owns its mobile node and shares two things with it: the app
socket, which both receive on, and the peer's `sockaddr`, which
`PollSubscriptions` rewrites and `SendMessage` sends to. `SendMessage` is two
steps here, the `sendto` (`transmit`) and the `MessageSent` call after it, since
the daemon can run between them.

These are the functions as long as every line they log comes out; in `MessageLog`
they are with the calls of `Log` that may not return. A `ShutDown` is the result
`false`. `request_src` is not initialised in the source; it is read only after a
receive that filled it in.
-/

namespace PermanentIP

open Lib

structure EchoApp where
  keyword : NetworkMsg
  received : Bool
  logicalAddress : LogicalAddress
  peerAddr : LogicalAddress
  peerPort : UInt16
  peerInfo : Option Ptr
  appSocket : Int
  appPort : UInt16
  dnsServer : PhysicalAddress
  rendezvousServer : PhysicalAddress
  mobileNode : SimpleMobileNode

namespace EchoApp

def createMobileNodeDelegate (app : EchoApp) (ip : Int32) : EchoApp :=
  { app with
    mobileNode := .new app.logicalAddress app.dnsServer app.rendezvousServer ip }

/-! ## Connecting -/

/-- What the system calls that set the app socket up returned. -/
structure SocketSetUp where
  socket : Int
  bind : Int
  setsockopt : Int
  getfl : Int
  setfl : Int

/-- None of them is one `ConnectToPeer` shuts down on. -/
def SocketSetUp.ok (calls : SocketSetUp) : Bool :=
  0 ≤ calls.socket && calls.bind == 0 && 0 ≤ calls.setsockopt &&
    0 ≤ calls.getfl && 0 ≤ calls.setfl

/-- `peer_info_ = mobile_node_->RegisterPeer(app_socket_, peer_addr_)`, once
the DNS has answered `rsAddr` and the rendezvous server `peerLoc` -/
def registerPeer (app : EchoApp) (rsAddr peerLoc : PhysicalAddress) : EchoApp :=
  let r := app.mobileNode.registerPeer app.appSocket rsAddr peerLoc
  { app with peerInfo := r.1, mobileNode := r.2 }

/-- The domain and the port go into the peer's `sockaddr`. -/
def fillPeerContainer (app : EchoApp) : EchoApp :=
  match app.peerInfo with
  | none => app
  | some ptr =>
      let node := app.mobileNode
      let container := { node.deref ptr with
        sinFamily := netV4, sinPort := htons app.peerPort }
      { app with mobileNode := { node with heap := node.heap.set ptr container } }

/-- The retry loop of `ConnectToPeer` on what its calls of `RegisterPeer` are
answered, as long as the answers last: the result and the application. -/
def retryLoop (app : EchoApp) (backoff : Nat) :
    List (PhysicalAddress × PhysicalAddress) → Option (Bool × EchoApp)
  | [] => none
  | (rsAddr, peerLoc) :: answers =>
      let app := app.registerPeer rsAddr peerLoc
      if app.peerInfo = none then
        if backoff > maxAttempts then some (false, app)
        else retryLoop app (backoff + 1) answers
      else some (true, app.fillPeerContainer)

def connectToPeer (app : EchoApp) (calls : SocketSetUp)
    (answers : List (PhysicalAddress × PhysicalAddress)) :
    Option (Bool × EchoApp) :=
  let app := { app with appSocket := calls.socket }
  if calls.ok then app.retryLoop 1 answers else some (false, app)

/-! ## Sending -/

/-- `peer_info == NULL ? peer_info_ : peer_info`, and what is there -/
def destination (app : EchoApp) (peerInfo : Option SockAddr) : Option SockAddr :=
  match peerInfo with
  | some addr => some addr
  | none => app.peerInfo.map app.mobileNode.deref

/-- `SendMessage` up to and with its `sendto`, `none` where it returns before
that. -/
def transmit (app : EchoApp) (message : NetworkMsg)
    (peerInfo : Option SockAddr) : Option (List Sent × EchoApp) :=
  if message = app.keyword ∧ !app.received then none
  else
    some
      (match app.destination peerInfo with
        | some addr => sendto app.appSocket (message ++ [0]) addr
        | none => [],
      { app with
        received := if message = app.keyword then false else app.received })

def messageSent (app : EchoApp) (message : NetworkMsg) : EchoApp :=
  { app with mobileNode := app.mobileNode.messageSent app.appSocket message }

def messageReceived (app : EchoApp) (message : NetworkMsg) : EchoApp :=
  { app with
    mobileNode := app.mobileNode.messageReceived app.appSocket message }

/-- `SendMessage`: its result, what it sent, and the application. -/
def sendMessage (app : EchoApp) (message : NetworkMsg)
    (peerInfo : Option SockAddr) : Bool × List Sent × EchoApp :=
  match app.transmit message peerInfo with
  | none => (false, [], app)
  | some (sent, app) => (true, sent, app.messageSent message)

/-! ## Receiving -/

/-- The test on what a peek brought: a datagram with something in it that is
not from the rendezvous server's address. -/
def isRequest (app : EchoApp) (peek : Received) : Bool :=
  0 < peek.bytesRead &&
    peek.addr.sinAddr != (ipStringToInt app.rendezvousServer).toUInt32

/-- What `PrintReceivedData` does with a message it has received: another's is
echoed to where it came from, its own means the next heartbeat may go. -/
def handleMessage (app : EchoApp) (message : NetworkMsg) (src : SockAddr) :
    List Sent × EchoApp :=
  let app := app.messageReceived message
  if message ≠ app.keyword then
    let s := app.sendMessage message (some src)
    (s.2.1, s.2.2.messageReceived message)
  else ([], { app with received := true })

/-- What `PrintReceivedData` returned and sent, and what it left. -/
structure Printed where
  ok : Bool
  sent : List Sent
  app : EchoApp
  socket : Socket

/-- `PrintReceivedData`, on the app socket -/
def printReceivedData (app : EchoApp) (socket : Socket) : Printed :=
  let peek := recvfrom socket true bufferSize .zero sizeofSockAddr
  let buffer := store peek.data zeroed
  if app.isRequest peek then
    let take := recvfrom peek.socket false bufferSize peek.addr peek.addrLen
    let buffer := store take.data buffer
    let h := app.handleMessage (cstr buffer) take.addr
    { ok := true, sent := h.1, app := h.2, socket := take.socket }
  else
    { ok := !(peek.bytesRead < 0 && peek.errno != .again)
      sent := []
      app := app
      socket := peek.socket }

/-- A node A with a peer B and a rendezvous server at 1.2.3.4, before it has
connected. -/
def sample : EchoApp where
  keyword := ascii "hi"
  received := true
  logicalAddress := ascii "A"
  peerAddr := ascii "B"
  peerPort := 9
  peerInfo := none
  appSocket := 3
  appPort := 9
  dnsServer := ascii "1.2.3.9"
  rendezvousServer := ascii "1.2.3.4"
  mobileNode := .new (ascii "A") (ascii "1.2.3.9") (ascii "1.2.3.4") 1

end EchoApp

end PermanentIP

import PermanentIP.Lib.AssocMap
import PermanentIP.Common.Utils
import PermanentIP.Common.Socket

/-!
# The mobile node daemon (`MobileNode/SimpleMobileNode.cc`)

The daemon shares memory with the application it serves. `RegisterPeer`
allocates a `sockaddr` for a peer's location, keeps the pointer under the
application's socket and returns it; `PollSubscriptions` writes new locations
through it. A pointer is therefore an index into `heap`, and two pointers can
be told apart.

`PollSubscriptions` runs over the sockets in the order of the map and carries
one source address, `server`, from round to round. Each round declares its own
`server_size` and does not set it, so the model takes the values the rounds
find there, one for each socket, as an argument.

The two requests of `RegisterPeer` before their replies are in are not part of these
functions: `registerPeer` takes what its two calls of `ConnectToServer` returned. Nor
is what the daemon logs: these are its functions as long as every line comes out, and
in `SubscriptionLog` they are with the calls of `Log` that may not return.
-/

namespace PermanentIP

open Lib

/-- A `struct sockaddr*` into the node's heap. -/
abbrev Ptr := Nat

structure SimpleMobileNode where
  logicalAddress : LogicalAddress
  lastKnownIpAddress : Int32
  dnsServer : PhysicalAddress
  rendezvousServer : PhysicalAddress
  appSockets : UnorderedMap Int Ptr
  appSocketMessages : UnorderedMap Int (OrdSet NetworkMsg)
  heap : List SockAddr

namespace SimpleMobileNode

/-- The constructor, on a device whose address is `ip`. -/
def new (logicalAddress : LogicalAddress) (dnsServer rendezvousServer : PhysicalAddress)
    (ip : Int32) : SimpleMobileNode where
  logicalAddress := logicalAddress
  lastKnownIpAddress := ip
  dnsServer := dnsServer
  rendezvousServer := rendezvousServer
  appSockets := ∅
  appSocketMessages := ∅
  heap := []

def deref (node : SimpleMobileNode) (ptr : Ptr) : SockAddr :=
  node.heap.getD ptr .zero

/-- `ptr->sin_addr.s_addr = addr` -/
def setSinAddr (node : SimpleMobileNode) (ptr : Ptr) (addr : UInt32) :
    SimpleMobileNode :=
  { node with
    heap := node.heap.set ptr { node.deref ptr with sinAddr := addr } }

/-- `app_socket_messages_[appSocket]`, as a set -/
def outstanding (node : SimpleMobileNode) (appSocket : Int) :
    OrdSet NetworkMsg := UnorderedMap.get node.appSocketMessages appSocket

/-- The rendezvous server's address as the socket calls see it. -/
def serverAddr (node : SimpleMobileNode) : UInt32 :=
  (ipStringToInt node.rendezvousServer).toUInt32

/-! ## The loop's two looks at the address

`Start` compares the device's address with the last one it knew, registers if
they differ, and at the end of the iteration looks again and stores what it
sees.
-/

/-- `last_known_ip_address_ != GetCurrentIPAddress()` -/
def hasMoved (node : SimpleMobileNode) (ip : Int32) : Bool :=
  node.lastKnownIpAddress != ip

/-- `last_known_ip_address_ = GetCurrentIPAddress()` -/
def storeIpAddress (node : SimpleMobileNode) (ip : Int32) : SimpleMobileNode :=
  { node with lastKnownIpAddress := ip }

@[simp] theorem logicalAddress_storeIpAddress (node : SimpleMobileNode) (ip : Int32) :
    (node.storeIpAddress ip).logicalAddress = node.logicalAddress := rfl

@[simp] theorem lastKnownIpAddress_storeIpAddress (node : SimpleMobileNode) (ip : Int32) :
    (node.storeIpAddress ip).lastKnownIpAddress = ip := rfl

/-- What `ConnectToServer(rendezvous_server_, rendezvous_port_,
logical_address_)` sends, from the socket it opens for that. -/
def registration (node : SimpleMobileNode) (ip : Int32) (port : UInt16) : Packet :=
  ⟨⟨netV4, port, ip.toUInt32⟩, node.logicalAddress⟩

/-! ## The buffer of outstanding messages -/

def messageSent (node : SimpleMobileNode) (appSocket : Int)
    (message : NetworkMsg) : SimpleMobileNode :=
  let messages := (node.outstanding appSocket).insert message
  { node with
    appSocketMessages := node.appSocketMessages.insert appSocket messages }

/-- `buffer_log` is a copy of the set: what is erased is erased from the copy,
and the copy is gone when the call returns. -/
def messageReceived (node : SimpleMobileNode) (appSocket : Int)
    (message : NetworkMsg) : SimpleMobileNode :=
  let bufferLog := node.outstanding appSocket
  let _bufferLog :=
    if message ∈ bufferLog then bufferLog.erase message else bufferLog
  { node with
    appSocketMessages := UnorderedMap.touch node.appSocketMessages appSocket }

/-! ## Registering a peer -/

/-- `logical_address_ + "|" + peer_addr` -/
def lookupRequest (logicalAddress peerAddr : LogicalAddress) : NetworkMsg :=
  logicalAddress ++ ascii "|" ++ peerAddr

/-- What `ConnectToServer` returns when `reply` is the datagram it receives
into its zeroed buffer. -/
def readReply (reply : Packet) : NetworkMsg :=
  cstr (store (reply.payload.take bufferSize) zeroed)

/-- `RegisterPeer`, once the DNS has answered `rsAddr` and the rendezvous
server `peerLoc`; the pointer, or `none` for `NULL`, and the node. -/
def registerPeer (node : SimpleMobileNode) (appSocket : Int)
    (rsAddr peerLoc : PhysicalAddress) : Option Ptr × SimpleMobileNode :=
  if rsAddr = [] then (none, node)
  else if peerLoc = [] then (none, node)
  else
    let peerIn := { SockAddr.zero with
      sinAddr := (ipStringToInt peerLoc).toUInt32 }
    let ptr := node.heap.length
    (some ptr,
      { node with
        heap := node.heap ++ [peerIn]
        appSockets := node.appSockets.insert appSocket ptr })

/-! ## Polling the subscriptions -/

/-- The test on what a peek brought: a datagram with something in it, from the
rendezvous server's address. -/
def isUpdate (node : SimpleMobileNode) (peek : Received) : Bool :=
  0 < peek.bytesRead && peek.addr.sinAddr == node.serverAddr

/-- The resend loop: every outstanding message, without a NUL, to the peer. -/
def resend (appSocket : Int) (peer : SockAddr) (unsent : OrdSet NetworkMsg) :
    List Sent := unsent.elems.flatMap fun m => sendto appSocket m peer

/-- What `PollSubscriptions` reads and writes: the node, the sockets, the local
`server`, the datagrams sent, and whether `ShutDown` was called. -/
structure PollState where
  node : SimpleMobileNode
  sockets : Int → Socket
  server : SockAddr
  sent : List Sent
  shutDown : Bool

def pollSocket (serverSize : Int → Int32) (st : PollState) (fd : Int)
    (ptr : Ptr) : PollState :=
  let peek := recvfrom (st.sockets fd) true bufferSize st.server (serverSize fd)
  let sockets := Function.update st.sockets fd peek.socket
  let buffer := store peek.data zeroed
  if st.node.isUpdate peek then
    let take := recvfrom peek.socket false bufferSize peek.addr peek.addrLen
    let sockets := Function.update sockets fd take.socket
    let buffer := store take.data buffer
    let node := st.node.setSinAddr ptr (ipStringToInt (cstr buffer)).toUInt32
    let unsent := node.outstanding fd
    { node := { node with
        appSocketMessages := UnorderedMap.touch node.appSocketMessages fd }
      sockets := sockets
      server := take.addr
      sent := st.sent ++ resend fd (node.deref ptr) unsent
      shutDown := st.shutDown }
  else
    { st with
      sockets := sockets
      server := peek.addr
      shutDown := st.shutDown || (peek.bytesRead < 0 && peek.errno != .again) }

def pollSubscriptions (node : SimpleMobileNode) (serverSize : Int → Int32)
    (sockets : Int → Socket) : PollState :=
  node.appSockets.entries.foldl
    (fun st e => pollSocket serverSize st e.1 e.2)
    { node := node
      sockets := sockets
      server := .zero
      sent := []
      shutDown := false }

end SimpleMobileNode

end PermanentIP

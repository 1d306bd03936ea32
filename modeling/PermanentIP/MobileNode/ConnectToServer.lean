import PermanentIP.Common.Descriptors
import PermanentIP.MobileNode.SimpleMobileNode

/-!
# `ConnectToServer`, system call by system call

One request and one reply, over a socket the call opens for itself or one it is
handed. A handed socket is an application's, non-blocking and bound, so the
call switches it to blocking and back; and the receive takes whatever is first
in its queue.

Every system call can fail, and the two transfers have results the code does
not look at. `ConnectCalls` says what each of them is answered, and what is in
the receive queue: what came before the receive, and, if that leaves it
nothing, what comes while it waits. If nothing ever does, the call never
returns. `setsockopt` is left out: it has no effect on any of this, and its
result is ignored.
-/

namespace PermanentIP

open Lib

structure ConnectCalls where
  socket : Bool
  getfl : Bool
  setfl : Bool
  sendto : Bool
  /-- what came to the socket between the call and its receive -/
  early : Socket
  /-- what ended the receive's wait -/
  late : Socket
  restore : Bool

/-- The socket as a blocking receive finds it, and whether it had to wait for
that; `none` if it waits for ever. -/
def ConnectCalls.await (calls : ConnectCalls) (s : Socket) :
    Option (Bool × Socket) :=
  let now : Socket :=
    ⟨s.queue ++ calls.early.queue, s.soError.or calls.early.soError⟩
  if now = ⟨[], none⟩ then
    if calls.late = ⟨[], none⟩ then none else some (true, calls.late)
  else some (false, now)

/-- What `ConnectToServer` returned, `none` if it never did; the descriptors it
left; what it sent; whether its receive had to wait; and the datagram it took
off the queue. -/
structure Connected where
  reply : Option NetworkMsg
  fds : Descriptors
  sent : List Sent
  waited : Bool
  taken : Option Packet

/-- `return ""`, before anything was sent -/
def Connected.failed (fds : Descriptors) : Connected where
  reply := some []
  fds := fds
  sent := []
  waited := false
  taken := none

/-- `server`, as `ConnectToServer` fills it in -/
def serverIn (serverAddr : PhysicalAddress) (serverPort : UInt16) : SockAddr where
  sinFamily := netV4
  sinPort := htons serverPort
  sinAddr := (ipStringToInt serverAddr).toUInt32

/-- `ConnectToServer`, from its first `fcntl` on -/
def exchange (fds : Descriptors) (server : SockAddr) (information : NetworkMsg)
    (sender : Int) (closeSender : Bool) (calls : ConnectCalls) : Connected :=
  match if calls.getfl then fds.getfl sender else none with
  | none => .failed fds
  | some opts =>
      match if calls.setfl then fds.setfl sender (opts &&& ~~~oNonblock)
        else none with
      | none => .failed fds
      | some fds =>
          let sent := if calls.sendto then sendto sender information server else []
          match calls.await (fds.socketAt sender) with
          | none =>
              { reply := none
                fds := fds
                sent := sent
                waited := true
                taken := none }
          | some (waited, s) =>
              let r := recvfrom s false bufferSize server sizeofSockAddr
              let buffer := store r.data zeroed
              let fds := fds.setSocket sender r.socket
              let taken := if r.bytesRead < 0 then none else s.queue.head?
              match if calls.restore then fds.setfl sender opts else none with
              | none =>
                  { reply := some []
                    fds := fds
                    sent := sent
                    waited := waited
                    taken := taken }
              | some fds =>
                  { reply := some (cstr buffer)
                    fds := if closeSender then fds.close sender else fds
                    sent := sent
                    waited := waited
                    taken := taken }

def connectToServer (fds : Descriptors) (serverAddr : PhysicalAddress)
    (serverPort : UInt16) (information : NetworkMsg) (sender : Int)
    (calls : ConnectCalls) : Connected :=
  let server := serverIn serverAddr serverPort
  if sender < 0 then
    let opened := if calls.socket then fds.socket else (-1, fds)
    exchange opened.2 server information opened.1 true calls
  else exchange fds server information sender false calls

/-- What `RegisterPeer` returned and the node it left, `none` if it never
returned, and what its two requests did; the second is not always made. -/
structure PeerRequests where
  result : Option (Option Ptr × SimpleMobileNode)
  dns : Connected
  rs : Option Connected

/-- `RegisterPeer`, with its two calls of `ConnectToServer` -/
def SimpleMobileNode.requestPeer (node : SimpleMobileNode) (fds : Descriptors)
    (appSocket : Int) (peerAddr : LogicalAddress) (dnsCalls rsCalls : ConnectCalls) :
    PeerRequests :=
  let dns :=
    connectToServer fds node.dnsServer globLookupPort peerAddr (-1) dnsCalls
  match dns.reply with
  | none => ⟨none, dns, none⟩
  | some rsAddr =>
      if rsAddr = [] then ⟨some (none, node), dns, none⟩
      else
        let rs := connectToServer dns.fds rsAddr globLookupPort
          (lookupRequest node.logicalAddress peerAddr) appSocket rsCalls
        ⟨rs.reply.map fun peerLoc => node.registerPeer appSocket rsAddr peerLoc,
          dns, some rs⟩

end PermanentIP

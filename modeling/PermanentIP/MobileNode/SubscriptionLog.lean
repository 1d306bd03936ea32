import PermanentIP.Common.Log
import PermanentIP.MobileNode.SimpleMobileNode

/-!
# The mobile node and its log

`PollSubscriptions` logs each update before it writes the peer's address, with the
text that came, and each message before it resends it, with that text as well. The
texts are whatever came to the socket from the rendezvous server's address, the
messages whatever the application sent; a call of `Log` that does not return ends
the process, the application with it.

`pollSocket` and `pollSubscriptions` are what the loop does as long as that does not
happen. Here the calls of `Log` are where they are in the source.
-/

namespace PermanentIP

open Lib

namespace SimpleMobileNode

def updatingLogFormat : Bytes :=
  ascii "Updating socket #%d's struct sockaddr from %d to %s"

def resendingLogFormat : Bytes := ascii "Resending %s to %s"

def shutDownLog (stderr : FilePtr) (format : Bytes) : Outcome Sent Failure Unit :=
  logShutDown stderr (ascii "Shutting Down Mobile Node (") format (pure ())

/-- The resend loop -/
def resendWithLog (stderr : FilePtr) (appSocket : Int) (peer : SockAddr)
    (buffer : Bytes) : List NetworkMsg → Outcome Sent Failure Unit
  | [] => pure ()
  | m :: unsent => do
      log stderr .warning resendingLogFormat [.str m, .str buffer]
      .put (sendto appSocket m peer)
      resendWithLog stderr appSocket peer buffer unsent

def pollSocketWithLog (stderr : FilePtr) (serverSize : Int → Int32) (st : PollState)
    (fd : Int) (ptr : Ptr) : Outcome Sent Failure PollState :=
  let peek := recvfrom (st.sockets fd) true bufferSize st.server (serverSize fd)
  let sockets := Function.update st.sockets fd peek.socket
  let buffer := store peek.data zeroed
  if st.node.isUpdate peek then do
    let take := recvfrom peek.socket false bufferSize peek.addr peek.addrLen
    let sockets := Function.update sockets fd take.socket
    let buffer := store take.data buffer
    log stderr .warning updatingLogFormat
      [.int (Int32.ofInt fd), .int (st.node.deref ptr).sinAddr.toInt32, .str buffer]
    let node := st.node.setSinAddr ptr (ipStringToInt (cstr buffer)).toUInt32
    let unsent := node.outstanding fd
    resendWithLog stderr fd (node.deref ptr) buffer unsent.elems
    return {
      node := { node with
        appSocketMessages := UnorderedMap.touch node.appSocketMessages fd }
      sockets := sockets
      server := take.addr
      sent := st.sent ++ resend fd (node.deref ptr) unsent
      shutDown := st.shutDown }
  else if peek.bytesRead < 0 && peek.errno != .again then do
    shutDownLog stderr (ascii "Error listening on socket")
    return { st with sockets := sockets, server := peek.addr, shutDown := true }
  else return { st with sockets := sockets, server := peek.addr }

def pollSubscriptionsWithLog (node : SimpleMobileNode) (stderr : FilePtr)
    (serverSize : Int → Int32) (sockets : Int → Socket) :
    Outcome Sent Failure PollState :=
  Outcome.foldl (fun st e => pollSocketWithLog stderr serverSize st e.1 e.2)
    { node := node
      sockets := sockets
      server := .zero
      sent := []
      shutDown := false }
    node.appSockets.entries

end SimpleMobileNode

end PermanentIP

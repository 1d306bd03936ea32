import PermanentIP.Applications.EchoApp
import PermanentIP.MobileNode.SubscriptionLog

/-!
# The echo application and its log

`SendMessage` logs the message it has just sent, before the mobile node hears of it,
and `PrintReceivedData` logs a message it has received, unless it is its own, before
it sends it back. Both are read as a format once they are expanded: what anybody
sends decides whether the application comes back from the call.

`sendMessage`, `handleMessage` and `printReceivedData` are the same functions as
long as it does.
-/

namespace PermanentIP

open Lib

namespace EchoApp

def sendingLogFormat : Bytes := ascii "Sending %s to our friend..."

def receivedLogFormat : Bytes := ascii "Received message '%s' from %d:%d"

def buryingLogFormat : Bytes := ascii "Received back our own communication. Burying..."

/-- `ShutDown` shuts the mobile node down before it is through itself. -/
def shutDownLog (stderr : FilePtr) (format : Bytes) : Outcome Sent Failure Unit :=
  logShutDown stderr (ascii "Shutting Down Echo App (") format
    (SimpleMobileNode.shutDownLog stderr format)

def sendMessageWithLog (app : EchoApp) (stderr : FilePtr) (message : NetworkMsg)
    (peerInfo : Option SockAddr) : Outcome Sent Failure (Bool × EchoApp) :=
  match app.transmit message peerInfo with
  | none => pure (false, app)
  | some (sent, app) => do
      .put sent
      log stderr .debug sendingLogFormat [.str message]
      return (true, app.messageSent message)

def handleMessageWithLog (app : EchoApp) (stderr : FilePtr) (message : NetworkMsg)
    (src : SockAddr) : Outcome Sent Failure EchoApp :=
  let app := app.messageReceived message
  if message ≠ app.keyword then do
    log stderr .success receivedLogFormat
      [.str message, .int src.sinAddr.toInt32,
        .int (Int32.ofNat (htons src.sinPort).toNat)]
    let s ← app.sendMessageWithLog stderr message (some src)
    return s.2.messageReceived message
  else do
    log stderr .warning buryingLogFormat []
    return { app with received := true }

/-- `PrintReceivedData`: its result, and the application and the socket it leaves -/
def printReceivedDataWithLog (app : EchoApp) (stderr : FilePtr) (socket : Socket) :
    Outcome Sent Failure (Bool × EchoApp × Socket) :=
  let peek := recvfrom socket true bufferSize .zero sizeofSockAddr
  let buffer := store peek.data zeroed
  if app.isRequest peek then do
    let take := recvfrom peek.socket false bufferSize peek.addr peek.addrLen
    let buffer := store take.data buffer
    let app ← app.handleMessageWithLog stderr (cstr buffer) take.addr
    return (true, app, take.socket)
  else if peek.bytesRead < 0 && peek.errno != .again then do
    shutDownLog stderr (ascii "Error listening on socket")
    return (false, app, peek.socket)
  else return (true, app, peek.socket)

end EchoApp

end PermanentIP

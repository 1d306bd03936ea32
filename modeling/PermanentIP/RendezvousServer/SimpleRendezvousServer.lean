import PermanentIP.Lib.AssocMap
import PermanentIP.Common.Utils
import PermanentIP.Common.Socket

/-!
# The rendezvous server (`RendezvousServer/SimpleRendezvousServer.cc`)

Two maps and the handlers that read and write them. `UpdateAddress` stores an
address and pushes it to every subscriber, `ChangeSubscription` toggles a
subscription and answers with an address, and `HandleRequests` receives one
datagram on a listener, does one of the two, and replies.

The maps are `unordered_map`s, and the model keeps what `operator[]` does to
them: the loop of `UpdateAddress` reads `registered_names_[i->first]` for every
subscriber, and a subscriber that never registered has an entry, with an empty
address, from then on.

`HandleRequests` keeps a `const char*` into the string `ChangeSubscription`
returned. In the reference-counted strings of the compiler the project names
that is the map's own storage, and the model reads it as the string it is.

These are the handlers as long as every line they log comes out. With the calls of
`Log`, which may end the process between any two of their datagrams, they are in
`RequestLog`.
-/

namespace PermanentIP

open Lib

structure SimpleRendezvousServer where
  registeredNames : UnorderedMap LogicalAddress PhysicalAddress
  subscriptions : UnorderedMap LogicalAddress (OrdSet Subscriber)
  registrationListener : Int
  lookupListener : Int

namespace SimpleRendezvousServer

/-- The constructor; the listeners are what `Start` opens. -/
def new (registrationListener lookupListener : Int) : SimpleRendezvousServer where
  registeredNames := ∅
  subscriptions := ∅
  registrationListener := registrationListener
  lookupListener := lookupListener

/-- `subscriptions_[name]`, as a set -/
def subscribers (srv : SimpleRendezvousServer) (name : LogicalAddress) :
    OrdSet Subscriber := UnorderedMap.get srv.subscriptions name

/-! ## The two operations -/

/-- The `sockaddr_in` the loop of `UpdateAddress` fills in for a subscriber. -/
def pushAddr (names : UnorderedMap LogicalAddress PhysicalAddress)
    (i : Subscriber) : SockAddr where
  sinFamily := netV4
  sinPort := i.port
  sinAddr := (ipStringToInt (UnorderedMap.get names i.name)).toUInt32

/-- The loop of `UpdateAddress`: one datagram for each subscriber, and a read
of `registered_names_` that may insert. -/
def pushUpdates (updateSocket : Int) (address : PhysicalAddress) :
    List Subscriber → UnorderedMap LogicalAddress PhysicalAddress →
    List Sent × UnorderedMap LogicalAddress PhysicalAddress
  | [], names => ([], names)
  | i :: rest, names =>
      let r := pushUpdates updateSocket address rest
        (UnorderedMap.touch names i.name)
      (sendto updateSocket (address ++ [0]) (pushAddr names i) ++ r.1, r.2)

/-- `UpdateAddress`: what it sends and the server it leaves; it returns true.
`updateSocket` is what its call of `socket` returned. -/
def updateAddress (srv : SimpleRendezvousServer) (updateSocket : Int)
    (name : LogicalAddress) (address : PhysicalAddress) :
    List Sent × SimpleRendezvousServer :=
  let r := pushUpdates updateSocket address (srv.subscribers name).elems
    (srv.registeredNames.insert name address)
  (r.1, { srv with
    registeredNames := r.2
    subscriptions := UnorderedMap.touch srv.subscriptions name })

def changeSubscription (srv : SimpleRendezvousServer) (subscriber : Subscriber)
    (client : LogicalAddress) : PhysicalAddress × SimpleRendezvousServer :=
  if client ∈ srv.registeredNames then
    let subs := srv.subscribers client
    let subs :=
      if subscriber ∈ subs then subs.erase subscriber
      else subs.insert subscriber
    (UnorderedMap.get srv.registeredNames client,
      { srv with subscriptions := srv.subscriptions.insert client subs })
  else ([], srv)

/-! ## One datagram -/

/-- The separator of `subscriber|subscribee`. -/
def bar : UInt8 := 124

/-- The two `substr`s of a lookup request. -/
def parseLookup (request : NetworkMsg) : LogicalAddress × LogicalAddress :=
  (Str.upTo request (Str.find request bar),
    Str.substr request (Str.next (Str.find request bar)))

/-- What `HandleRequests` did: its result (false only through `ShutDown`), what
it sent, the server and the listener it left. -/
structure Handled where
  ok : Bool
  sent : List Sent
  server : SimpleRendezvousServer
  listener : Socket

/-- `HandleRequests`, on a listener whose descriptor is `listeningSocket`. A
reply is always the whole buffer: the answer, its NUL, and what the request
left behind it. -/
def handleRequests (srv : SimpleRendezvousServer) (listeningSocket : Int)
    (lookup : Bool) (listener : Socket) (updateSocket : Int) : Handled :=
  let r := recvfrom listener false bufferSize .zero sizeofSockAddr
  let buffer := store r.data zeroed
  if 0 < r.bytesRead then
    if lookup then
      let request := cstr buffer
      let subscriber := (parseLookup request).1
      let subscribee := (parseLookup request).2
      let c := srv.changeSubscription ⟨subscriber, r.addr.sinPort⟩ subscribee
      let buffer := store (snprintf bufferSize c.1 ++ [0]) buffer
      { ok := true
        sent := sendto listeningSocket buffer r.addr
        server := c.2
        listener := r.socket }
    else
      let u := srv.updateAddress updateSocket (cstr buffer)
        (intToIPString r.addr.sinAddr.toInt32)
      let switcher := cstr buffer
      let reply := switcher ++ ascii " " ++ percentD r.addr.sinAddr.toInt32
      let buffer := store (snprintf bufferSize reply ++ [0]) buffer
      { ok := true
        sent := u.1 ++ sendto listeningSocket buffer r.addr
        server := u.2
        listener := r.socket }
  else
    { ok := !(r.bytesRead < 0 && r.errno != .again)
      sent := []
      server := srv
      listener := r.socket }

/-- A datagram as one round of `Start`'s loop finds it: on the lookup port, or
on the registration port with what `socket` will return if it is asked. -/
inductive Event where
  | lookup (packet : Packet)
  | registration (packet : Packet) (updateSocket : Int)
deriving DecidableEq

def receive (srv : SimpleRendezvousServer) : Event → Handled
  | .lookup packet =>
      srv.handleRequests srv.lookupListener true ⟨[packet], none⟩ (-1)
  | .registration packet updateSocket =>
      srv.handleRequests srv.registrationListener false ⟨[packet], none⟩
        updateSocket

def next (srv : SimpleRendezvousServer) (e : Event) : SimpleRendezvousServer :=
  (srv.receive e).server

def run (srv : SimpleRendezvousServer) (es : List Event) :
    SimpleRendezvousServer := es.foldl next srv

/-! ## The calls a datagram makes -/

inductive Call where
  | updateAddress (updateSocket : Int) (name : LogicalAddress)
      (address : PhysicalAddress)
  | changeSubscription (subscriber : Subscriber) (client : LogicalAddress)
deriving DecidableEq

def call (srv : SimpleRendezvousServer) : Call → SimpleRendezvousServer
  | .updateAddress sock name address => (srv.updateAddress sock name address).2
  | .changeSubscription s client => (srv.changeSubscription s client).2

/-- What a lookup datagram asks for; an empty one asks for nothing. -/
def Event.lookup? : Event → Option (Subscriber × LogicalAddress)
  | .lookup p =>
      if p.payload = [] then none
      else some (⟨(parseLookup p.text).1, p.src.sinPort⟩, (parseLookup p.text).2)
  | .registration .. => none

/-- The name a registration datagram registers, and where it came from. -/
def Event.registers? : Event → Option (LogicalAddress × UInt32)
  | .lookup _ => none
  | .registration p _ =>
      if p.payload = [] then none else some (p.text, p.src.sinAddr)

def Event.call? : Event → Option Call
  | .lookup p =>
      (Event.lookup p).lookup?.map fun r => .changeSubscription r.1 r.2
  | .registration p sock =>
      (Event.registration p sock).registers?.map fun r =>
        .updateAddress sock r.1 (intToIPString r.2.toInt32)

end SimpleRendezvousServer

end PermanentIP

import PermanentIP.Lib.Run
import PermanentIP.MobileNode.ConnectToServer
import PermanentIP.Proofs.NameService
import PermanentIP.Proofs.SubscriberStream

/-!
# Finding peers, many at a time

`RegisterPeer` asks the name server which rendezvous server to ask, and asks
that one for the peer. Here any number of applications do so at the same time,
each for a peer of its own and again where it is refused, against one name
server that is given names and one rendezvous server that handles other nodes'
registrations and lookups in between. The network may lose datagrams and
deliver them in any order, and carries the pushes that a subscribed application
gets before it has read the reply to its lookup.

The first request of a call goes out from a socket of its own, which nothing
else uses; the second from the application's, where anybody's datagrams may come as
well. No system call fails, and what is logged is left out.
-/

namespace PermanentIP

open Lib SimpleMobileNode SimpleRendezvousServer

namespace Resolution

/-- Who there is: each application's node, its peer, and the address and the
descriptor of its socket. The devices have addresses and names of their own. -/
structure Config (ι : Type*) where
  name : ι → LogicalAddress
  peer : ι → LogicalAddress
  addr : ι → SockAddr
  appSocket : ι → Int
  dnsAddr : SockAddr
  serverAddr : SockAddr
  nulFree : ∀ c, NulFree (name c)
  noBar : ∀ c, bar ∉ name c
  peerNulFree : ∀ c, NulFree (peer c)
  short : ∀ c, (name c).length + 1 + (peer c).length < bufferSize
  addr_ne_zero : ∀ c, (addr c).sinAddr ≠ 0
  name_of_ip : ∀ c d, (addr c).sinAddr = (addr d).sinAddr → name c = name d
  distinct : ∀ c d, name c = name d → (addr c).sinPort = (addr d).sinPort → c = d

/-- Where a call of `RegisterPeer` is: not made yet, in its first
`ConnectToServer`, in its second, returned. -/
inductive Phase where
  | idle
  | dns
  | server (rsAddr : PhysicalAddress)
  | returned (result : Option Ptr)
deriving DecidableEq

/-- An application's node and its call, and what is under way for it: to the
name server and back, on the socket of the first request; to the rendezvous
server, and to its own socket. `dnsSince` and `since` are how much either server
had handled when the call was made. -/
structure Client where
  node : SimpleMobileNode
  phase : Phase
  dnsSince : Nat
  since : Nat
  query : List Packet
  address : List Packet
  request : List Packet
  inbox : List Packet

/-- The servers, with all they have handled, and the applications. -/
structure State (ι : Type*) where
  dns : SimpleDNS
  dnsLog : List SimpleDNS.Event
  server : SimpleRendezvousServer
  log : List Event
  client : ι → Client

def State.init {ι : Type*} (dl rl ll : Int) (node : ι → SimpleMobileNode) : State ι where
  dns := .new dl
  dnsLog := []
  server := .new rl ll
  log := []
  client c := ⟨node c, .idle, 0, 0, [], [], [], []⟩

/-- The four ways of a datagram. -/
inductive Wire where
  | query
  | address
  | request
  | inbox
deriving DecidableEq

def Client.lose (cl : Client) (i : Nat) : Wire → Client
  | .query => { cl with query := cl.query.eraseIdx i }
  | .address => { cl with address := cl.address.eraseIdx i }
  | .request => { cl with request := cl.request.eraseIdx i }
  | .inbox => { cl with inbox := cl.inbox.eraseIdx i }

inductive Action (ι : Type*) where
  | call (c : ι) (port : UInt16)
  | resolve (c : ι) (i : Nat)
  | readAddress (c : ι) (i : Nat)
  | serve (c : ι) (i : Nat)
  | readLocation (c : ι) (i : Nat)
  | lose (c : ι) (w : Wire) (i : Nat)
  | addName (name : LogicalAddress) (address : PhysicalAddress)
  | foreign (e : Event)
  | outside (c : ι) (packet : Packet)

variable {ι : Type*}

/-- What some of the server's datagrams bring to an application's socket. -/
def Config.delivered (cfg : Config ι) (c : ι) (sent : List Sent) : List Packet :=
  (sent.filter (·.dst = cfg.addr c)).map fun d => ⟨cfg.serverAddr, d.payload⟩

/-- The second request of a call, if it goes to the rendezvous server there
is. -/
def Config.asks (cfg : Config ι) (c : ι) (rsAddr : PhysicalAddress) : List Packet :=
  if serverIn rsAddr globLookupPort = cfg.serverAddr then
    [⟨cfg.addr c, lookupRequest (cfg.name c) (cfg.peer c)⟩]
  else []

/-- A datagram the server handles, and what it brings to the applications. -/
def State.handle (cfg : Config ι) (s : State ι) (e : Event) : State ι :=
  { s with
    server := s.server.next e
    log := s.log ++ [e]
    client := fun c => { s.client c with
      inbox := (s.client c).inbox ++ cfg.delivered c (s.server.receive e).sent } }

section Step

variable [DecidableEq ι]

def State.set (s : State ι) (c : ι) (cl : Client) : State ι :=
  { s with client := Function.update s.client c cl }

def step (cfg : Config ι) (s : State ι) : Action ι → Option (State ι)
  | .call c port =>
      let cl := s.client c
      let called := s.set c { cl with
        phase := .dns
        dnsSince := s.dnsLog.length
        since := s.log.length
        query := cl.query ++ [⟨⟨netV4, port, (cfg.addr c).sinAddr⟩, cfg.peer c⟩] }
      match cl.phase with
      | .idle | .returned none => some called
      | .dns | .server _ | .returned (some _) => none
  | .resolve c i =>
      let cl := s.client c
      match cl.query[i]? with
      | some p =>
          let h := s.dns.receive p
          some { s.set c { cl with
            query := cl.query.eraseIdx i
            address := cl.address ++ h.sent.map fun d => ⟨cfg.dnsAddr, d.payload⟩ } with
            dns := h.dns
            dnsLog := s.dnsLog ++ [.request p] }
      | none => none
  | .readAddress c i =>
      let cl := s.client c
      match cl.phase, cl.address[i]? with
      | .dns, some q =>
          let rsAddr := readReply q
          if rsAddr = [] then
            some (s.set c { cl with
              phase := .returned none
              address := cl.address.eraseIdx i })
          else
            some (s.set c { cl with
              phase := .server rsAddr
              address := cl.address.eraseIdx i
              request := cl.request ++ cfg.asks c rsAddr })
      | .dns, none | .idle, _ | .server _, _ | .returned _, _ => none
  | .serve c i =>
      let cl := s.client c
      match cl.request[i]? with
      | some p =>
          some ((s.set c { cl with request := cl.request.eraseIdx i }).handle cfg
            (.lookup p))
      | none => none
  | .readLocation c i =>
      let cl := s.client c
      match cl.phase, cl.inbox[i]? with
      | .server rsAddr, some q =>
          let r := cl.node.registerPeer (cfg.appSocket c) rsAddr (readReply q)
          some (s.set c { cl with
            node := r.2
            phase := .returned r.1
            inbox := cl.inbox.eraseIdx i })
      | .server _, none | .idle, _ | .dns, _ | .returned _, _ => none
  | .lose c w i => some (s.set c ((s.client c).lose i w))
  | .addName name address =>
      some { s with
        dns := s.dns.addName name address
        dnsLog := s.dnsLog ++ [.addName name address] }
  | .foreign e => some (s.handle cfg e)
  | .outside c packet =>
      some (s.set c { s.client c with inbox := (s.client c).inbox ++ [packet] })

end Step

/-! ## What is assumed of the others -/

/-- Whom an application's lookups subscribe. -/
def Config.subscriber (cfg : Config ι) (c : ι) : Subscriber :=
  ⟨cfg.name c, (cfg.addr c).sinPort⟩

/-- A datagram of somebody else: not from an application's socket, no lookup in
an application's name, and no registration of another name from its device. -/
structure Foreign (cfg : Config ι) (e : Event) : Prop where
  src : ∀ c, e.packet.src ≠ cfg.addr c
  lookup : ∀ c r, e.lookup? = some r → r.1 ≠ cfg.subscriber c
  registers : ∀ c n, e.registers? = some (n, (cfg.addr c).sinAddr) → n = cfg.name c

/-- A call has returned its peer's location, so no other will be made. -/
def Phase.settled : Phase → Bool
  | .returned (some _) => true
  | .idle | .dns | .server _ | .returned none => false

/-- The others are others, and send nothing to an application before its call has
returned a location; and no application is answered with the empty address of a
key. -/
def Expected (cfg : Config ι) (s : State ι) : Action ι → Prop
  | .serve c _ => cfg.peer c ∈ s.server.registeredNames →
      UnorderedMap.get s.server.registeredNames (cfg.peer c) ≠ []
  | .foreign e => Foreign cfg e
  | .outside c _ => (s.client c).phase.settled = true
  | .call .. | .resolve .. | .readAddress .. | .readLocation .. | .lose .. |
    .addName .. => True

/-- An application A whose peer is B, with the rendezvous server at 1.2.3.4. -/
def sample : Config Unit where
  name _ := ascii "A"
  peer _ := ascii "B"
  addr _ := ⟨netV4, 9, 0x01000001⟩
  appSocket _ := 3
  dnsAddr := ⟨netV4, htons globLookupPort, 0x02000001⟩
  serverAddr := serverIn (ascii "1.2.3.4") globLookupPort
  nulFree _ := by decide
  noBar _ := by decide
  peerNulFree _ := by decide
  short _ := by decide
  addr_ne_zero _ := by decide
  name_of_ip _ _ _ := rfl
  distinct _ _ _ _ := rfl

theorem foreign_sample_iff (e : Event) :
    Foreign sample e ↔ e.packet.src ≠ sample.addr () ∧
      (∀ r ∈ e.lookup?, r.1 ≠ sample.subscriber ()) ∧
      ∀ r ∈ e.registers?, r.2 = (sample.addr ()).sinAddr → r.1 = sample.name () := by
  constructor
  · rintro ⟨hsrc, hlookup, hregisters⟩
    refine ⟨hsrc (), fun r hr => hlookup () r hr, fun r hr hip => ?_⟩
    exact hregisters () r.1 (hip ▸ hr)
  · rintro ⟨hsrc, hlookup, hregisters⟩
    exact ⟨fun _ => hsrc, fun _ r hr => hlookup r hr, fun _ n hn => hregisters _ hn rfl⟩

instance (e : Event) : Decidable (Foreign sample e) :=
  decidable_of_iff _ (foreign_sample_iff e).symm

instance (s : State Unit) (a : Action Unit) : Decidable (Expected sample s a) := by
  cases a <;> unfold Expected <;> infer_instance

/-- B registers, and A finds it; then B says something. -/
def finds : List (Action Unit) :=
  [.addName (ascii "B") (ascii "1.2.3.4"),
    .foreign (.registration ⟨⟨netV4, 5, 0x07000001⟩, ascii "B"⟩ 6),
    .call () 8, .resolve () 0, .readAddress () 0, .serve () 0, .readLocation () 0,
    .outside () ⟨⟨netV4, 5, 0x07000001⟩, ascii "yo"⟩]

end Resolution

end PermanentIP

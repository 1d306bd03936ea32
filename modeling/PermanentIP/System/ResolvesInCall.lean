import PermanentIP.Proofs.NodeCalls
import PermanentIP.System.Resolution

/-!
# Each call is atomic

The address a call of `RegisterPeer` returns is the one the peer had at the
server at some moment between its call and its return, whichever datagram it was
read from, and a refusal is right for such a moment too (`resolves_in_call`). A
successful call leaves the application subscribed.

`PhaseInv` says what can be under way to and from an application in each phase
of a call. The key to it is that an application that is not subscribed has one
datagram under way at most: no pushes, and of its lookup and the reply only one.
-/

namespace PermanentIP

open Lib SimpleMobileNode SimpleRendezvousServer

namespace Resolution

variable {ι : Type*}

/-! ## The invariant -/

/-- What the name server that has handled `es` answers for a name. -/
def dnsAnswer (es : List SimpleDNS.Event) (name : LogicalAddress) : PhysicalAddress :=
  (cstr ((lastWrite SimpleDNS.Event.added? name es).getD [])).take (bufferSize - 1)

def Subscribed (cfg : Config ι) (server : SimpleRendezvousServer) (c : ι) : Prop :=
  cfg.subscriber c ∈ server.subscribers (cfg.peer c)

/-- Where the peer was when the server had handled `k` datagrams. -/
def Config.location (cfg : Config ι) (log : List Event) (c : ι) (k : Nat) :
    Option UInt32 := lastRegistration (cfg.peer c) (log.take k)

/-- A datagram to the application tells where the peer was at some moment since
the call, and whether the application is subscribed. -/
def Locates (cfg : Config ι) (log : List Event) (subscribed : Prop) (c : ι)
    (cl : Client) (q : Packet) : Prop :=
  ∃ k, cl.since ≤ k ∧ k ≤ log.length ∧
    readReply q = addressText (cfg.location log c k) ∧
    (subscribed ↔ (cfg.location log c k).isSome)

def Answers (cfg : Config ι) (dnsLog : List SimpleDNS.Event) (c : ι) (cl : Client)
    (rsAddr : PhysicalAddress) : Prop :=
  ∃ k, cl.dnsSince ≤ k ∧ k ≤ dnsLog.length ∧
    rsAddr = dnsAnswer (dnsLog.take k) (cfg.peer c)

/-- Where a successful call says the peer is, it was at some moment since the
call. -/
def Found (cfg : Config ι) (log : List Event) (c : ι) (cl : Client) (ptr : Ptr) :
    Prop :=
  ∃ k, cl.since ≤ k ∧ k ≤ log.length ∧
    cfg.location log c k = some (cl.node.deref ptr).sinAddr

/-- A call that was refused: the name server had no address for the peer at some
moment since the call, or the rendezvous server had none. -/
def Refused (cfg : Config ι) (dnsLog : List SimpleDNS.Event) (log : List Event)
    (c : ι) (cl : Client) : Prop :=
  Answers cfg dnsLog c cl [] ∨
    ∃ k, cl.since ≤ k ∧ k ≤ log.length ∧ cfg.location log c k = none

/-- Nothing is under way. -/
structure Silent (cl : Client) : Prop where
  query : cl.query = []
  address : cl.address = []
  request : cl.request = []
  inbox : cl.inbox = []

/-- What can be under way in each phase of a call, and what the call has found
out when it has returned. -/
def PhaseInv (cfg : Config ι) (dnsLog : List SimpleDNS.Event) (log : List Event)
    (subscribed : Prop) (c : ι) (cl : Client) : Prop :=
  match cl.phase with
  | .idle => ¬ subscribed ∧ Silent cl
  | .dns => ¬ subscribed ∧ cl.request = [] ∧ cl.inbox = [] ∧
      cl.query.length + cl.address.length ≤ 1 ∧
      (∀ p ∈ cl.query, p.payload = cfg.peer c) ∧
      ∀ q ∈ cl.address, Answers cfg dnsLog c cl (readReply q)
  | .server rsAddr => rsAddr ≠ [] ∧ cl.query = [] ∧ cl.address = [] ∧
      (subscribed → cl.request = []) ∧
      (¬ subscribed → cl.request.length + cl.inbox.length ≤ 1) ∧
      (∀ p ∈ cl.request,
        p = ⟨cfg.addr c, lookupRequest (cfg.name c) (cfg.peer c)⟩) ∧
      ∀ q ∈ cl.inbox, Locates cfg log subscribed c cl q
  | .returned none => ¬ subscribed ∧ Silent cl ∧ Refused cfg dnsLog log c cl
  | .returned (some ptr) => subscribed ∧ cl.query = [] ∧ cl.address = [] ∧
      cl.request = [] ∧ Found cfg log c cl ptr

structure ClientInv (cfg : Config ι) (s : State ι) (c : ι) : Prop where
  dnsSince : (s.client c).dnsSince ≤ s.dnsLog.length
  since : (s.client c).since ≤ s.log.length
  only : ∀ n, cfg.subscriber c ∈ s.server.subscribers n → n = cfg.peer c
  phase : PhaseInv cfg s.dnsLog s.log (Subscribed cfg s.server c) c (s.client c)

structure Inv (cfg : Config ι) (dl rl ll : Int) (s : State ι) : Prop where
  dns : s.dns = (SimpleDNS.new dl).run s.dnsLog
  server : s.server = (SimpleRendezvousServer.new rl ll).run s.log
  names : ∀ c n, lastRegistration n s.log = some (cfg.addr c).sinAddr →
    n = cfg.name c
  client : ∀ c, ClientInv cfg s c

variable {cfg : Config ι} {s u : State ι} {a : Action ι} {acts : List (Action ι)}
  {c d : ι} {cl : Client} {e : Event} {log : List Event}
  {dnsLog : List SimpleDNS.Event} {dl rl ll : Int} {q p : Packet} {i k : Nat}
  {subscribed : Prop} {srv : SimpleRendezvousServer}

/-! ## What a datagram at the server brings to an application -/

theorem readReply_eq_text (q : Packet) : readReply q = q.text := by
  rw [readReply, cstr_store_zeroed, Packet.text]

theorem readReply_push (src : SockAddr) (a : UInt32) :
    readReply ⟨src, intToIPString a.toInt32 ++ [0]⟩ = addressText (some a) := by
  have hlen : (intToIPString a.toInt32).length < bufferSize :=
    Nat.lt_of_le_of_lt (length_intToIPString_le _) (by decide)
  rw [readReply_eq_text, text_of_terminated (nulFree_intToIPString _) hlen]
  rfl

theorem mem_pushes {x : Sent} (h : x ∈ srv.pushes e) :
    ∃ n a sock, e.registers? = some (n, a) ∧ ∃ i ∈ srv.subscribers n,
      x = ⟨sock, srv.pushDst n (intToIPString a.toInt32) i,
        intToIPString a.toInt32 ++ [0]⟩ := by
  cases e with
  | lookup p =>
      rw [pushes_of_registers_none rfl] at h
      cases h
  | registration p sock =>
      rcases hr : (Event.registration p sock).registers? with _ | ⟨n, a⟩
      · rw [pushes_of_registers_none hr] at h
        cases h
      · have hcall : (Event.registration p sock).call? =
            some (.updateAddress sock n (intToIPString a.toInt32)) := by
          rw [Event.call?, hr]
          rfl
        rw [pushes, hcall] at h
        exact ⟨n, a, sock, rfl, mem_updateAddress_sent h⟩

/-- A push goes to where its subscriber last registered, 0.0.0.0 if it never
did. -/
theorem sinAddr_pushDst (rl ll : Int) (log : List Event) {n : LogicalAddress}
    {a : UInt32} (h : e.registers? = some (n, a)) (i : Subscriber) :
    (((new rl ll).run log).pushDst n (intToIPString a.toInt32) i).sinAddr =
      (lastRegistration i.name (log ++ [e])).getD 0 := by
  rw [pushDst]
  simp only []
  split
  · next heq =>
      subst heq
      rw [lastRegistration, lastWrite_snoc_self h, ipStringToInt_intToIPString]
      rfl
  · next hne =>
      rw [lastRegistration, lastWrite_snoc_ne h hne, get_run,
        ipStringToInt_addressText]
      rfl

/-- What somebody else's datagram brings to an application is a push, and the
application is subscribed to the name that has registered. -/
theorem delivered_cases (hsrc : e.packet.src ≠ cfg.addr c)
    (hnames : ∀ n, lastRegistration n (log ++ [e]) = some (cfg.addr c).sinAddr →
      n = cfg.name c)
    (hq : q ∈ cfg.delivered c (((new rl ll).run log).receive e).sent) :
    ∃ n a, e.registers? = some (n, a) ∧
      cfg.subscriber c ∈ ((new rl ll).run log).subscribers n ∧
      readReply q = addressText (some a) := by
  rw [Config.delivered, List.mem_map] at hq
  obtain ⟨x, hx, rfl⟩ := hq
  rw [List.mem_filter, decide_eq_true_eq] at hx
  obtain ⟨hmem, hdst⟩ := hx
  obtain ⟨reply, hsent, hreply⟩ := receive_sent ((new rl ll).run log) e
  rw [hsent, List.mem_append] at hmem
  rcases hmem with hpush | hback
  · obtain ⟨n, a, sock, hr, i, hi, rfl⟩ := mem_pushes hpush
    have hport : i.port = (cfg.addr c).sinPort := congrArg SockAddr.sinPort hdst
    have haddr := sinAddr_pushDst rl ll log hr i
    have hip : (lastRegistration i.name (log ++ [e])).getD 0 =
        (cfg.addr c).sinAddr := by
      rw [← haddr]
      exact congrArg SockAddr.sinAddr hdst
    have hname : i.name = cfg.name c := by
      rcases hl : lastRegistration i.name (log ++ [e]) with _ | b
      · rw [hl, Option.getD_none] at hip
        exact absurd hip.symm (cfg.addr_ne_zero c)
      · rw [hl, Option.getD_some] at hip
        exact hnames i.name (by rw [hl, hip])
    have hself : i = cfg.subscriber c := by
      rw [Config.subscriber, ← hname, ← hport]
    exact ⟨n, a, hr, hself ▸ hi, readReply_push _ a⟩
  · exact absurd ((hreply x hback).symm.trans hdst) hsrc

/-! ## What the servers' going on leaves true -/

variable {es : List Event} {des : List SimpleDNS.Event}

theorem location_append (hk : k ≤ log.length) :
    cfg.location (log ++ es) c k = cfg.location log c k := by
  rw [Config.location, List.take_append_of_le_length hk, Config.location]

theorem Locates.append (h : Locates cfg log subscribed c cl q) :
    Locates cfg (log ++ es) subscribed c cl q := by
  obtain ⟨k, hsince, hk, hread, hsub⟩ := h
  refine ⟨k, hsince, hk.trans ?_, ?_⟩
  · rw [List.length_append]
    omega
  · rw [location_append hk]
    exact ⟨hread, hsub⟩

theorem Found.append {ptr : Ptr} (h : Found cfg log c cl ptr) :
    Found cfg (log ++ es) c cl ptr := by
  obtain ⟨k, hsince, hk, hloc⟩ := h
  refine ⟨k, hsince, hk.trans ?_, ?_⟩
  · rw [List.length_append]
    omega
  · rw [location_append hk, hloc]

theorem Answers.append {rsAddr : PhysicalAddress} (h : Answers cfg dnsLog c cl rsAddr) :
    Answers cfg (dnsLog ++ des) c cl rsAddr := by
  obtain ⟨k, hsince, hk, hans⟩ := h
  refine ⟨k, hsince, hk.trans ?_, ?_⟩
  · rw [List.length_append]
    omega
  · rw [List.take_append_of_le_length hk, hans]

theorem Refused.append (h : Refused cfg dnsLog log c cl) :
    Refused cfg (dnsLog ++ des) (log ++ es) c cl := by
  rcases h with h | ⟨k, hsince, hk, hloc⟩
  · exact Or.inl h.append
  · refine Or.inr ⟨k, hsince, hk.trans ?_, ?_⟩
    · rw [List.length_append]
      omega
    · rw [location_append hk, hloc]

theorem PhaseInv.append (h : PhaseInv cfg dnsLog log subscribed c cl)
    (des : List SimpleDNS.Event) (es : List Event) :
    PhaseInv cfg (dnsLog ++ des) (log ++ es) subscribed c cl := by
  rw [PhaseInv] at h ⊢
  split at h
  · exact h
  · obtain ⟨hsub, hrequest, hinbox, hone, hquery, haddress⟩ := h
    exact ⟨hsub, hrequest, hinbox, hone, hquery, fun q hq => (haddress q hq).append⟩
  · obtain ⟨hrs, hquery, haddress, hsub, hone, hrequest, hinbox⟩ := h
    exact ⟨hrs, hquery, haddress, hsub, hone, hrequest,
      fun q hq => (hinbox q hq).append⟩
  · exact ⟨h.1, h.2.1, h.2.2.append⟩
  · obtain ⟨hsub, hquery, haddress, hrequest, hfound⟩ := h
    exact ⟨hsub, hquery, haddress, hrequest, hfound.append⟩

/-! ## One step -/

/-- The same call with less under way. -/
structure Thinner (cl' cl : Client) : Prop where
  node : cl'.node = cl.node
  phase : cl'.phase = cl.phase
  dnsSince : cl'.dnsSince = cl.dnsSince
  since : cl'.since = cl.since
  query : cl'.query.Sublist cl.query
  address : cl'.address.Sublist cl.address
  request : cl'.request.Sublist cl.request
  inbox : cl'.inbox.Sublist cl.inbox

theorem thinner_lose (cl : Client) (i : Nat) (w : Wire) : Thinner (cl.lose i w) cl := by
  have hless (l : List Packet) : (l.eraseIdx i).Sublist l := List.eraseIdx_sublist l i
  cases w with
  | query => exact ⟨rfl, rfl, rfl, rfl, hless _, .refl _, .refl _, .refl _⟩
  | address => exact ⟨rfl, rfl, rfl, rfl, .refl _, hless _, .refl _, .refl _⟩
  | request => exact ⟨rfl, rfl, rfl, rfl, .refl _, .refl _, hless _, .refl _⟩
  | inbox => exact ⟨rfl, rfl, rfl, rfl, .refl _, .refl _, .refl _, hless _⟩

theorem Thinner.silent {cl' : Client} (ht : Thinner cl' cl) (h : Silent cl) :
    Silent cl' where
  query := List.sublist_nil.mp (h.query ▸ ht.query)
  address := List.sublist_nil.mp (h.address ▸ ht.address)
  request := List.sublist_nil.mp (h.request ▸ ht.request)
  inbox := List.sublist_nil.mp (h.inbox ▸ ht.inbox)

theorem eq_nil_of_sublist {l l' : List Packet} (h : l'.Sublist l) (hl : l = []) :
    l' = [] := List.sublist_nil.mp (hl ▸ h)

/-- A loss does no harm. -/
theorem PhaseInv.thin {cl' : Client} (h : PhaseInv cfg dnsLog log subscribed c cl)
    (ht : Thinner cl' cl) : PhaseInv cfg dnsLog log subscribed c cl' := by
  have hlength := Nat.add_le_add ht.query.length_le ht.address.length_le
  have hlength' := Nat.add_le_add ht.request.length_le ht.inbox.length_le
  have hanswers {rsAddr : PhysicalAddress} (ha : Answers cfg dnsLog c cl rsAddr) :
      Answers cfg dnsLog c cl' rsAddr := by
    rwa [Answers, ht.dnsSince]
  have hlocates {q : Packet} (hl : Locates cfg log subscribed c cl q) :
      Locates cfg log subscribed c cl' q := by
    rwa [Locates, ht.since]
  rw [PhaseInv] at h ⊢
  rw [ht.phase]
  split at h
  · exact ⟨h.1, ht.silent h.2⟩
  · obtain ⟨hsub, hrequest, hinbox, hone, hquery, haddress⟩ := h
    exact ⟨hsub, eq_nil_of_sublist ht.request hrequest,
      eq_nil_of_sublist ht.inbox hinbox, hlength.trans hone,
      fun p hp => hquery p (ht.query.subset hp),
      fun q hq => hanswers (haddress q (ht.address.subset hq))⟩
  · obtain ⟨hrs, hquery, haddress, hsub, hone, hrequest, hinbox⟩ := h
    exact ⟨hrs, eq_nil_of_sublist ht.query hquery,
      eq_nil_of_sublist ht.address haddress,
      fun hs => eq_nil_of_sublist ht.request (hsub hs),
      fun hs => hlength'.trans (hone hs),
      fun p hp => hrequest p (ht.request.subset hp),
      fun q hq => hlocates (hinbox q (ht.inbox.subset hq))⟩
  · refine ⟨h.1, ht.silent h.2.1, h.2.2.imp hanswers ?_⟩
    rw [ht.since]
    exact id
  · obtain ⟨hsub, hquery, haddress, hrequest, hfound⟩ := h
    refine ⟨hsub, eq_nil_of_sublist ht.query hquery,
      eq_nil_of_sublist ht.address haddress,
      eq_nil_of_sublist ht.request hrequest, ?_⟩
    rwa [Found, ht.since, ht.node]

/-- What comes to an application's socket comes to one that is subscribed. -/
theorem PhaseInv.deliver (h : PhaseInv cfg dnsLog log subscribed c cl)
    {new : List Packet}
    (hnew : ∀ q ∈ new, subscribed ∧ Locates cfg log subscribed c cl q) :
    PhaseInv cfg dnsLog log subscribed c { cl with inbox := cl.inbox ++ new } := by
  have hnone (hsub : ¬ subscribed) : new = [] := by
    cases new with
    | nil => rfl
    | cons q rest => exact absurd (hnew q List.mem_cons_self).1 hsub
  rw [PhaseInv] at h ⊢
  simp only at h ⊢
  split at h
  · obtain ⟨hsub, hsilent⟩ := h
    rw [hnone hsub, List.append_nil]
    exact ⟨hsub, hsilent⟩
  · rw [hnone h.1, List.append_nil]
    exact h
  · obtain ⟨hrs, hquery, haddress, hsub, hone, hrequest, hinbox⟩ := h
    refine ⟨hrs, hquery, haddress, hsub, ?_, hrequest, ?_⟩
    · intro hs
      rw [hnone hs, List.append_nil]
      exact hone hs
    · intro q hq
      rcases List.mem_append.mp hq with hq | hq
      · exact hinbox q hq
      · exact (hnew q hq).2
  · obtain ⟨hsub, hsilent, hrefused⟩ := h
    rw [hnone hsub, List.append_nil]
    exact ⟨hsub, hsilent, hrefused⟩
  · exact h

theorem names_append (hnames : ∀ c n,
      lastRegistration n log = some (cfg.addr c).sinAddr → n = cfg.name c)
    (he : ∀ c n, e.registers? = some (n, (cfg.addr c).sinAddr) → n = cfg.name c)
    (c : ι) (n : LogicalAddress)
    (h : lastRegistration n (log ++ [e]) = some (cfg.addr c).sinAddr) :
    n = cfg.name c := by
  rw [lastRegistration] at h
  rcases hr : e.registers? with _ | ⟨m, a⟩
  · rw [lastWrite_snoc_none hr] at h
    exact hnames c n h
  · rcases eq_or_ne m n with rfl | hne
    · rw [lastWrite_snoc_self hr] at h
      injection h with h
      exact he c m (h ▸ hr)
    · rw [lastWrite_snoc_ne hr hne] at h
      exact hnames c n h

/-- The server handles a datagram that is not the application's. -/
theorem ClientInv.other (h : Inv cfg dl rl ll s) (hsrc : e.packet.src ≠ cfg.addr c)
    (hlookup : ∀ r, e.lookup? = some r → r.1 ≠ cfg.subscriber c)
    (hregisters : ∀ c n, e.registers? = some (n, (cfg.addr c).sinAddr) →
      n = cfg.name c) :
    ClientInv cfg (s.handle cfg e) c := by
  have hc := h.client c
  have hsub (n : LogicalAddress) : cfg.subscriber c ∈ (s.server.next e).subscribers n ↔
      cfg.subscriber c ∈ s.server.subscribers n :=
    mem_subscribers_next fun m hm => hlookup _ hm rfl
  have hlen : (s.log ++ [e]).length = s.log.length + 1 := by simp
  refine ⟨hc.dnsSince, ?_, fun n hn => hc.only n ((hsub n).mp hn), ?_⟩
  · show (s.client c).since ≤ (s.log ++ [e]).length
    have := hc.since
    omega
  · have hphase := hc.phase.append [] [e]
    rw [List.append_nil] at hphase
    have hsame : Subscribed cfg (s.server.next e) c = Subscribed cfg s.server c :=
      propext (hsub _)
    show PhaseInv cfg s.dnsLog (s.log ++ [e]) (Subscribed cfg (s.server.next e) c) c _
    rw [hsame]
    refine hphase.deliver fun q hq => ?_
    rw [h.server] at hq
    obtain ⟨n, a, hr, hmem, hread⟩ := delivered_cases hsrc
      (names_append h.names hregisters c) hq
    rw [← h.server] at hmem
    obtain rfl := hc.only n hmem
    have hloc : cfg.location (s.log ++ [e]) c (s.log.length + 1) = some a := by
      rw [Config.location, ← hlen, List.take_length, lastRegistration,
        lastWrite_snoc_self hr]
    refine ⟨hmem, s.log.length + 1, ?_, Nat.le_of_eq hlen.symm, ?_, ?_⟩
    · have := hc.since
      omega
    · rw [hread, hloc]
    · rw [hloc]
      exact iff_of_true hmem rfl

/-! ## An application's own lookup -/

theorem parse_request (cfg : Config ι) (c : ι) :
    parseLookup (Packet.text ⟨cfg.addr c, lookupRequest (cfg.name c) (cfg.peer c)⟩) =
      (cfg.name c, cfg.peer c) := by
  have hlen := length_lookupRequest (cfg.name c) (cfg.peer c)
  have hshort := cfg.short c
  rw [text_of_lt (nulFree_lookupRequest (cfg.nulFree c) (cfg.peerNulFree c)) (by omega),
    parseLookup_lookupRequest (cfg.noBar c)]

theorem lookup?_request (cfg : Config ι) (c : ι) :
    (Event.lookup ⟨cfg.addr c, lookupRequest (cfg.name c) (cfg.peer c)⟩).lookup? =
      some (cfg.subscriber c, cfg.peer c) := by
  rw [Event.lookup?, if_neg (lookupRequest_ne_nil _ _), parse_request]
  rfl

/-- A request under way is the only datagram of a call in its second phase, and
the application is not subscribed. -/
theorem PhaseInv.of_request (h : PhaseInv cfg dnsLog log subscribed c cl)
    (hi : cl.request[i]? = some p) :
    ∃ rsAddr, cl.phase = .server rsAddr ∧ rsAddr ≠ [] ∧ ¬ subscribed ∧
      cl.query = [] ∧ cl.address = [] ∧ cl.inbox = [] ∧ cl.request.eraseIdx i = [] ∧
      p = ⟨cfg.addr c, lookupRequest (cfg.name c) (cfg.peer c)⟩ := by
  have hmem : p ∈ cl.request := List.mem_of_getElem? hi
  have hne : cl.request ≠ [] := List.ne_nil_of_mem hmem
  rw [PhaseInv] at h
  split at h
  · exact absurd h.2.request hne
  · exact absurd h.2.1 hne
  · next rsAddr hphase =>
      obtain ⟨hrs, hquery, haddress, hsub, hone, hrequest, _⟩ := h
      have hnot : ¬ subscribed := fun hs => hne (hsub hs)
      have hpos := List.length_pos_iff.mpr hne
      have hlen := hone hnot
      obtain ⟨hi', _⟩ := List.getElem?_eq_some_iff.mp hi
      have herase := List.length_eraseIdx_of_lt hi'
      exact ⟨rsAddr, hphase, hrs, hnot, hquery, haddress,
        List.length_eq_zero_iff.mp (by omega), List.length_eq_zero_iff.mp (by omega),
        hrequest p hmem⟩
  · exact absurd h.2.1.request hne
  · exact absurd h.2.2.2.1 hne

/-- What an application reads when it reads the reply to its lookup. -/
theorem delivered_reply (es : List Event)
    (hq : q ∈ cfg.delivered c (((new rl ll).run es).receive
      (.lookup ⟨cfg.addr c, lookupRequest (cfg.name c) (cfg.peer c)⟩)).sent) :
    readReply q = addressText (lastRegistration (cfg.peer c) es) := by
  rw [Config.delivered, List.mem_map] at hq
  obtain ⟨x, hx, rfl⟩ := hq
  have hsent := (List.mem_filter.mp hx).1
  rw [(receive_lookup (lookupRequest_ne_nil _ _)).2, parse_request, get_run,
    sendto] at hsent
  split at hsent
  · cases hsent
  · rw [List.mem_singleton] at hsent
    rw [hsent, readReply_addressText]

theorem length_delivered_lookup_le (cfg : Config ι) (c : ι)
    (srv : SimpleRendezvousServer) (hp : p.payload ≠ []) :
    (cfg.delivered c (srv.receive (.lookup p)).sent).length ≤ 1 := by
  rw [Config.delivered, List.length_map, (receive_lookup hp).2, sendto]
  refine (List.length_filter_le _ _).trans ?_
  split
  · exact Nat.zero_le 1
  · exact Nat.le_refl 1

theorem next_request (srv : SimpleRendezvousServer) (cfg : Config ι) (c : ι) :
    srv.next (.lookup ⟨cfg.addr c, lookupRequest (cfg.name c) (cfg.peer c)⟩) =
      (srv.changeSubscription (cfg.subscriber c) (cfg.peer c)).2 := by
  rw [next_eq_call, Event.call?, lookup?_request]
  rfl

/-- A lookup subscribes an application that was not, if the peer is known. -/
theorem subscribed_next_request (hnot : ¬ Subscribed cfg srv c) :
    Subscribed cfg (srv.next
      (.lookup ⟨cfg.addr c, lookupRequest (cfg.name c) (cfg.peer c)⟩)) c ↔
      cfg.peer c ∈ srv.registeredNames := by
  rw [Subscribed, next_request]
  by_cases hkey : cfg.peer c ∈ srv.registeredNames
  · exact iff_of_true ((mem_changeSubscription_self hkey).mpr hnot) hkey
  · rw [changeSubscription_of_notMem hkey]
    exact iff_of_false hnot hkey

/-- The keys of the registry, where none has the empty address. -/
theorem mem_registeredNames_iff {n : LogicalAddress}
    (hknown : n ∈ ((new rl ll).run log).registeredNames →
      UnorderedMap.get ((new rl ll).run log).registeredNames n ≠ []) :
    n ∈ ((new rl ll).run log).registeredNames ↔ (lastRegistration n log).isSome := by
  rw [get_run, Ne, addressText_eq_nil] at hknown
  rw [Option.isSome_iff_ne_none]
  refine ⟨hknown, fun hsome => ?_⟩
  by_contra hkey
  have hget := get_run rl ll log n
  rw [UnorderedMap.get_of_notMem hkey] at hget
  exact hsome (addressText_eq_nil.mp hget.symm)

theorem PhaseInv.serve (h : Inv cfg dl rl ll s)
    (hi : (s.client c).request[i]? = some p)
    (hknown : cfg.peer c ∈ s.server.registeredNames →
      UnorderedMap.get s.server.registeredNames (cfg.peer c) ≠ []) :
    PhaseInv cfg s.dnsLog (s.log ++ [.lookup p])
      (Subscribed cfg (s.server.next (.lookup p)) c) c { s.client c with
        request := (s.client c).request.eraseIdx i
        inbox := (s.client c).inbox ++
          cfg.delivered c (s.server.receive (.lookup p)).sent } := by
  obtain ⟨rsAddr, hphase, hrs, hnot, hquery, haddress, hinbox, herase, rfl⟩ :=
    (h.client c).phase.of_request hi
  have hone := length_delivered_lookup_le cfg c s.server
    (show Packet.payload ⟨cfg.addr c, lookupRequest (cfg.name c) (cfg.peer c)⟩ ≠ []
      from lookupRequest_ne_nil _ _)
  have hsub := subscribed_next_request hnot
  rw [h.server] at hknown
  have hkey := mem_registeredNames_iff hknown
  rw [← h.server] at hkey
  rw [PhaseInv]
  simp only [hphase, herase, hinbox, List.nil_append]
  refine ⟨hrs, hquery, haddress, fun _ => trivial, ?_, ?_, ?_⟩
  · intro _
    rw [List.length_nil]
    omega
  · intro _ hp
    cases hp
  · intro q hq
    have hloc : cfg.location (s.log ++ [.lookup
        ⟨cfg.addr c, lookupRequest (cfg.name c) (cfg.peer c)⟩]) c s.log.length =
        lastRegistration (cfg.peer c) s.log := by
      rw [location_append (Nat.le_refl _), Config.location, List.take_length]
    refine ⟨s.log.length, (h.client c).since, ?_, ?_, ?_⟩
    · rw [List.length_append]
      omega
    · rw [h.server] at hq
      rw [hloc, delivered_reply s.log hq]
    · rw [hloc, hsub, hkey]

theorem ClientInv.serve [DecidableEq ι] (h : Inv cfg dl rl ll s)
    (hi : (s.client c).request[i]? = some p)
    (hknown : cfg.peer c ∈ s.server.registeredNames →
      UnorderedMap.get s.server.registeredNames (cfg.peer c) ≠ []) :
    ClientInv cfg ((s.set c { s.client c with
      request := (s.client c).request.eraseIdx i }).handle cfg (.lookup p)) c := by
  have hc := h.client c
  have hphase := PhaseInv.serve h hi hknown
  obtain ⟨_, _, _, _, _, _, _, _, rfl⟩ := hc.phase.of_request hi
  have hclient : ((s.set c { s.client c with
      request := (s.client c).request.eraseIdx i }).handle cfg (.lookup
        ⟨cfg.addr c, lookupRequest (cfg.name c) (cfg.peer c)⟩)).client c =
      { s.client c with
        request := (s.client c).request.eraseIdx i
        inbox := (s.client c).inbox ++ cfg.delivered c (s.server.receive (.lookup
          ⟨cfg.addr c, lookupRequest (cfg.name c) (cfg.peer c)⟩)).sent } := by
    simp only [State.handle, State.set, Function.update_self]
  refine ⟨?_, ?_, ?_, ?_⟩
  · rw [hclient]
    exact hc.dnsSince
  · rw [hclient]
    show (s.client c).since ≤ (s.log ++ [_]).length
    rw [List.length_append]
    exact Nat.le_add_right_of_le hc.since
  · intro n hn
    by_contra hne
    refine hne (hc.only n ?_)
    change cfg.subscriber c ∈ (s.server.next _).subscribers n at hn
    rwa [next_request, subscribers_changeSubscription_ne hne] at hn
  · rw [hclient]
    exact hphase

/-! ## The steps of a call -/

theorem PhaseInv.call (h : PhaseInv cfg dnsLog log subscribed c cl)
    (hphase : cl.phase = .idle ∨ cl.phase = .returned none) (port : UInt16) :
    PhaseInv cfg dnsLog log subscribed c { cl with
      phase := .dns
      dnsSince := dnsLog.length
      since := log.length
      query := cl.query ++ [⟨⟨netV4, port, (cfg.addr c).sinAddr⟩, cfg.peer c⟩] } := by
  have hsilent : ¬ subscribed ∧ Silent cl := by
    rw [PhaseInv] at h
    rcases hphase with hphase | hphase
    · simp only [hphase] at h
      exact h
    · simp only [hphase] at h
      exact ⟨h.1, h.2.1⟩
  obtain ⟨hsub, hs⟩ := hsilent
  rw [PhaseInv]
  simp only [hs.query, hs.address, List.nil_append]
  refine ⟨hsub, hs.request, hs.inbox, Nat.le_refl 1, ?_, ?_⟩
  · intro p hp
    rw [List.mem_singleton] at hp
    rw [hp]
  · intro _ hq
    cases hq

theorem text_query (cfg : Config ι) (c : ι) (src : SockAddr) :
    Packet.text ⟨src, cfg.peer c⟩ = cfg.peer c := by
  have hshort := cfg.short c
  exact text_of_lt (cfg.peerNulFree c) (by omega)

/-- What the name server sends back for an application's request. -/
theorem sent_receive_query (dl : Int) (des : List SimpleDNS.Event) (hp : p.payload = cfg.peer c) :
    ((((SimpleDNS.new dl).run des).receive p).sent.map
      fun d => (⟨cfg.dnsAddr, d.payload⟩ : Packet)).length ≤ 1 ∧
    ∀ q ∈ (((SimpleDNS.new dl).run des).receive p).sent.map
      fun d => (⟨cfg.dnsAddr, d.payload⟩ : Packet),
      readReply q = dnsAnswer des (cfg.peer c) := by
  obtain ⟨src, payload⟩ := p
  change payload = cfg.peer c at hp
  subst hp
  rw [SimpleDNS.receive]
  by_cases hempty : cfg.peer c = []
  · rw [SimpleDNS.handleRequests_empty hempty]
    exact ⟨Nat.zero_le 1, fun _ hq => absurd hq List.not_mem_nil⟩
  · rw [SimpleDNS.handleRequests_cons hempty, text_query, UnorderedMap.get,
      SimpleDNS.lookup_run, sendto]
    split
    · exact ⟨Nat.zero_le 1, fun _ hq => absurd hq List.not_mem_nil⟩
    · refine ⟨Nat.le_refl 1, fun q hq => ?_⟩
      rw [List.map_singleton, List.mem_singleton] at hq
      rw [hq, SimpleDNS.readReply_replyBuffer_take (nulFree_cstr _)]
      rfl

/-- A call whose request is at the name server is in its first phase, and has
nothing else under way. -/
theorem PhaseInv.of_query (h : PhaseInv cfg dnsLog log subscribed c cl)
    (hi : cl.query[i]? = some p) :
    cl.phase = .dns ∧ ¬ subscribed ∧ cl.request = [] ∧ cl.inbox = [] ∧
      cl.address = [] ∧ cl.query.eraseIdx i = [] ∧ p.payload = cfg.peer c := by
  have hmem : p ∈ cl.query := List.mem_of_getElem? hi
  have hne : cl.query ≠ [] := List.ne_nil_of_mem hmem
  rw [PhaseInv] at h
  split at h
  · exact absurd h.2.query hne
  · next hphase =>
      obtain ⟨hsub, hrequest, hinbox, hone, hquery, _⟩ := h
      have hpos := List.length_pos_iff.mpr hne
      obtain ⟨hi', _⟩ := List.getElem?_eq_some_iff.mp hi
      have herase := List.length_eraseIdx_of_lt hi'
      exact ⟨hphase, hsub, hrequest, hinbox, List.length_eq_zero_iff.mp (by omega),
        List.length_eq_zero_iff.mp (by omega), hquery p hmem⟩
  · exact absurd h.2.1 hne
  · exact absurd h.2.1.query hne
  · exact absurd h.2.1 hne

theorem PhaseInv.resolve (h : Inv cfg dl rl ll s)
    (hi : (s.client c).query[i]? = some p) :
    PhaseInv cfg (s.dnsLog ++ [.request p]) s.log (Subscribed cfg s.server c) c
      { s.client c with
        query := (s.client c).query.eraseIdx i
        address := (s.client c).address ++
          (s.dns.receive p).sent.map fun d => ⟨cfg.dnsAddr, d.payload⟩ } := by
  obtain ⟨hphase, hsub, hrequest, hinbox, haddress, herase, hpeer⟩ :=
    (h.client c).phase.of_query hi
  rw [h.dns]
  obtain ⟨hone, hread⟩ := sent_receive_query dl s.dnsLog hpeer
  rw [PhaseInv]
  simp only [hphase, herase, haddress, List.nil_append, List.length_nil, Nat.zero_add]
  refine ⟨hsub, hrequest, hinbox, hone, fun _ hp => absurd hp List.not_mem_nil, ?_⟩
  intro q hq
  refine ⟨s.dnsLog.length, (h.client c).dnsSince, ?_, ?_⟩
  · rw [List.length_append]
    omega
  · rw [hread q hq, List.take_append_of_le_length (Nat.le_refl _), List.take_length]

/-- A call that reads the name server's address has nothing else under way. -/
theorem PhaseInv.of_address (h : PhaseInv cfg dnsLog log subscribed c cl)
    (hphase : cl.phase = .dns) (hi : cl.address[i]? = some q) :
    ¬ subscribed ∧ cl.request = [] ∧ cl.inbox = [] ∧ cl.query = [] ∧
      cl.address.eraseIdx i = [] ∧ Answers cfg dnsLog c cl (readReply q) := by
  have hmem : q ∈ cl.address := List.mem_of_getElem? hi
  have hpos := List.length_pos_iff.mpr (List.ne_nil_of_mem hmem)
  obtain ⟨hi', _⟩ := List.getElem?_eq_some_iff.mp hi
  have herase := List.length_eraseIdx_of_lt hi'
  rw [PhaseInv] at h
  simp only [hphase] at h
  obtain ⟨hsub, hrequest, hinbox, hone, _, haddress⟩ := h
  exact ⟨hsub, hrequest, hinbox, List.length_eq_zero_iff.mp (by omega),
    List.length_eq_zero_iff.mp (by omega), haddress q hmem⟩

theorem PhaseInv.refusedByDns (h : PhaseInv cfg dnsLog log subscribed c cl)
    (hphase : cl.phase = .dns) (hi : cl.address[i]? = some q)
    (hempty : readReply q = []) :
    PhaseInv cfg dnsLog log subscribed c { cl with
      phase := .returned none
      address := cl.address.eraseIdx i } := by
  obtain ⟨hsub, hrequest, hinbox, hquery, herase, hanswers⟩ := h.of_address hphase hi
  rw [hempty] at hanswers
  rw [PhaseInv]
  exact ⟨hsub, ⟨hquery, herase, hrequest, hinbox⟩, Or.inl hanswers⟩

theorem PhaseInv.readAddress (h : PhaseInv cfg dnsLog log subscribed c cl)
    (hphase : cl.phase = .dns) (hi : cl.address[i]? = some q)
    (hsome : readReply q ≠ []) :
    PhaseInv cfg dnsLog log subscribed c { cl with
      phase := .server (readReply q)
      address := cl.address.eraseIdx i
      request := cl.request ++ cfg.asks c (readReply q) } := by
  obtain ⟨hsub, hrequest, hinbox, hquery, herase, hanswers⟩ := h.of_address hphase hi
  have hasks : (cfg.asks c (readReply q)).length ≤ 1 := by
    rw [Config.asks]
    split
    · exact Nat.le_refl 1
    · exact Nat.zero_le 1
  rw [PhaseInv]
  simp only [hrequest, hinbox, List.nil_append, List.length_nil, Nat.add_zero]
  refine ⟨hsome, hquery, herase, fun hs => absurd hs hsub, fun _ => hasks, ?_,
    fun _ hq => absurd hq List.not_mem_nil⟩
  intro p hp
  rw [Config.asks] at hp
  split at hp
  · exact List.mem_singleton.mp hp
  · cases hp

/-- A call that reads its location returns it, or is refused. -/
theorem PhaseInv.readLocation (h : PhaseInv cfg dnsLog log subscribed c cl)
    {rsAddr : PhysicalAddress} (hphase : cl.phase = .server rsAddr)
    (hi : cl.inbox[i]? = some q) (fd : Int) :
    PhaseInv cfg dnsLog log subscribed c { cl with
      node := (cl.node.registerPeer fd rsAddr (readReply q)).2
      phase := .returned (cl.node.registerPeer fd rsAddr (readReply q)).1
      inbox := cl.inbox.eraseIdx i } := by
  have hmem : q ∈ cl.inbox := List.mem_of_getElem? hi
  rw [PhaseInv] at h
  simp only [hphase] at h
  obtain ⟨hrs, hquery, haddress, hsub, hone, _, hinbox⟩ := h
  obtain ⟨k, hsince, hk, hread, hiff⟩ := hinbox q hmem
  rcases cl.node.registerPeer_cases fd rsAddr (readReply q) with
    ⟨_, hloc, heq⟩ | ⟨hnil, heq⟩
  · rw [heq, PhaseInv]
    rw [hread, Ne, addressText_eq_nil, ← Ne, ← Option.isSome_iff_ne_none] at hloc
    have hs := hiff.mpr hloc
    obtain ⟨a, ha⟩ := Option.isSome_iff_exists.mp hloc
    refine ⟨hs, hquery, haddress, hsub hs, k, hsince, hk, ?_⟩
    rw [ha, hread, ha, ipStringToInt_addressText]
    simp [deref]
  · have hempty := hnil.resolve_left hrs
    rw [hread, addressText_eq_nil] at hempty
    have hnot : ¬ subscribed := by
      rw [hiff, hempty]
      exact Bool.false_ne_true
    have hpos := List.length_pos_iff.mpr (List.ne_nil_of_mem hmem)
    obtain ⟨hi', _⟩ := List.getElem?_eq_some_iff.mp hi
    have herase := List.length_eraseIdx_of_lt hi'
    have hlen := hone hnot
    have hrequest : cl.request = [] := List.length_eq_zero_iff.mp (by omega)
    have hleft : cl.inbox.eraseIdx i = [] := List.length_eq_zero_iff.mp (by omega)
    rw [heq, PhaseInv]
    exact ⟨hnot, ⟨hquery, haddress, hrequest, hleft⟩,
      Or.inr ⟨k, hsince, hk, hempty⟩⟩

/-! ## Every step keeps the invariant -/

/-- The server's handling of a datagram, seen from the servers' side. -/
theorem Inv.handle (h : Inv cfg dl rl ll s) {v : State ι} (hdns : v.dns = s.dns)
    (hdnsLog : v.dnsLog = s.dnsLog) (hserver : v.server = s.server)
    (hlog : v.log = s.log)
    (he : ∀ c n, e.registers? = some (n, (cfg.addr c).sinAddr) → n = cfg.name c)
    (hclient : ∀ c, ClientInv cfg (v.handle cfg e) c) :
    Inv cfg dl rl ll (v.handle cfg e) where
  dns := by
    show v.dns = (SimpleDNS.new dl).run v.dnsLog
    rw [hdns, hdnsLog, h.dns]
  server := by
    show v.server.next e = ((SimpleRendezvousServer.new rl ll).run (v.log ++ [e]))
    rw [SimpleRendezvousServer.run_snoc, hserver, hlog, ← h.server]
  names c n := by
    show lastRegistration n (v.log ++ [e]) = _ → _
    rw [hlog]
    exact names_append h.names he c n
  client := hclient

theorem subscriber_ne (hd : d ≠ c) : cfg.subscriber c ≠ cfg.subscriber d := by
  intro heq
  injection heq with hname hport
  exact hd (cfg.distinct c d hname hport).symm

theorem addr_ne (hd : d ≠ c) : cfg.addr c ≠ cfg.addr d := by
  intro heq
  exact hd (cfg.distinct c d (cfg.name_of_ip c d (congrArg SockAddr.sinAddr heq))
    (congrArg SockAddr.sinPort heq)).symm

theorem inv_init (dl rl ll : Int) (node : ι → SimpleMobileNode) :
    Inv cfg dl rl ll (.init dl rl ll node) where
  dns := rfl
  server := rfl
  names c n h := by cases h
  client c := by
    have hsub (n : LogicalAddress) :
        cfg.subscriber c ∉ (SimpleRendezvousServer.new rl ll).subscribers n :=
      OrdSet.not_mem_empty _
    exact ⟨Nat.le_refl 0, Nat.le_refl 0, fun n hn => absurd hn (hsub n),
      hsub _, rfl, rfl, rfl, rfl⟩

/-- What comes to an application after its call is no answer to it. -/
theorem PhaseInv.outside (h : PhaseInv cfg dnsLog log subscribed c cl)
    (hsettled : cl.phase.settled = true) (packet : Packet) :
    PhaseInv cfg dnsLog log subscribed c { cl with inbox := cl.inbox ++ [packet] } := by
  obtain ⟨ptr, hphase⟩ : ∃ ptr, cl.phase = .returned (some ptr) := by
    rcases hphase : cl.phase with _ | _ | _ | (_ | ptr)
    · rw [hphase] at hsettled
      cases hsettled
    · rw [hphase] at hsettled
      cases hsettled
    · rw [hphase] at hsettled
      cases hsettled
    · rw [hphase] at hsettled
      cases hsettled
    · exact ⟨ptr, rfl⟩
  simp only [PhaseInv, hphase] at h ⊢
  exact h

section Steps

variable [DecidableEq ι]

theorem client_set_self (s : State ι) (c : ι) (cl : Client) :
    (s.set c cl).client c = cl := Function.update_self ..

theorem client_set_ne (hd : d ≠ c) (cl : Client) :
    (s.set c cl).client d = s.client d := Function.update_of_ne hd ..

/-- A step of one application that the rendezvous server has no part in. -/
theorem Inv.ofClient (h : Inv cfg dl rl ll s) (des : List SimpleDNS.Event)
    {cl : Client} (hserver : u.server = s.server) (hlog : u.log = s.log)
    (hdns : u.dns = (SimpleDNS.new dl).run (s.dnsLog ++ des))
    (hdnsLog : u.dnsLog = s.dnsLog ++ des)
    (hclient : u.client = Function.update s.client c cl)
    (hdnsSince : cl.dnsSince ≤ s.dnsLog.length) (hsince : cl.since ≤ s.log.length)
    (hphase : PhaseInv cfg (s.dnsLog ++ des) s.log (Subscribed cfg s.server c) c cl) :
    Inv cfg dl rl ll u := by
  refine ⟨by rw [hdns, hdnsLog], by rw [hserver, hlog, h.server],
    by rw [hlog]; exact h.names, fun d => ?_⟩
  have hd := h.client d
  rcases eq_or_ne d c with rfl | hne
  · have hcl : u.client d = cl := by rw [hclient, Function.update_self]
    refine ⟨?_, ?_, ?_, ?_⟩
    · rw [hcl, hdnsLog, List.length_append]
      exact Nat.le_add_right_of_le hdnsSince
    · rw [hcl, hlog]
      exact hsince
    · rw [hserver]
      exact hd.only
    · rw [hcl, hdnsLog, hlog, hserver]
      exact hphase
  · have hcl : u.client d = s.client d := by
      rw [hclient, Function.update_of_ne hne]
    refine ⟨?_, ?_, ?_, ?_⟩
    · rw [hcl, hdnsLog, List.length_append]
      exact Nat.le_add_right_of_le hd.dnsSince
    · rw [hcl, hlog]
      exact hd.since
    · rw [hserver]
      exact hd.only
    · have happ := hd.phase.append des []
      rw [List.append_nil] at happ
      rw [hcl, hdnsLog, hlog, hserver]
      exact happ

theorem Inv.call (h : Inv cfg dl rl ll s) {port : UInt16}
    (hs : step cfg s (.call c port) = some u) : Inv cfg dl rl ll u := by
  have hcall (hphase : (s.client c).phase = .idle ∨
      (s.client c).phase = .returned none) :
      PhaseInv cfg (s.dnsLog ++ []) s.log (Subscribed cfg s.server c) c
        { s.client c with
          phase := .dns
          dnsSince := s.dnsLog.length
          since := s.log.length
          query := (s.client c).query ++
            [⟨⟨netV4, port, (cfg.addr c).sinAddr⟩, cfg.peer c⟩] } := by
    rw [List.append_nil]
    exact (h.client c).phase.call hphase port
  have hdns : s.dns = (SimpleDNS.new dl).run (s.dnsLog ++ []) := by
    rw [List.append_nil, h.dns]
  simp only [step] at hs
  split at hs
  · next hphase =>
      cases hs
      exact h.ofClient _ rfl rfl hdns (List.append_nil _).symm rfl (Nat.le_refl _)
        (Nat.le_refl _) (hcall (Or.inl hphase))
  · next hphase =>
      cases hs
      exact h.ofClient _ rfl rfl hdns (List.append_nil _).symm rfl (Nat.le_refl _)
        (Nat.le_refl _) (hcall (Or.inr hphase))
  · cases hs
  · cases hs
  · cases hs

theorem Inv.serve (h : Inv cfg dl rl ll s)
    (hi : (s.client c).request[i]? = some p)
    (hknown : cfg.peer c ∈ s.server.registeredNames →
      UnorderedMap.get s.server.registeredNames (cfg.peer c) ≠ []) :
    Inv cfg dl rl ll ((s.set c { s.client c with
      request := (s.client c).request.eraseIdx i }).handle cfg (.lookup p)) := by
  have hregisters : ∀ d n, (Event.lookup p).registers? =
      some (n, (cfg.addr d).sinAddr) → n = cfg.name d := fun _ _ hr => by cases hr
  refine h.handle rfl rfl rfl rfl hregisters fun d => ?_
  rcases eq_or_ne d c with rfl | hne
  · exact ClientInv.serve h hi hknown
  · obtain ⟨_, _, _, _, _, _, _, _, rfl⟩ := (h.client c).phase.of_request hi
    have hother := ClientInv.other (c := d) h (addr_ne hne) (e := .lookup
      ⟨cfg.addr c, lookupRequest (cfg.name c) (cfg.peer c)⟩) (fun r hr => by
        rw [lookup?_request] at hr
        injection hr with hr
        rw [← hr]
        exact subscriber_ne hne) hregisters
    have hclient : ((s.set c { s.client c with
        request := (s.client c).request.eraseIdx i }).handle cfg (.lookup
          ⟨cfg.addr c, lookupRequest (cfg.name c) (cfg.peer c)⟩)).client d =
        (s.handle cfg (.lookup
          ⟨cfg.addr c, lookupRequest (cfg.name c) (cfg.peer c)⟩)).client d := by
      simp only [State.handle, client_set_ne hne]
      rfl
    refine ⟨?_, ?_, hother.only, ?_⟩
    · rw [hclient]
      exact hother.dnsSince
    · rw [hclient]
      exact hother.since
    · rw [hclient]
      exact hother.phase

theorem Inv.step (h : Inv cfg dl rl ll s) (hg : Expected cfg s a)
    (hs : step cfg s a = some u) : Inv cfg dl rl ll u := by
  have hdns : s.dns = (SimpleDNS.new dl).run (s.dnsLog ++ []) := by
    rw [List.append_nil, h.dns]
  cases a with
  | call c port => exact h.call hs
  | resolve c i =>
      simp only [Resolution.step] at hs
      split at hs
      · next p hi =>
          cases hs
          have hrun : (s.dns.receive p).dns =
              (SimpleDNS.new dl).run (s.dnsLog ++ [.request p]) := by
            rw [SimpleDNS.run_snoc, ← h.dns]
            rfl
          exact h.ofClient _ rfl rfl hrun rfl rfl (h.client c).dnsSince (h.client c).since
            (PhaseInv.resolve h hi)
      · cases hs
  | readAddress c i =>
      simp only [Resolution.step] at hs
      split at hs
      · next q hphase hi =>
          have hinv := (h.client c).phase
          split at hs
          · next hempty =>
              cases hs
              refine h.ofClient [] rfl rfl hdns (List.append_nil _).symm rfl
                (h.client c).dnsSince (h.client c).since ?_
              rw [List.append_nil]
              exact hinv.refusedByDns hphase hi hempty
          · next hsome =>
              cases hs
              refine h.ofClient [] rfl rfl hdns (List.append_nil _).symm rfl
                (h.client c).dnsSince (h.client c).since ?_
              rw [List.append_nil]
              exact hinv.readAddress hphase hi hsome
      · cases hs
      · cases hs
      · cases hs
      · cases hs
  | serve c i =>
      simp only [Resolution.step] at hs
      split at hs
      · next p hi =>
          cases hs
          exact h.serve hi hg
      · cases hs
  | readLocation c i =>
      simp only [Resolution.step] at hs
      split at hs
      · next rsAddr q hphase hi =>
          cases hs
          refine h.ofClient [] rfl rfl hdns (List.append_nil _).symm rfl
            (h.client c).dnsSince (h.client c).since ?_
          rw [List.append_nil]
          exact (h.client c).phase.readLocation hphase hi _
      · cases hs
      · cases hs
      · cases hs
      · cases hs
  | lose c w i =>
      cases hs
      have hthin := thinner_lose (s.client c) i w
      refine h.ofClient [] rfl rfl hdns (List.append_nil _).symm rfl ?_ ?_ ?_
      · rw [hthin.dnsSince]
        exact (h.client c).dnsSince
      · rw [hthin.since]
        exact (h.client c).since
      · rw [List.append_nil]
        exact (h.client c).phase.thin hthin
  | addName name address =>
      cases hs
      have hrun : s.dns.addName name address =
          (SimpleDNS.new dl).run (s.dnsLog ++ [.addName name address]) := by
        rw [SimpleDNS.run_snoc, ← h.dns]
        rfl
      refine ⟨hrun, h.server, h.names, fun c => ?_⟩
      have hc := h.client c
      have happ := hc.phase.append [.addName name address] []
      rw [List.append_nil] at happ
      refine ⟨?_, hc.since, hc.only, happ⟩
      show (s.client c).dnsSince ≤ (s.dnsLog ++ [_]).length
      rw [List.length_append]
      exact Nat.le_add_right_of_le hc.dnsSince
  | foreign e =>
      cases hs
      exact h.handle rfl rfl rfl rfl hg.registers fun c =>
        ClientInv.other h (hg.src c) (hg.lookup c) hg.registers
  | outside c packet =>
      cases hs
      refine h.ofClient [] rfl rfl hdns (List.append_nil _).symm rfl
        (h.client c).dnsSince (h.client c).since ?_
      rw [List.append_nil]
      exact (h.client c).phase.outside hg packet

theorem inv_run {node : ι → SimpleMobileNode}
    (h : Run (step cfg) (Expected cfg) (.init dl rl ll node) acts s) :
    Inv cfg dl rl ll s :=
  h.invariant (inv_init dl rl ll node) fun _ _ _ hi hg hs => hi.step hg hs

/-- Whatever else goes on, a call that returns a location returns one that the
peer had while the call was being made, and leaves its caller subscribed; and a
call that is refused was so because, at some moment of it, one of the servers
had no address, and leaves its caller as it was. -/
theorem resolves_in_call {node : ι → SimpleMobileNode}
    (h : Run (step cfg) (Expected cfg) (.init dl rl ll node) acts s) (c : ι) :
    let cl := s.client c
    (∀ ptr, cl.phase = .returned (some ptr) →
      cfg.subscriber c ∈ s.server.subscribers (cfg.peer c) ∧
      ∃ k, cl.since ≤ k ∧ k ≤ s.log.length ∧
        lastRegistration (cfg.peer c) (s.log.take k) =
          some (cl.node.deref ptr).sinAddr) ∧
    (cl.phase = .returned none →
      cfg.subscriber c ∉ s.server.subscribers (cfg.peer c) ∧
      ((∃ k, cl.dnsSince ≤ k ∧ k ≤ s.dnsLog.length ∧
          [] = dnsAnswer (s.dnsLog.take k) (cfg.peer c)) ∨
        ∃ k, cl.since ≤ k ∧ k ≤ s.log.length ∧
          lastRegistration (cfg.peer c) (s.log.take k) = none)) := by
  have hphase := ((inv_run h).client c).phase
  rw [PhaseInv] at hphase
  refine ⟨fun ptr hptr => ?_, fun hnone => ?_⟩
  · simp only [hptr] at hphase
    obtain ⟨hsub, _, _, _, hfound⟩ := hphase
    exact ⟨hsub, hfound⟩
  · simp only [hnone] at hphase
    obtain ⟨hsub, _, hrefused⟩ := hphase
    exact ⟨hsub, hrefused⟩

end Steps

theorem resolves_in_call_example : ∃ s : State Unit,
    (s.client ()).phase = .returned (some 0) ∧
    let cl := s.client ()
    (∀ ptr, cl.phase = .returned (some ptr) →
      sample.subscriber () ∈ s.server.subscribers (sample.peer ()) ∧
      ∃ k, cl.since ≤ k ∧ k ≤ s.log.length ∧
        lastRegistration (sample.peer ()) (s.log.take k) =
          some (cl.node.deref ptr).sinAddr) ∧
    (cl.phase = .returned none →
      sample.subscriber () ∉ s.server.subscribers (sample.peer ()) ∧
      ((∃ k, cl.dnsSince ≤ k ∧ k ≤ s.dnsLog.length ∧
          [] = dnsAnswer (s.dnsLog.take k) (sample.peer ())) ∨
        ∃ k, cl.since ≤ k ∧ k ≤ s.log.length ∧
          lastRegistration (sample.peer ()) (s.log.take k) = none)) := by
  have hend : ∀ s ∈ exec (step sample) (Expected sample) (.init 3 4 5
      fun _ => .new (ascii "A") (ascii "1.2.3.9") (ascii "1.2.3.4") 1) finds,
      (s.client ()).phase = .returned (some 0) := by
    decide +kernel
  obtain ⟨s, _, hrun, hphase⟩ := Run.exists_of_exec hend (by decide +kernel)
  exact ⟨s, hphase, resolves_in_call hrun ()⟩

end Resolution

end PermanentIP

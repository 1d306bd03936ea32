import PermanentIP.Proofs.ConnectToServer
import PermanentIP.Proofs.NodeCalls

/-!
# Where a location comes from

`RegisterPeer` makes two requests, to the DNS from a socket of its own and to
the rendezvous server from the application's. Either takes the first datagram
there is and looks at the source address no more than at the result of the
receive; and what it returns for a request that failed is what it returns for an
answer without text. So a location, or that there is none, comes from the servers
that were asked exactly where nothing fails and their datagrams are the first
(`location_from_server_iff`); on the application's socket, which its peers know and
send to, that is not the node's to decide.
-/

namespace PermanentIP

open Lib

variable {fds : Descriptors} {sender : Int} {calls : ConnectCalls}
  {information : NetworkMsg} {serverAddr : PhysicalAddress} {serverPort : UInt16}

def FromServer (serverAddr : PhysicalAddress) (serverPort : UInt16) (p : Packet) :
    Prop :=
  p.src.sinAddr = (ipStringToInt serverAddr).toUInt32 ∧
    p.src.sinPort = htons serverPort

instance (serverAddr : PhysicalAddress) (serverPort : UInt16) (p : Packet) :
    Decidable (FromServer serverAddr serverPort p) :=
  inferInstanceAs (Decidable (_ ∧ _))

/-- The call took no datagram but the server's, and returned the text of one. -/
structure AnsweredBy (serverAddr : PhysicalAddress) (serverPort : UInt16)
    (c : Connected) : Prop where
  consumed : ∀ p ∈ c.taken, FromServer serverAddr serverPort p
  returned : ∀ reply ∈ c.reply, ∃ p ∈ c.taken, reply = p.text

/-- The call has a socket it can switch to blocking, and what its receive finds, if
it does not wait for ever, is no error, and first of all a datagram of the server's;
and the flags can be set back, unless the datagram has no text to lose. -/
def Answers (serverAddr : PhysicalAddress) (serverPort : UInt16) (fds : Descriptors)
    (sender : Int) (calls : ConnectCalls) : Prop :=
  ∃ file ∈ calls.file? fds sender, (calls.getfl && calls.setfl) = true ∧
    ∀ r ∈ calls.await file.socket, ∃ p ∈ r.2.first?,
      FromServer serverAddr serverPort p ∧ (calls.restore = true ∨ p.text = [])

instance (serverAddr : PhysicalAddress) (serverPort : UInt16) (fds : Descriptors)
    (sender : Int) (calls : ConnectCalls) :
    Decidable (Answers serverAddr serverPort fds sender calls) :=
  inferInstanceAs (Decidable (∃ file ∈ calls.file? fds sender,
    (calls.getfl && calls.setfl) = true ∧ ∀ r ∈ calls.await file.socket, ∃ p ∈ r.2.first?,
      FromServer serverAddr serverPort p ∧ (calls.restore = true ∨ p.text = [])))

/-- A call that returned without a datagram -/
theorem not_answeredBy_of_failed {c : Connected} {r : NetworkMsg} (hreply : c.reply = some r)
    (htaken : c.taken = none) : ¬ AnsweredBy serverAddr serverPort c := by
  intro h
  obtain ⟨p, hp, _⟩ := h.returned r hreply
  rw [htaken] at hp
  cases hp

theorem answeredBy_iff_of_received {c : Connected} {s : Socket}
    (hreply : c.reply = some (if calls.restore then s.text else []))
    (htaken : c.taken = s.first?) :
    AnsweredBy serverAddr serverPort c ↔ ∃ p ∈ s.first?,
      FromServer serverAddr serverPort p ∧ (calls.restore = true ∨ p.text = []) := by
  constructor
  · rintro ⟨hconsumed, hreturned⟩
    obtain ⟨p, hp, htext⟩ := hreturned _ hreply
    refine ⟨p, htaken ▸ hp, hconsumed p hp, ?_⟩
    cases hrestore : calls.restore with
    | true => exact Or.inl rfl
    | false =>
        rw [hrestore] at htext
        exact Or.inr htext.symm
  · rintro ⟨p, hp, hfrom, hlost⟩
    have htext : s.text = p.text := by
      rw [Socket.text, hp]
      rfl
    refine ⟨fun p' hp' => ?_, fun reply hr => ⟨p, htaken.symm ▸ hp, ?_⟩⟩
    · rw [htaken, hp] at hp'
      cases hp'
      exact hfrom
    · rw [hreply, htext] at hr
      cases hr
      rcases hlost with hrestore | hempty
      · exact if_pos hrestore
      · rw [hempty, ite_self]

theorem answeredBy_iff (information : NetworkMsg) :
    AnsweredBy serverAddr serverPort
        (connectToServer fds serverAddr serverPort information sender calls) ↔
      Answers serverAddr serverPort fds sender calls := by
  have houtcome := outcome_connectToServer fds serverAddr serverPort information sender calls
  have hreply := congrArg Prod.fst houtcome
  have htaken := congrArg Prod.snd houtcome
  simp only [ConnectCalls.outcome] at hreply htaken
  rw [Answers]
  cases hfile : calls.file? fds sender with
  | none =>
      simp only [hfile] at hreply htaken
      refine iff_of_false (not_answeredBy_of_failed hreply htaken) ?_
      rintro ⟨file, hnone, _⟩
      cases hnone
  | some file =>
      simp only [hfile] at hreply htaken
      have hthe (P : File → Prop) : (∃ f ∈ some file, P f) ↔ P file := by simp
      rw [hthe]
      by_cases hset : (calls.getfl && calls.setfl) = true
      · simp only [if_pos hset] at hreply htaken
        rw [and_iff_right hset]
        cases hawait : calls.await file.socket with
        | none =>
            simp only [hawait] at hreply htaken
            refine iff_of_true ⟨fun p hp => ?_, fun r hr => ?_⟩ fun r hr => by cases hr
            · rw [htaken] at hp
              cases hp
            · rw [hreply] at hr
              cases hr
        | some r =>
            simp only [hawait] at hreply htaken
            rw [answeredBy_iff_of_received hreply htaken]
            simp only [Option.mem_def, Option.some.injEq, forall_eq']
      · simp only [if_neg hset] at hreply htaken
        exact iff_of_false (not_answeredBy_of_failed hreply htaken) fun h => hset h.1

/-- Each of the two requests was answered by the server it asked; the second server
is the one the first named. -/
structure AskedServers (node : SimpleMobileNode) (r : PeerRequests) : Prop where
  dns : AnsweredBy node.dnsServer globLookupPort r.dns
  rs : ∀ rs ∈ r.rs, ∀ rsAddr ∈ r.dns.reply, AnsweredBy rsAddr globLookupPort rs

/-- The DNS answers the first request, and the rendezvous server it names, if it
names one, the second. -/
def BothAnswer (node : SimpleMobileNode) (fds : Descriptors) (appSocket : Int)
    (dnsCalls rsCalls : ConnectCalls) : Prop :=
  Answers node.dnsServer globLookupPort fds (-1) dnsCalls ∧
    ∀ r ∈ dnsCalls.receives fds (-1), ∀ p ∈ r.2.first?, p.text ≠ [] →
      Answers p.text globLookupPort fds appSocket rsCalls

instance (node : SimpleMobileNode) (fds : Descriptors) (appSocket : Int)
    (dnsCalls rsCalls : ConnectCalls) :
    Decidable (BothAnswer node fds appSocket dnsCalls rsCalls) :=
  inferInstanceAs (Decidable (_ ∧ _))

/-- What the second request finds when the DNS has answered the first -/
theorem connectToServer_of_answers {r : Bool × Socket} {p : Packet}
    (information : NetworkMsg) (hown : sender < 0)
    (hanswers : Answers serverAddr serverPort fds sender calls)
    (hreceives : calls.receives fds sender = some r) (hp : r.2.first? = some p)
    (htext : p.text ≠ []) :
    (connectToServer fds serverAddr serverPort information sender calls).reply =
        some p.text ∧
      (connectToServer fds serverAddr serverPort information sender calls).fds = fds := by
  obtain ⟨file, hfile, hset, hawait⟩ := receives_eq_some.mp hreceives
  obtain ⟨file', hfile', _, hfirst⟩ := hanswers
  cases hfile.symm.trans hfile'
  obtain ⟨p', hp', _, hlost⟩ := hfirst r hawait
  cases hp.symm.trans hp'
  have hrestore : calls.restore = true := hlost.resolve_right htext
  have hreply := congrArg Prod.fst
    (outcome_connectToServer fds serverAddr serverPort information sender calls)
  simp only [ConnectCalls.outcome, Option.mem_def.mp hfile, if_pos hset, hawait,
    if_pos hrestore, Socket.text, hp, Option.map_some, Option.getD_some] at hreply
  exact ⟨hreply, fds_connectToServer hown hreceives hrestore⟩

theorem received_of_taken {p : Packet}
    (h : (connectToServer fds serverAddr serverPort information sender calls).taken =
      some p) : ∃ r, calls.receives fds sender = some r ∧ r.2.first? = some p := by
  have htaken := congrArg Prod.snd
    (outcome_connectToServer fds serverAddr serverPort information sender calls)
  simp only [ConnectCalls.outcome, h] at htaken
  split at htaken
  · cases htaken
  · next file hfile =>
      split at htaken
      · next hset =>
          split at htaken
          · cases htaken
          · next waited s hawait =>
              exact ⟨(waited, s), receives_eq_some.mpr ⟨file, hfile, hset, hawait⟩,
                htaken.symm⟩
      · cases htaken

theorem askedServers_iff {node : SimpleMobileNode} {appSocket : Int}
    {peerAddr : LogicalAddress} {dnsCalls rsCalls : ConnectCalls} :
    AskedServers node
        (node.requestPeer fds appSocket peerAddr dnsCalls rsCalls) ↔
      BothAnswer node fds appSocket dnsCalls rsCalls := by
  have hdns : (node.requestPeer fds appSocket peerAddr dnsCalls rsCalls).dns =
      connectToServer fds node.dnsServer globLookupPort peerAddr (-1) dnsCalls := by
    rw [SimpleMobileNode.requestPeer]
    split
    · rfl
    · split <;> rfl
  have hrs {p : Packet} (htext : p.text ≠ [])
      (hreply : (connectToServer fds node.dnsServer globLookupPort peerAddr (-1)
        dnsCalls).reply = some p.text)
      (hfds : (connectToServer fds node.dnsServer globLookupPort peerAddr (-1)
        dnsCalls).fds = fds) :
      (node.requestPeer fds appSocket peerAddr dnsCalls rsCalls).rs =
        some (connectToServer fds p.text globLookupPort
          (SimpleMobileNode.lookupRequest node.logicalAddress peerAddr) appSocket
          rsCalls) := by
    simp only [SimpleMobileNode.requestPeer, hreply, if_neg htext, hfds]
  constructor
  · rintro ⟨hfirst, hsecond⟩
    rw [hdns, answeredBy_iff] at hfirst
    refine ⟨hfirst, fun r hr p hp htext => ?_⟩
    obtain ⟨hreply, hfds⟩ := connectToServer_of_answers peerAddr (by decide) hfirst hr hp htext
    exact (answeredBy_iff _).mp (hsecond _ (hrs htext hreply hfds) p.text (hdns ▸ hreply))
  · rintro ⟨hfirst, hsecond⟩
    have hanswered := (answeredBy_iff peerAddr).mpr hfirst
    refine ⟨hdns ▸ hanswered, fun rs hrs' rsAddr hrsAddr => ?_⟩
    rw [hdns] at hrsAddr
    obtain ⟨p, htaken, rfl⟩ := hanswered.returned rsAddr hrsAddr
    obtain ⟨r, hr, hp⟩ := received_of_taken htaken
    by_cases htext : p.text = []
    · simp only [SimpleMobileNode.requestPeer, Option.mem_def.mp hrsAddr, if_pos htext]
        at hrs'
      cases hrs'
    · obtain ⟨hreply, hfds⟩ :=
        connectToServer_of_answers peerAddr (by decide) hfirst hr hp htext
      rw [hrs htext hreply hfds] at hrs'
      cases hrs'
      exact (answeredBy_iff _).mpr (hsecond r hr p hp htext)

/-- How `RegisterPeer` comes to an end: with an empty answer of the DNS, or
with the answer of the rendezvous server the DNS named. -/
theorem requestPeer_result {node node' : SimpleMobileNode} {appSocket : Int}
    {peerAddr : LogicalAddress} {dnsCalls rsCalls : ConnectCalls}
    {peer : Option Ptr}
    (h : (node.requestPeer fds appSocket peerAddr dnsCalls rsCalls).result =
      some (peer, node')) :
    (peer = none ∧
      (node.requestPeer fds appSocket peerAddr dnsCalls rsCalls).dns.reply =
        some []) ∨
    ∃ rsAddr peerLoc rs, rsAddr ≠ [] ∧
      (node.requestPeer fds appSocket peerAddr dnsCalls rsCalls).rs = some rs ∧
      rs.reply = some peerLoc ∧
      (∀ r ∈ rs.reply, (∃ p ∈ rs.taken, r = p.text) ∨
        r = [] ∧ (rs.taken = none ∨ rsCalls.restore = false)) ∧
      node.registerPeer appSocket rsAddr peerLoc = (peer, node') := by
  simp only [SimpleMobileNode.requestPeer] at h ⊢
  rcases hdns : (connectToServer fds node.dnsServer globLookupPort peerAddr (-1)
    dnsCalls).reply with _ | rsAddr
  · simp [hdns] at h
  · simp only [hdns] at h ⊢
    by_cases hnil : rsAddr = []
    · simp only [if_pos hnil, Option.some.injEq, Prod.mk.injEq] at h ⊢
      exact Or.inl ⟨h.1.symm, by rw [hdns, hnil]⟩
    · simp only [if_neg hnil, Option.map_eq_some_iff] at h ⊢
      obtain ⟨peerLoc, hreply, hreg⟩ := h
      exact Or.inr ⟨rsAddr, peerLoc, _, hnil, rfl, hreply,
        reply_connectToServer _ _ _ _ _ _, hreg⟩

theorem location_requestPeer {node node' : SimpleMobileNode} {appSocket : Int}
    {peerAddr : LogicalAddress} {dnsCalls rsCalls : ConnectCalls} {ptr : Ptr}
    (h : (node.requestPeer fds appSocket peerAddr dnsCalls rsCalls).result =
      some (some ptr, node')) :
    ∃ rs ∈ (node.requestPeer fds appSocket peerAddr dnsCalls rsCalls).rs,
      ∃ p ∈ rs.taken,
        (node'.deref ptr).sinAddr = (ipStringToInt p.text).toUInt32 := by
  rcases requestPeer_result h with
    ⟨hnone, _⟩ | ⟨rsAddr, peerLoc, rs, _, hrs, hreply, htext, hreg⟩
  · cases hnone
  · rcases node.registerPeer_cases appSocket rsAddr peerLoc with
      ⟨_, hloc, heq⟩ | ⟨_, heq⟩
    · rw [heq, Prod.mk.injEq, Option.some.injEq] at hreg
      obtain ⟨rfl, rfl⟩ := hreg
      rcases htext peerLoc hreply with ⟨p, hp, rfl⟩ | ⟨hempty, _⟩
      · refine ⟨rs, hrs, p, hp, ?_⟩
        simp [SimpleMobileNode.deref]
      · exact absurd hempty hloc
    · rw [heq] at hreg
      cases hreg

theorem unknown_requestPeer {node node' : SimpleMobileNode} {appSocket : Int}
    {peerAddr : LogicalAddress} {dnsCalls rsCalls : ConnectCalls}
    (h : (node.requestPeer fds appSocket peerAddr dnsCalls rsCalls).result =
      some (none, node')) :
    (node.requestPeer fds appSocket peerAddr dnsCalls rsCalls).dns.reply =
        some [] ∨
      ∃ rs ∈ (node.requestPeer fds appSocket peerAddr dnsCalls rsCalls).rs,
        rs.reply = some [] := by
  rcases requestPeer_result h with
    ⟨_, hdns⟩ | ⟨rsAddr, peerLoc, rs, hrsAddr, hrs, hreply, _, hreg⟩
  · exact Or.inl hdns
  · rcases node.registerPeer_cases appSocket rsAddr peerLoc with
      ⟨_, _, heq⟩ | ⟨hempty, _⟩
    · rw [heq] at hreg
      cases hreg
    · refine Or.inr ⟨rs, hrs, ?_⟩
      rcases hempty with hempty | hempty
      · exact absurd hempty hrsAddr
      · rw [hreply, hempty]

/-- Whose answer a location is. `ConnectToServer` returns the text of a datagram of
the server's and takes no other if and only if the server answers, with nothing
failing and nothing of anybody else's before it. `RegisterPeer` locates a peer by
the text of the datagram that the second of two such calls took, and finds it
unknown by an empty answer to either, so both have to be answered. -/
theorem location_from_server_iff (fds : Descriptors)
    (serverAddr : PhysicalAddress) (serverPort : UInt16)
    (information : NetworkMsg) (sender : Int) (calls : ConnectCalls)
    (node : SimpleMobileNode) (appSocket : Int) (peerAddr : LogicalAddress)
    (dnsCalls rsCalls : ConnectCalls) :
    let c := connectToServer fds serverAddr serverPort information sender calls
    let r := node.requestPeer fds appSocket peerAddr dnsCalls rsCalls
    (AnsweredBy serverAddr serverPort c ↔
      Answers serverAddr serverPort fds sender calls) ∧
    (AskedServers node r ↔ BothAnswer node fds appSocket dnsCalls rsCalls) ∧
    (∀ ptr node', r.result = some (some ptr, node') → ∃ rs ∈ r.rs, ∃ p ∈ rs.taken,
      (node'.deref ptr).sinAddr = (ipStringToInt p.text).toUInt32) ∧
    (∀ node', r.result = some (none, node') →
      r.dns.reply = some [] ∨ ∃ rs ∈ r.rs, rs.reply = some []) :=
  ⟨answeredBy_iff _, askedServers_iff, fun _ _ h => location_requestPeer h,
    fun _ h => unknown_requestPeer h⟩

/-- System calls that all succeed on a socket to which `early` comes in time. -/
def ConnectCalls.succeeding (early : List Packet) : ConnectCalls where
  socket := true
  getfl := true
  setfl := true
  sendto := true
  early := ⟨early, none⟩
  late := ⟨[], none⟩
  restore := true

/-- A's application socket, 3, with a message of its peer's in the queue. -/
def peerMessageQueued : Descriptors :=
  ⟨[none, none, none,
    some ⟨2 ||| oNonblock, ⟨[⟨⟨netV4, 9, 9⟩, ascii "yo"⟩], none⟩⟩, none]⟩

/-- B's message is taken for the location of B. -/
theorem message_taken_for_location :
    ¬ ∀ (node : SimpleMobileNode) fds appSocket peerAddr dnsCalls rsCalls,
      AskedServers node
        (node.requestPeer fds appSocket peerAddr dnsCalls rsCalls) := by
  intro h
  have hboth := askedServers_iff.mp (h (.new (ascii "A") (ascii "1.2.3.9")
    (ascii "1.2.3.4") 1) peerMessageQueued 3 (ascii "B")
    (.succeeding [⟨⟨netV4, htons globLookupPort, 0x09030201⟩, ascii "1.2.3.4"⟩])
    (.succeeding [⟨⟨netV4, htons globLookupPort, 0x04030201⟩, ascii "1.2.3.8"⟩]))
  exact absurd hboth (by decide +kernel)

end PermanentIP

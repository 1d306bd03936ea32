import PermanentIP.DNS.RequestLog
import PermanentIP.Proofs.NameService
import PermanentIP.Proofs.ServerLog

/-!
# The requests a name server lives through

The line about a request has the name in it and the address of the name, and it is
the only one that can end the server. So a request is answered if and only if that
line can be written (`does_receive`), and whether it can is decided by the request
and the address last added for it: over any run of added names and requests the
server lives exactly as long as each request finds an address it can be logged with,
and what it answers until then is what was added (`answers_last_name`).
-/

namespace PermanentIP

open Lib SimpleMobileNode

open SimpleRendezvousServer (sourceText sourceArgs expands_source
  percent_not_mem_sourceText length_sourceText_le length_cstr_le replyBuffer)

namespace SimpleDNS

variable {dns : SimpleDNS} {stderr : FilePtr} {name : LogicalAddress}
  {address : PhysicalAddress} {p : Packet} {src : SockAddr} {socket : Socket}
  {es : List Event}

/-! ## Its line -/

/-- What the log should say of a request -/
def requestText (name address : Bytes) (src : SockAddr) : Bytes :=
  ascii "Sending DNS lookup of <" ++ (cstr name ++ (ascii ", " ++
    (cstr address ++ (ascii "> to (" ++ sourceText src))))

theorem expands_request (name address : Bytes) (src : SockAddr) :
    Expands conversions (cstr requestLogFormat)
      (.str name :: .str address :: sourceArgs src) (requestText name address src) := by
  have hformat : cstr requestLogFormat = ascii "Sending DNS lookup of <" ++
      percent :: 115 :: (ascii ", " ++ percent :: 115 :: (ascii "> to (" ++
        percent :: 100 :: (ascii ":" ++ percent :: 100 :: ascii ")"))) := by decide
  rw [hformat]
  exact .append (by decide) (expands_str (.append (by decide) (expands_str
    (.append (by decide) (expands_source src)))))

theorem paired_requestText :
    paired (requestText name address src) =
      (paired (cstr name) && paired (cstr address)) := by
  rw [requestText, paired_append_of_not_mem (by decide),
    paired_append_append (by decide) (by decide),
    paired_append_append (by decide) (by decide),
    paired_of_not_mem (percent_not_mem_sourceText src), Bool.and_true]

theorem printable_request (hname : Brief (cstr name)) (haddress : Brief (cstr address)) :
    Printable (requestText name address src) where
  fits := by
    have hn := hname.2
    have ha := haddress.2
    have hsource := length_sourceText_le src
    have hbefore : (ascii "Sending DNS lookup of <").length = 23 := by decide
    have hcomma : (ascii ", ").length = 2 := rfl
    have hto : (ascii "> to (").length = 6 := rfl
    simp only [requestText, List.length_append, hbefore, hcomma, hto, bufferSize]
    omega
  paired := by
    rw [paired_requestText, hname.1, haddress.1]
    rfl

/-! ## One request -/

/-- The line about the request can be written. -/
def Logs (dns : SimpleDNS) (p : Packet) : Prop :=
  p.payload ≠ [] →
    Printable (requestText p.text (UnorderedMap.get dns.registeredNames p.text) p.src)

instance : Decidable (dns.Logs p) := inferInstanceAs (Decidable (_ → _))

theorem does_shutDownLog {format : Bytes} (hpercent : percent ∉ cstr format)
    (hfits : (cstr format).length < bufferSize) :
    Does (shutDownLog stderr format) True [] () :=
  does_logShutDown ⟨by decide, by decide⟩ ⟨hpercent, hfits⟩ (does_pure ()) stderr

/-- All that is left of a call but for what it sent -/
def Handled.left (h : Handled) : Bool × SimpleDNS × Socket := (h.ok, h.dns, h.socket)

theorem does_handleRequests_cons {rest : List Packet} (hp : p.payload ≠ []) :
    Does (dns.handleRequestsWithLog stderr ⟨p :: rest, none⟩)
      (Printable (requestText p.text
        (UnorderedMap.get dns.registeredNames p.text) p.src))
      (dns.handleRequests ⟨p :: rest, none⟩).sent
      (dns.handleRequests ⟨p :: rest, none⟩).left := by
  have hread : (0 : Int) < ((p.payload.take bufferSize).length : Int) :=
    length_take_pos.mpr hp
  have hline := expands_request (store (p.payload.take bufferSize) zeroed)
    (UnorderedMap.get dns.registeredNames p.text) p.src
  have htext : cstr (store (p.payload.take bufferSize) zeroed) = cstr p.text := by
    rw [cstr_store_zeroed]
    exact (cstr_eq_self (nulFree_cstr _)).symm
  rw [requestText, htext] at hline
  rw [handleRequests_cons hp, handleRequestsWithLog]
  simp only [recvfrom_cons _ _ _ _ _ le_sizeofSockAddr, if_pos hread, lookupName_eq,
    cstr_store_zeroed]
  exact ((does_log hline _ _).bind ((does_put _).map _)).congr (and_iff_left trivial)

/-- A receive that brings no byte -/
theorem does_handleRequests_idle
    (hread : ¬ 0 < (recvfrom socket false bufferSize .zero sizeofSockAddr).bytesRead) :
    Does (dns.handleRequestsWithLog stderr socket) True
      (dns.handleRequests socket).sent (dns.handleRequests socket).left := by
  rw [handleRequestsWithLog, handleRequests]
  simp only [if_neg hread, Handled.left]
  split
  · next herror =>
      rw [herror]
      exact (does_shutDownLog (by decide) (by decide)).map _
  · next hquiet =>
      rw [Bool.eq_false_of_not_eq_true hquiet]
      exact does_pure _

/-- `HandleRequests` comes back if it can log what it takes off the listener. -/
theorem does_handleRequests :
    Does (dns.handleRequestsWithLog stderr socket)
      (∀ p rest, socket = ⟨p :: rest, none⟩ → dns.Logs p)
      (dns.handleRequests socket).sent (dns.handleRequests socket).left := by
  by_cases htaken : ∃ p rest, socket = ⟨p :: rest, none⟩ ∧ p.payload ≠ []
  · obtain ⟨p, rest, rfl, hp⟩ := htaken
    refine (does_handleRequests_cons hp).congr ?_
    constructor
    · intro h p' rest' heq
      cases heq
      exact fun _ => h
    · exact fun h => h p rest rfl hp
  · have hread : ¬ 0 < (recvfrom socket false bufferSize .zero sizeofSockAddr).bytesRead := by
      intro hread
      obtain ⟨p, rest, heq, hp, _⟩ := recvfrom_pos hread
      exact htaken ⟨p, rest, heq, hp⟩
    refine (does_handleRequests_idle hread).congr (iff_of_true trivial ?_)
    intro p rest heq hp
    exact absurd ⟨p, rest, heq, hp⟩ htaken

theorem does_receive (dns : SimpleDNS) (stderr : FilePtr) (p : Packet) :
    Does (dns.receiveWithLog stderr p) (dns.Logs p) (dns.receive p).sent dns := by
  have hdns : (dns.handleRequests ⟨[p], none⟩).left.2.1 = dns := dns_receive
  have hreceive := does_handleRequests.map (x := dns.handleRequestsWithLog stderr
    ⟨[p], none⟩) fun r => r.2.1
  rw [hdns] at hreceive
  refine hreceive.congr ?_
  constructor
  · exact fun h => h p [] rfl
  · intro h p' rest heq
    cases heq
    exact h

/-! ## A run -/

/-- One event, with its line -/
def nextWithLog (dns : SimpleDNS) (stderr : FilePtr) :
    Event → Outcome Sent Failure SimpleDNS
  | .addName name address => pure (dns.addName name address)
  | .request p => dns.receiveWithLog stderr p

def runWithLog (dns : SimpleDNS) (stderr : FilePtr) (es : List Event) :
    Outcome Sent Failure SimpleDNS :=
  Outcome.foldl (nextWithLog · stderr) dns es

/-- What is sent on an event. -/
def puts (dns : SimpleDNS) : Event → List Sent
  | .addName _ _ => []
  | .request p => (dns.receive p).sent

/-- The line about an event can be written. -/
def LogsEvent (dns : SimpleDNS) : Event → Prop
  | .addName _ _ => True
  | .request p => dns.Logs p

theorem does_next (dns : SimpleDNS) (stderr : FilePtr) (e : Event) :
    Does (dns.nextWithLog stderr e) (dns.LogsEvent e) (dns.puts e) (dns.next e) := by
  cases e with
  | addName name address => exact does_pure _
  | request p =>
      have hnext : dns.next (.request p) = dns := dns_receive
      rw [hnext]
      exact does_receive dns stderr p

/-- The address last added for a name, and none if none was -/
def lastAdded (name : LogicalAddress) (es : List Event) : PhysicalAddress :=
  (lastWrite Event.added? name es).getD []

theorem get_run (fd : Int) (es : List Event) (name : LogicalAddress) :
    UnorderedMap.get ((new fd).run es).registeredNames name = lastAdded name es := by
  rw [UnorderedMap.get, lookup_run]
  rfl

/-- After these events the request can be logged. -/
def Loggable (es : List Event) (p : Packet) : Prop :=
  p.payload ≠ [] → Printable (requestText p.text (lastAdded p.text es) p.src)

instance : Decidable (Loggable es p) := inferInstanceAs (Decidable (_ → _))

theorem logs_run_iff (fd : Int) : ((new fd).run es).Logs p ↔ Loggable es p := by
  rw [Logs, get_run, Loggable]

theorem loggable_of_brief (hname : Brief p.text)
    (haddress : Brief (cstr (lastAdded p.text es))) : Loggable es p := fun _ =>
  printable_request ((cstr_eq_self (nulFree_cstr _)).symm ▸ hname) haddress

/-- A run that a name server lives through -/
def Lives (es : List Event) : Prop :=
  ∀ pre p, pre ++ [.request p] <+: es → Loggable pre p

theorem goesOn_iff_lives (fd : Int) :
    goesOn LogsEvent next (new fd) es ↔ Lives es := by
  rw [goesOn_iff]
  constructor
  · exact fun h pre p hpre => (logs_run_iff fd).mp (h pre _ hpre)
  · intro h pre e hpre
    cases e with
    | addName name address => trivial
    | request p => exact (logs_run_iff fd).mpr (h pre p hpre)

/-- Names go in and come out through the wire as they were last added, whatever was
asked in between; asking changes nothing, and nothing ends the server but a request
whose line cannot be written. -/
theorem answers_last_name (fd : Int) (stderr : FilePtr) (es : List Event) (p : Packet) :
    let dns := (new fd).run es
    Does ((new fd).runWithLog stderr es) (Lives es) (outs puts next (new fd) es) dns ∧
    (∀ name, name ∈ dns.registeredNames ↔ ∃ a, .addName name a ∈ es) ∧
    ∃ answer, Does (dns.receiveWithLog stderr p) (Loggable es p) answer dns ∧
      (p.payload = [] → answer = []) ∧
      (p.payload ≠ [] → ∃ reply, answer = sendto fd reply p.src ∧
        reply.length = bufferSize ∧
        ∀ server, readReply ⟨server, reply⟩ =
          (cstr (lastAdded p.text es)).take (bufferSize - 1)) := by
  intro dns
  refine ⟨?_, fun name => mem_run_iff, (dns.receive p).sent,
    (does_receive dns stderr p).congr (logs_run_iff fd), ?_, ?_⟩
  · exact (Does.foldl (fun dns e => does_next dns stderr e) (new fd) es).congr
      (goesOn_iff_lives fd)
  · intro h
    rw [receive, handleRequests_empty h]
  · intro h
    refine ⟨replyBuffer (cstr (UnorderedMap.get dns.registeredNames p.text)) p, ?_,
      length_replyBuffer _ _, fun server => ?_⟩
    · rw [receive, handleRequests_cons h, listener_run]
      rfl
    · rw [readReply_replyBuffer_take (nulFree_cstr _), get_run]

end SimpleDNS

end PermanentIP

import PermanentIP.Proofs.NodeCalls
import PermanentIP.Proofs.Printable
import PermanentIP.Proofs.Traffic

/-!
# The datagrams a server lives through

`HandleRequests` logs what anybody sends it, and a call of `Log` that does not
return ends the server. A request is read as a format, so its name must have its
`%`s in pairs, and it has 4096 bytes to be logged in. That is not all: the names
of the subscribers are kept, and each update is logged with two names, the one
that moved and the one that is told. Two names that were each short enough to be
logged may not be short enough together, and then it is the registration that
ends the server, because of a lookup long before it.

Over any log of datagrams from anybody the server's board says which
(`lives_iff`). With names of half the buffer, less what the formats put around
them, no two can add up to more. And as long as it lives, the board says all that
the server sends (`traffic_of_board`).
-/

namespace PermanentIP

open Lib SimpleMobileNode

namespace SimpleRendezvousServer

variable {srv : SimpleRendezvousServer} {stderr : FilePtr} {p : Packet}
  {b : Spec.Board LogicalAddress UInt32 UInt16} {es : List Event} {e : Event}
  {n name address subscriber location : LogicalAddress} {a o : Option UInt32}
  {port : UInt16} {src : SockAddr}

/-! ## Its lines -/

/-- What the log should say of an update -/
def updateText (name address subscriber location : Bytes) (port : UInt16) : Bytes :=
  ascii "Sending update of " ++ (cstr name ++ (ascii "<" ++ (cstr address ++
    (ascii "> to " ++ (cstr subscriber ++ (ascii "(" ++ (cstr location ++
      (ascii ":" ++ (percentD (Int32.ofNat (htons port).toNat) ++ ascii ")")))))))))

theorem expands_update (names : UnorderedMap LogicalAddress PhysicalAddress)
    (name address : Bytes) (i : Subscriber) :
    Expands conversions (cstr updateLogFormat) (updateArgs names name address i)
      (updateText name address i.name (UnorderedMap.get names i.name) i.port) := by
  have hformat : cstr updateLogFormat = ascii "Sending update of " ++
      percent :: 115 :: (ascii "<" ++ percent :: 115 :: (ascii "> to " ++
        percent :: 115 :: (ascii "(" ++ percent :: 115 :: (ascii ":" ++
          percent :: 100 :: ascii ")")))) := by decide
  rw [hformat]
  exact .append (by decide) (expands_str (.append (by decide) (expands_str
    (.append (by decide) (expands_str (.append (by decide) (expands_str
      (.append (by decide) (expands_int (expands_self (by decide)))))))))))

theorem percent_not_mem_addressText (o : Option UInt32) : percent ∉ addressText o := by
  cases o with
  | none => exact List.not_mem_nil
  | some a => exact percent_not_mem_intToIPString _

theorem percent_not_mem_sourceText (src : SockAddr) : percent ∉ sourceText src := by
  have hcolon : percent ∉ ascii ":" := by decide
  have hclose : percent ∉ ascii ")" := by decide
  simp only [sourceText, List.mem_append, percent_not_mem_percentD, hcolon, hclose,
    or_self, not_false_eq_true]

theorem paired_lookupText :
    paired (lookupText subscriber (addressText o) src) = paired (cstr subscriber) := by
  have hpeer : percent ∉ cstr (addressText o) := by
    rw [cstr_eq_self (nulFree_addressText o)]
    exact percent_not_mem_addressText o
  rw [lookupText, paired_append_of_not_mem (by decide),
    paired_append_append (by decide) (by decide), paired_append_of_not_mem hpeer,
    paired_append_of_not_mem (by decide),
    paired_of_not_mem (percent_not_mem_sourceText src), Bool.and_true]

theorem paired_registrationText :
    paired (registrationText name src) = paired (cstr name) := by
  rw [registrationText, paired_append_of_not_mem (by decide),
    paired_append_append (by decide) (by decide),
    paired_of_not_mem (percent_not_mem_sourceText src), Bool.and_true]

theorem paired_updateText :
    paired (updateText name (addressText a) subscriber (addressText o) port) =
      (paired (cstr name) && paired (cstr subscriber)) := by
  have haddress (o : Option UInt32) : percent ∉ cstr (addressText o) := by
    rw [cstr_eq_self (nulFree_addressText o)]
    exact percent_not_mem_addressText o
  have hclose : paired (ascii ")") = true := by decide
  rw [updateText, paired_append_of_not_mem (by decide),
    paired_append_append (by decide) (by decide), paired_append_of_not_mem (haddress a),
    paired_append_of_not_mem (by decide), paired_append_append (by decide) (by decide),
    paired_append_of_not_mem (haddress o), paired_append_of_not_mem (by decide),
    paired_append_of_not_mem (percent_not_mem_percentD _), hclose, Bool.and_true]

/-! ## The calls -/

theorem does_pushUpdates {sock : Int} {address : PhysicalAddress} {subs : List Subscriber}
    {names : UnorderedMap LogicalAddress PhysicalAddress} :
    Does (pushUpdatesWithLog stderr sock name address subs names)
      (∀ i ∈ subs, Printable
        (updateText name address i.name (UnorderedMap.get names i.name) i.port))
      (pushUpdates sock address subs names).1 (pushUpdates sock address subs names).2 := by
  induction subs generalizing names with
  | nil => exact (does_pure names).congr (iff_of_true trivial fun _ h => nomatch h)
  | cons i rest ih =>
      have hline := expands_update (UnorderedMap.touch names i.name) name address i
      refine ((does_log hline stderr .warning).bind ((does_put _).bind ih)).congr ?_
      simp only [UnorderedMap.get_touch, List.forall_mem_cons, true_and]

theorem does_updateAddress {sock : Int} {address : PhysicalAddress} :
    Does (srv.updateAddressWithLog stderr sock name address)
      (∀ i ∈ srv.subscribers name, Printable (updateText name address i.name
        (UnorderedMap.get (srv.registeredNames.insert name address) i.name) i.port))
      (srv.updateAddress sock name address).1 (srv.updateAddress sock name address).2 :=
  does_pushUpdates.map _

theorem does_shutDownLog {format : Bytes} (hpercent : percent ∉ cstr format)
    (hfits : (cstr format).length < bufferSize) :
    Does (shutDownLog stderr format) True [] () :=
  does_logShutDown ⟨by decide, by decide⟩ ⟨hpercent, hfits⟩ (does_pure ()) stderr

/-! ## One datagram -/

/-- The line about a lookup can be written. -/
def LogsLookup (srv : SimpleRendezvousServer) (p : Packet) : Prop :=
  Printable (lookupText (srv.lookupNames p).1 (srv.lookupNames p).2 p.src)

/-- The lines about a registration and its updates can be written. -/
def LogsRegistration (srv : SimpleRendezvousServer) (p : Packet) : Prop :=
  let address := intToIPString p.src.sinAddr.toInt32
  Printable (registrationText p.text p.src) ∧
    ∀ i ∈ srv.subscribers p.text, Printable (updateText p.text address i.name
      (UnorderedMap.get (srv.registeredNames.insert p.text address) i.name) i.port)

instance : Decidable (srv.LogsLookup p) := inferInstanceAs (Decidable (Printable _))

instance : Decidable (srv.LogsRegistration p) :=
  inferInstanceAs (Decidable (_ ∧ ∀ i ∈ (srv.subscribers p.text).elems, _))

/-- All that is left of a call but for what it sent -/
def Handled.left (h : Handled) : Bool × SimpleRendezvousServer × Socket :=
  (h.ok, h.server, h.listener)

theorem does_handleRequests_lookup {fd sock : Int} {rest : List Packet}
    (hp : p.payload ≠ []) :
    Does (srv.handleRequestsWithLog stderr fd true ⟨p :: rest, none⟩ sock)
      (srv.LogsLookup p) (srv.handleRequests fd true ⟨p :: rest, none⟩ sock).sent
      (srv.handleRequests fd true ⟨p :: rest, none⟩ sock).left := by
  have hread : (0 : Int) < ((p.payload.take bufferSize).length : Int) :=
    length_take_pos.mpr hp
  rw [handleRequestsWithLog, handleRequests]
  simp only [recvfrom_cons _ _ _ _ _ le_sizeofSockAddr, if_pos hread, if_true,
    cstr_store_zeroed]
  exact ((does_log (expands_lookup _ _ _) _ _).bind ((does_put _).map _)).congr
    (and_iff_left trivial)

theorem does_handleRequests_registration {fd sock : Int} {rest : List Packet}
    (hp : p.payload ≠ []) :
    Does (srv.handleRequestsWithLog stderr fd false ⟨p :: rest, none⟩ sock)
      (srv.LogsRegistration p) (srv.handleRequests fd false ⟨p :: rest, none⟩ sock).sent
      (srv.handleRequests fd false ⟨p :: rest, none⟩ sock).left := by
  have hread : (0 : Int) < ((p.payload.take bufferSize).length : Int) :=
    length_take_pos.mpr hp
  rw [handleRequestsWithLog, handleRequests]
  simp only [recvfrom_cons _ _ _ _ _ le_sizeofSockAddr, if_pos hread,
    Bool.false_eq_true, if_false, cstr_store_zeroed]
  exact ((does_log (expands_registration _ _) _ _).bind
    (does_updateAddress.bind ((does_put _).map _))).congr
      (and_congr_right fun _ => and_iff_left trivial)

/-- A receive that brings no byte -/
theorem does_handleRequests_idle {fd sock : Int} {lookup : Bool} {listener : Socket}
    (hread : ¬ 0 < (recvfrom listener false bufferSize .zero sizeofSockAddr).bytesRead) :
    Does (srv.handleRequestsWithLog stderr fd lookup listener sock) True
      (srv.handleRequests fd lookup listener sock).sent
      (srv.handleRequests fd lookup listener sock).left := by
  rw [handleRequestsWithLog, handleRequests]
  simp only [if_neg hread, Handled.left]
  split
  · next herror =>
      rw [herror]
      exact (does_shutDownLog (by decide) (by decide)).map _
  · next hquiet =>
      rw [Bool.eq_false_of_not_eq_true hquiet]
      exact does_pure _

/-- The lines about the datagram can be written. -/
def Logs (srv : SimpleRendezvousServer) (lookup : Bool) (p : Packet) : Prop :=
  p.payload ≠ [] → if lookup then srv.LogsLookup p else srv.LogsRegistration p

instance (lookup : Bool) : Decidable (srv.Logs lookup p) :=
  inferInstanceAs (Decidable (p.payload ≠ [] →
    if lookup then srv.LogsLookup p else srv.LogsRegistration p))

/-- `HandleRequests` comes back if it can log what it takes off the listener. -/
theorem does_handleRequests {fd sock : Int} {lookup : Bool} {listener : Socket} :
    Does (srv.handleRequestsWithLog stderr fd lookup listener sock)
      (∀ p rest, listener = ⟨p :: rest, none⟩ → srv.Logs lookup p)
      (srv.handleRequests fd lookup listener sock).sent
      (srv.handleRequests fd lookup listener sock).left := by
  by_cases htaken : ∃ p rest, listener = ⟨p :: rest, none⟩ ∧ p.payload ≠ []
  · obtain ⟨p, rest, rfl, hp⟩ := htaken
    have hlogs : (∀ p' rest', (⟨p :: rest, none⟩ : Socket) = ⟨p' :: rest', none⟩ →
        srv.Logs lookup p') ↔
        if lookup then srv.LogsLookup p else srv.LogsRegistration p := by
      constructor
      · exact fun h => h p rest rfl hp
      · intro h p' rest' heq
        cases heq
        exact fun _ => h
    cases lookup with
    | true => exact (does_handleRequests_lookup hp).congr hlogs.symm
    | false => exact (does_handleRequests_registration hp).congr hlogs.symm
  · have hread : ¬ 0 < (recvfrom listener false bufferSize .zero sizeofSockAddr).bytesRead := by
      intro hread
      obtain ⟨p, rest, heq, hp, _⟩ := recvfrom_pos hread
      exact htaken ⟨p, rest, heq, hp⟩
    refine (does_handleRequests_idle hread).congr (iff_of_true trivial ?_)
    intro p rest heq hp
    exact absurd ⟨p, rest, heq, hp⟩ htaken

/-- The server can log the datagram. -/
def LogsEvent (srv : SimpleRendezvousServer) : Event → Prop
  | .lookup p => srv.Logs true p
  | .registration p _ => srv.Logs false p

instance : Decidable (srv.LogsEvent e) := by
  cases e <;> unfold LogsEvent <;> infer_instance

theorem does_receive (e : Event) : Does (srv.receiveWithLog stderr e) (srv.LogsEvent e)
    (srv.receive e).sent (srv.next e) := by
  cases e with
  | lookup p =>
      refine (does_handleRequests.map fun r => r.2.1).congr ?_
      constructor
      · exact fun h => h p [] rfl
      · intro h p' rest heq
        cases heq
        exact h
  | registration p sock =>
      refine (does_handleRequests.map fun r => r.2.1).congr ?_
      constructor
      · exact fun h => h p [] rfl
      · intro h p' rest heq
        cases heq
        exact h

/-! ## The datagrams it can log -/

/-- The server can log the datagram with this on its board: the name has its `%`s
in pairs, and there is room for the line about it and, if it is registered, for
the line about each who watches it. -/
structure Loggable (b : Spec.Board LogicalAddress UInt32 UInt16) (e : Event) : Prop where
  lookup : ∀ who n, e.op? = some (.ask who n) → paired who.1 = true ∧
    (lookupText who.1 (addressText (b.loc n)) e.packet.src).length < bufferSize
  registration : ∀ n a, e.op? = some (.register n a) → paired n = true ∧
    (registrationText n e.packet.src).length < bufferSize ∧
    ∀ w ∈ b.watchers n, (updateText n (addressText (some a)) w.1
      (addressText ((b.apply (.register n a)).loc w.1)) w.2).length < bufferSize

/-- Whoever watches has a name that was logged when it asked. -/
def Voiced (b : Spec.Board LogicalAddress UInt32 UInt16) : Prop :=
  ∀ n, ∀ w ∈ b.watchers n, NulFree w.1 ∧ paired w.1 = true

theorem loggable_of_none (h : e.op? = none) : Loggable b e where
  lookup who n hop := by
    rw [h] at hop
    cases hop
  registration n a hop := by
    rw [h] at hop
    cases hop

theorem op?_lookup (hp : p.payload ≠ []) : (Event.lookup p).op? =
    some (.ask ((parseLookup p.text).1, p.src.sinPort) (parseLookup p.text).2) := by
  simp only [Event.op?, Event.lookup?, Event.registers?, if_neg hp]

theorem op?_registration (hp : p.payload ≠ []) (sock : Int) :
    (Event.registration p sock).op? = some (.register p.text p.src.sinAddr) := by
  simp only [Event.op?, Event.registers?, if_neg hp]

theorem name_of_ask {w : LogicalAddress × UInt16} (h : e.op? = some (.ask w n)) :
    w.1 = (parseLookup e.packet.text).1 := by
  cases e with
  | lookup p =>
      by_cases hp : p.payload = []
      · simp [Event.op?, Event.lookup?, Event.registers?, hp] at h
      · rw [op?_lookup hp] at h
        cases h
        rfl
  | registration p sock =>
      by_cases hp : p.payload = []
      · simp [Event.op?, Event.lookup?, Event.registers?, hp] at h
      · rw [op?_registration hp] at h
        cases h

theorem name_of_register {a : UInt32} (h : e.op? = some (.register n a)) :
    n = e.packet.text := by
  cases e with
  | lookup p =>
      by_cases hp : p.payload = []
      · simp [Event.op?, Event.lookup?, Event.registers?, hp] at h
      · rw [op?_lookup hp] at h
        cases h
  | registration p sock =>
      by_cases hp : p.payload = []
      · simp [Event.op?, Event.lookup?, Event.registers?, hp] at h
      · rw [op?_registration hp] at h
        cases h
        rfl

theorem nulFree_parseLookup {request : NetworkMsg} (h : NulFree request) :
    NulFree (parseLookup request).1 := by
  rw [parseLookup]
  cases Str.find request bar with
  | none => exact h
  | some i => exact h.take i

theorem Matches.logs_lookup_iff (hm : Matches srv b) (hp : p.payload ≠ []) :
    srv.LogsLookup p ↔ Loggable b (.lookup p) := by
  have hnames : (srv.lookupNames p).2 = addressText (b.loc (parseLookup p.text).2) :=
    changeSubscription_answer.trans (hm.text _)
  have hcstr : cstr (parseLookup p.text).1 = (parseLookup p.text).1 :=
    cstr_eq_self (nulFree_parseLookup (nulFree_cstr _))
  rw [LogsLookup, hnames]
  constructor
  · intro h
    refine ⟨fun who n hop => ?_, fun n a hop => ?_⟩
    · rw [op?_lookup hp] at hop
      cases hop
      have hpaired := h.paired
      rw [paired_lookupText] at hpaired
      exact ⟨hcstr ▸ hpaired, h.fits⟩
    · rw [op?_lookup hp] at hop
      cases hop
  · intro h
    obtain ⟨hpaired, hfits⟩ := h.lookup _ _ (op?_lookup hp)
    refine ⟨hfits, ?_⟩
    rw [paired_lookupText]
    exact hcstr.symm ▸ hpaired

/-- Where an update is sent is as the registration has left the board. -/
theorem Matches.told (hm : Matches srv b) (m n : LogicalAddress) (a : UInt32) :
    UnorderedMap.get (srv.registeredNames.insert n (intToIPString a.toInt32)) m =
      addressText ((b.apply (.register n a)).loc m) := by
  have htext := (hm.register (-1) n a).text m
  rw [← htext, updateAddress, get_pushUpdates]

theorem Matches.logs_registration_iff (hm : Matches srv b) (hv : Voiced b)
    (hp : p.payload ≠ []) (sock : Int) :
    srv.LogsRegistration p ↔ Loggable b (.registration p sock) := by
  have hcstr : cstr p.text = p.text := cstr_eq_self (nulFree_cstr _)
  constructor
  · rintro ⟨hline, hlines⟩
    refine ⟨fun who n hop => ?_, fun n a hop => ?_⟩
    · rw [op?_registration hp] at hop
      cases hop
    · rw [op?_registration hp] at hop
      cases hop
      have hpaired := hline.paired
      rw [paired_registrationText, hcstr] at hpaired
      refine ⟨hpaired, hline.fits, fun w hw => ?_⟩
      have hfits := (hlines ⟨w.1, w.2⟩ ((hm.watchers _ ⟨w.1, w.2⟩).mpr hw)).fits
      rwa [hm.told] at hfits
  · intro h
    obtain ⟨hpaired, hfits, hroom⟩ := h.registration _ _ (op?_registration hp sock)
    refine ⟨⟨hfits, ?_⟩, fun i hi => ?_⟩
    · rw [paired_registrationText, hcstr]
      exact hpaired
    · have hwatch := (hm.watchers p.text i).mp hi
      obtain ⟨hnul, hi'⟩ := hv _ _ hwatch
      have haddress : intToIPString p.src.sinAddr.toInt32 =
        addressText (some p.src.sinAddr) := rfl
      have hroom' := hroom _ hwatch
      rw [hm.told, haddress]
      refine ⟨hroom', ?_⟩
      rw [paired_updateText, hcstr, cstr_eq_self hnul, hpaired, hi']
      rfl

theorem Matches.logsEvent_iff (hm : Matches srv b) (hv : Voiced b) (e : Event) :
    srv.LogsEvent e ↔ Loggable b e := by
  cases e with
  | lookup p =>
      by_cases hp : p.payload = []
      · refine iff_of_true (fun h => absurd hp h) (loggable_of_none ?_)
        simp [Event.op?, Event.lookup?, Event.registers?, hp]
      · rw [← hm.logs_lookup_iff hp, LogsEvent, Logs]
        exact forall_prop_of_true hp
  | registration p sock =>
      by_cases hp : p.payload = []
      · refine iff_of_true (fun h => absurd hp h) (loggable_of_none ?_)
        simp [Event.op?, Event.lookup?, Event.registers?, hp]
      · rw [← hm.logs_registration_iff hv hp sock, LogsEvent, Logs]
        exact forall_prop_of_true hp

/-! ## A log of datagrams -/

/-- An operation on the board is that of one datagram. -/
theorem exists_event_of_ask {w : LogicalAddress × UInt16}
    (h : w ∈ (board es).watchers n) :
    ∃ pre e, pre ++ [e] <+: es ∧ e.op? = some (.ask w n) := by
  obtain ⟨e, he, hop⟩ := List.mem_filterMap.mp (Spec.Board.asked_of_watching h)
  obtain ⟨pre, rest, rfl⟩ := List.append_of_mem he
  exact ⟨pre, e, ⟨rest, by simp⟩, hop⟩

theorem nulFree_of_ask {w : LogicalAddress × UInt16} (h : e.op? = some (.ask w n)) :
    NulFree w.1 := by
  rw [name_of_ask h]
  exact nulFree_parseLookup (nulFree_cstr _)

theorem voiced_of_loggable
    (h : ∀ pre e, pre ++ [e] <+: es → Loggable (board pre) e) : Voiced (board es) := by
  intro n w hw
  obtain ⟨pre, e, hpre, hop⟩ := exists_event_of_ask hw
  exact ⟨nulFree_of_ask hop, ((h pre e hpre).lookup w n hop).1⟩

/-- A log of datagrams that a server lives through -/
def Lives (es : List Event) : Prop :=
  ∀ pre e, pre ++ [e] <+: es → Loggable (board pre) e

theorem lives_snoc : Lives (es ++ [e]) ↔ Lives es ∧ Loggable (board es) e :=
  forall_prefix_snoc

theorem goesOn_iff_lives (rl ll : Int) (es : List Event) :
    goesOn LogsEvent next (new rl ll) es ↔ Lives es := by
  rw [goesOn_iff]
  induction es using List.reverseRecOn with
  | nil =>
      refine iff_of_true (fun pre e h => ?_) fun pre e h => ?_
      · exact absurd (List.prefix_nil.mp h) (by simp)
      · exact absurd (List.prefix_nil.mp h) (by simp)
  | append_singleton es e ih =>
      rw [forall_prefix_snoc, lives_snoc, ih]
      refine and_congr_right fun h => ?_
      exact (matches_run rl ll es).logsEvent_iff (voiced_of_loggable h) e

theorem outs_eq_sends (es : List Event) :
    outs (fun srv e => (srv.receive e).sent) next srv es = srv.sends es := by
  induction es generalizing srv with
  | nil => rfl
  | cons e es ih => rw [outs, sends, ih]

/-- Over any datagrams from anybody the server does what it does without its log,
as far as it lives. -/
theorem does_run (rl ll : Int) (stderr : FilePtr) (es : List Event) :
    Does ((new rl ll).runWithLog stderr es) (Lives es) ((new rl ll).sends es)
      ((new rl ll).run es) := by
  have hrun : Does ((new rl ll).runWithLog stderr es) _ _ _ :=
    Does.foldl (fun _ e => does_receive e) (new rl ll) es
  rw [outs_eq_sends] at hrun
  exact hrun.congr (goesOn_iff_lives rl ll es)

/-! ## How long a name may be -/

theorem length_cstr_le (s : Bytes) : (cstr s).length ≤ s.length :=
  (List.takeWhile_sublist _).length_le

theorem length_sourceText_le (src : SockAddr) : (sourceText src).length ≤ 24 := by
  have haddress := length_percentD_le src.sinAddr.toInt32
  have hport := length_percentD_le (Int32.ofNat (htons src.sinPort).toNat)
  have hcolon : (ascii ":").length = 1 := rfl
  have hclose : (ascii ")").length = 1 := rfl
  simp only [sourceText, List.length_append, hcolon, hclose]
  omega

theorem length_lookupText_le (subscriber : LogicalAddress) (o : Option UInt32)
    (src : SockAddr) :
    (lookupText subscriber (addressText o) src).length ≤ subscriber.length + 69 := by
  have hname := length_cstr_le subscriber
  have hpeer := Nat.le_trans (length_cstr_le (addressText o)) (length_addressText_le o)
  have hsource := length_sourceText_le src
  have hbefore : (ascii "Sending RS lookup of <").length = 22 := by decide
  have hcomma : (ascii ", ").length = 2 := rfl
  have hto : (ascii "> to (").length = 6 := rfl
  simp only [lookupText, List.length_append, hbefore, hcomma, hto]
  omega

theorem length_registrationText_le (name : LogicalAddress) (src : SockAddr) :
    (registrationText name src).length ≤ name.length + 61 := by
  have hname := length_cstr_le name
  have hsource := length_sourceText_le src
  have hbefore : (ascii "Updating RS registration of <").length = 29 := by decide
  have hfrom : (ascii "> from (").length = 8 := by decide
  simp only [registrationText, List.length_append, hbefore, hfrom]
  omega

theorem length_updateText (name subscriber : LogicalAddress) (a o : Option UInt32)
    (port : UInt16) : (updateText name (addressText a) subscriber (addressText o) port).length =
      (cstr name).length + (cstr subscriber).length + (addressText a).length +
        (addressText o).length + (percentD (Int32.ofNat (htons port).toNat)).length + 27 := by
  have hbefore : (ascii "Sending update of ").length = 18 := by decide
  have hopen : (ascii "<").length = 1 := rfl
  have hto : (ascii "> to ").length = 5 := by decide
  have hparen : (ascii "(").length = 1 := rfl
  have hcolon : (ascii ":").length = 1 := rfl
  have hclose : (ascii ")").length = 1 := rfl
  simp only [updateText, List.length_append, hbefore, hopen, hto, hparen, hcolon, hclose,
    cstr_eq_self (nulFree_addressText a), cstr_eq_self (nulFree_addressText o)]
  omega

/-- A request that is read as a format and takes half the buffer at most. -/
def Modest (e : Event) : Prop := Brief e.packet.text

instance (e : Event) : Decidable (Modest e) := inferInstanceAs (Decidable (Brief _))

theorem paired_parseLookup {request : NetworkMsg} (h : paired request = true) :
    paired (parseLookup request).1 = true := by
  rw [parseLookup]
  by_cases hbar : bar ∈ request
  · obtain ⟨name, rest, rfl, hname⟩ := List.eq_append_cons_of_mem hbar
    rw [paired_append_cons (by decide), Bool.and_eq_true] at h
    rw [Str.upTo_find_append hname]
    exact h.1
  · rw [Str.find_eq_none.mpr hbar]
    exact h

theorem length_parseLookup_le (request : NetworkMsg) :
    (parseLookup request).1.length ≤ request.length := by
  rw [parseLookup]
  cases Str.find request bar with
  | none => exact Nat.le_refl _
  | some i => exact (List.take_sublist i request).length_le

theorem Modest.ask (h : Modest e) {w : LogicalAddress × UInt16}
    (hop : e.op? = some (.ask w n)) : paired w.1 = true ∧ w.1.length ≤ 2000 := by
  rw [name_of_ask hop]
  exact ⟨paired_parseLookup h.1, Nat.le_trans (length_parseLookup_le _) h.2⟩

theorem Modest.register (h : Modest e) {a : UInt32}
    (hop : e.op? = some (.register n a)) : paired n = true ∧ n.length ≤ 2000 := by
  rw [name_of_register hop]
  exact h

theorem loggable_of_ask {w : LogicalAddress × UInt16} (hop : e.op? = some (.ask w n))
    (hpaired : paired w.1 = true) (hlen : w.1.length ≤ 4000) : Loggable b e where
  lookup who m hop' := by
    rw [hop] at hop'
    cases hop'
    refine ⟨hpaired, Nat.lt_of_le_of_lt (length_lookupText_le _ _ _) ?_⟩
    rw [bufferSize]
    omega
  registration m a hop' := by
    rw [hop] at hop'
    cases hop'

theorem loggable_of_register {a : UInt32} (hop : e.op? = some (.register n a))
    (hpaired : paired n = true) (hlen : n.length ≤ 4000)
    (hroom : ∀ w ∈ b.watchers n, n.length + w.1.length ≤ 4000) : Loggable b e where
  lookup who m hop' := by
    rw [hop] at hop'
    cases hop'
  registration m a' hop' := by
    rw [hop] at hop'
    cases hop'
    refine ⟨hpaired, Nat.lt_of_le_of_lt (length_registrationText_le _ _) ?_, fun w hw => ?_⟩
    · rw [bufferSize]
      omega
    · have hboth := hroom w hw
      have hn := length_cstr_le n
      have hw1 := length_cstr_le w.1
      have ha := length_addressText_le (some a)
      have hloc := length_addressText_le ((b.apply (.register n a)).loc w.1)
      have hport := length_percentD_le (Int32.ofNat (htons w.2).toNat)
      rw [length_updateText, bufferSize]
      omega

theorem loggable_of_modest {pre : List Event} (h : ∀ e' ∈ pre ++ [e], Modest e') :
    Loggable (board pre) e := by
  have he := h e (List.mem_append_right _ (List.mem_singleton_self e))
  cases hop : e.op? with
  | none => exact loggable_of_none hop
  | some op =>
      cases op with
      | ask who n =>
          obtain ⟨hpaired, hlen⟩ := he.ask hop
          exact loggable_of_ask hop hpaired (Nat.le_trans hlen (by decide))
      | register n a =>
          obtain ⟨hpaired, hlen⟩ := he.register hop
          refine loggable_of_register hop hpaired (Nat.le_trans hlen (by decide)) ?_
          intro w hw
          obtain ⟨before, e', hbefore, hask⟩ := exists_event_of_ask hw
          have he' : Modest e' := h e' (List.mem_append_left _
            (hbefore.subset (List.mem_append_right _ (List.mem_singleton_self e'))))
          exact Nat.add_le_add hlen (he'.ask hask).2

theorem lives_of_modest (h : ∀ e ∈ es, Modest e) : Lives es := fun _ _ hpre =>
  loggable_of_modest fun e he => h e (hpre.subset he)

theorem le_length_updateText (hn : NulFree n) (hm : NulFree subscriber)
    (hlen : 4069 ≤ n.length + subscriber.length) :
    bufferSize ≤ (updateText n (addressText a) subscriber (addressText o) port).length := by
  rw [length_updateText, cstr_eq_self hn, cstr_eq_self hm, bufferSize]
  omega

/-- A lookup that the server lives through, and a registration that it does not
live through because of it -/
theorem not_lives_of_long {e' : Event} {w : LogicalAddress × UInt16} {a : UInt32}
    (hask : e.op? = some (.ask w n)) (hreg : e'.op? = some (.register n a))
    (hknown : n ∈ (board es).known) (hnew : w ∉ (board es).watchers n)
    (hlen : 4069 ≤ n.length + w.1.length) : ¬ Lives (es ++ [e] ++ [e']) := by
  intro hlives
  have hwatch : w ∈ (board (es ++ [e])).watchers n := by
    rw [board_snoc, hask]
    exact (Spec.Board.mem_watchers_ask_self hknown).mpr hnew
  have hfits := ((lives_snoc.mp hlives).2.registration n a hreg).2.2 w hwatch
  have hn : NulFree n := by
    rw [name_of_register hreg]
    exact nulFree_cstr _
  exact absurd hfits (Nat.not_lt.mpr (le_length_updateText hn (nulFree_of_ask hask) hlen))

/-- A server lives through exactly the logs in which its board lets it log each
datagram. Through all logs of modest requests; but a lookup it does live through
can make a registration deadly, if the two names take nearly the whole buffer. -/
theorem lives_iff (rl ll : Int) (stderr : FilePtr) (es : List Event) :
    (((new rl ll).runWithLog stderr es).Returns ↔ Lives es) ∧
    ((∀ e ∈ es, Modest e) → Lives es) ∧
    ∀ e e' w n a, e.op? = some (.ask w n) → e'.op? = some (.register n a) →
      n ∈ (board es).known → w ∉ (board es).watchers n →
      4069 ≤ n.length + w.1.length → ¬ Lives (es ++ [e] ++ [e']) :=
  ⟨(does_run rl ll stderr es).returns, lives_of_modest,
    fun _ _ _ _ _ => not_lives_of_long⟩

/-- A server is a board as long as it lives: after any datagrams that it lives
through its maps say what the board does, and what it sends for the next one, if the
board lets it log that too, is read off the board. Otherwise it ends on the way, and
has sent the first of these datagrams at most. -/
theorem traffic_of_board (rl ll : Int) (stderr : FilePtr) (es : List Event) (e : Event) :
    Does ((new rl ll).runWithLog stderr es) (Lives es) ((new rl ll).sends es)
      ((new rl ll).run es) ∧
    Matches ((new rl ll).run es) (board es) ∧
    (Lives es → ∃ sent, Does (((new rl ll).run es).receiveWithLog stderr e)
        (Loggable (board es) e) sent ((new rl ll).run (es ++ [e])) ∧
      (e.op? = none → sent = []) ∧
      (∀ who n, e.op? = some (.ask who n) → ∃ reply,
        sent = sendto ll reply e.packet.src ∧
        ∀ server, readReply ⟨server, reply⟩ = addressText ((board es).loc n)) ∧
      ∀ n a, e.op? = some (.register n a) →
        ∃ (told : List Subscriber) (reply : Bytes),
        told.Pairwise (· < ·) ∧
        (∀ i, i ∈ told ↔ (i.name, i.port) ∈ (board es).watchers n) ∧
        sent = (told.flatMap fun i => sendto e.updateSocket
          (intToIPString a.toInt32 ++ [0])
          (place ((board es).apply (.register n a)) i)) ++
            sendto rl reply e.packet.src) := by
  have hmatch := matches_run rl ll es
  refine ⟨does_run rl ll stderr es, hmatch, fun hlives =>
    ⟨(((new rl ll).run es).receive e).sent, ?_, sent_of_board rl ll es e⟩⟩
  rw [run_snoc]
  exact (does_receive e).congr (hmatch.logsEvent_iff (voiced_of_loggable hlives) e)

end SimpleRendezvousServer

end PermanentIP

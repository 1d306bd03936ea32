import PermanentIP.Applications.MessageLog
import PermanentIP.Proofs.EchoCalls
import PermanentIP.Proofs.PollCalls
import PermanentIP.Proofs.Printable

/-!
# The datagrams an application and its daemon live through

Both log what comes in on the application's socket. A message has to fit its line
and have its `%`s in pairs, or `PrintReceivedData` does not come back from it; the
line about sending it back is shorter and comes out whenever that one does. An
update has to fit its line, and with each outstanding message the line about
resending that. Wherever the lines come out the calls do what they do without them.
-/

namespace PermanentIP

open Lib

namespace SimpleMobileNode

variable {node : SimpleMobileNode} {stderr : FilePtr} {serverSize : Int → Int32}
  {sockets : Int → Socket} {st : PollState} {fd : Int} {ptr : Ptr}

/-! ## The daemon's lines -/

/-- What the log should say of an update -/
def updatingText (fd : Int) (old : UInt32) (location : Bytes) : Bytes :=
  ascii "Updating socket #" ++ (percentD (Int32.ofInt fd) ++
    (ascii "'s struct sockaddr from " ++ (percentD old.toInt32 ++
      (ascii " to " ++ location))))

/-- What it should say of a message that goes out once more -/
def resendingText (m : NetworkMsg) (location : Bytes) : Bytes :=
  ascii "Resending " ++ (cstr m ++ (ascii " to " ++ location))

theorem expands_updating (fd : Int) (old : UInt32) (buffer : Bytes) :
    Expands conversions (cstr updatingLogFormat)
      [.int (Int32.ofInt fd), .int old.toInt32, .str buffer]
      (updatingText fd old (cstr buffer)) := by
  have hformat : cstr updatingLogFormat = ascii "Updating socket #" ++
      percent :: 100 :: (ascii "'s struct sockaddr from " ++ percent :: 100 ::
        (ascii " to " ++ percent :: 115 :: [])) := by decide
  have hlocation : Expands conversions (percent :: 115 :: []) [.str buffer]
      (cstr buffer ++ []) := expands_str .nil
  rw [List.append_nil] at hlocation
  rw [hformat]
  exact .append (by decide) (expands_int (.append (by decide) (expands_int
    (.append (by decide) hlocation))))

theorem expands_resending (m : NetworkMsg) (buffer : Bytes) :
    Expands conversions (cstr resendingLogFormat) [.str m, .str buffer]
      (resendingText m (cstr buffer)) := by
  have hformat : cstr resendingLogFormat = ascii "Resending " ++
      percent :: 115 :: (ascii " to " ++ percent :: 115 :: []) := by decide
  have hlocation : Expands conversions (percent :: 115 :: []) [.str buffer]
      (cstr buffer ++ []) := expands_str .nil
  rw [List.append_nil] at hlocation
  rw [hformat]
  exact .append (by decide) (expands_str (.append (by decide) hlocation))

theorem printable_updating {old : UInt32} {location : Bytes} (h : Brief location) :
    Printable (updatingText fd old location) where
  fits := by
    have hsocket := length_percentD_le (Int32.ofInt fd)
    have hold := length_percentD_le old.toInt32
    have hbefore : (ascii "Updating socket #").length = 17 := by decide
    have hfrom : (ascii "'s struct sockaddr from ").length = 24 := by decide
    have hto : (ascii " to ").length = 4 := rfl
    have hlen := h.2
    simp only [updatingText, List.length_append, hbefore, hfrom, hto, bufferSize]
    omega
  paired := by
    rw [updatingText, paired_append_of_not_mem (by decide),
      paired_append_of_not_mem (percent_not_mem_percentD _),
      paired_append_of_not_mem (by decide),
      paired_append_of_not_mem (percent_not_mem_percentD _),
      paired_append_of_not_mem (by decide)]
    exact h.1

theorem printable_resending {m : NetworkMsg} {location : Bytes} (hm : Brief (cstr m))
    (h : Brief location) : Printable (resendingText m location) where
  fits := by
    have hbefore : (ascii "Resending ").length = 10 := rfl
    have hto : (ascii " to ").length = 4 := rfl
    have hmessage := hm.2
    have hlen := h.2
    simp only [resendingText, List.length_append, hbefore, hto, bufferSize]
    omega
  paired := by
    rw [resendingText, paired_append_of_not_mem (by decide),
      paired_append_append (by decide) (by decide), hm.1, h.1]
    rfl

/-- The lines about an update on this socket can be written. -/
structure LogsUpdate (node : SimpleMobileNode) (fd : Int) (ptr : Ptr)
    (location : Bytes) : Prop where
  updating : Printable (updatingText fd (node.deref ptr).sinAddr location)
  resending : ∀ m ∈ node.outstanding fd, Printable (resendingText m location)

instance (location : Bytes) : Decidable (node.LogsUpdate fd ptr location) :=
  decidable_of_iff (Printable (updatingText fd (node.deref ptr).sinAddr location) ∧
      ∀ m ∈ (node.outstanding fd).elems, Printable (resendingText m location))
    ⟨fun h => ⟨h.1, h.2⟩, fun h => ⟨h.1, h.2⟩⟩

/-! ## A call of `PollSubscriptions` -/

theorem does_resend {peer : SockAddr} {buffer : Bytes} {unsent : List NetworkMsg} :
    Does (resendWithLog stderr fd peer buffer unsent)
      (∀ m ∈ unsent, Printable (resendingText m (cstr buffer)))
      (unsent.flatMap fun m => sendto fd m peer) () := by
  induction unsent with
  | nil => exact (does_pure ()).congr (by simp)
  | cons m unsent ih =>
      refine ((does_log (expands_resending m buffer) stderr .warning).bind
        ((does_put _).bind ih)).congr ?_
      simp only [List.forall_mem_cons, true_and]

theorem does_shutDownLog {format : Bytes} (hpercent : percent ∉ cstr format)
    (hfits : (cstr format).length < bufferSize) :
    Does (shutDownLog stderr format) True [] () :=
  does_logShutDown ⟨by decide, by decide⟩ ⟨hpercent, hfits⟩ (does_pure ()) stderr

/-- The lines of a round on this socket can be written. -/
def LogsRound (serverSize : Int → Int32) (st : PollState) (fd : Int) (ptr : Ptr) :
    Prop :=
  st.node.isUpdate (st.peek serverSize fd) → ∀ p ∈ (st.sockets fd).queue.head?,
    st.node.LogsUpdate fd ptr p.text

instance : Decidable (LogsRound serverSize st fd ptr) :=
  inferInstanceAs (Decidable (_ → _))

theorem does_pollSocket :
    Does (pollSocketWithLog stderr serverSize st fd ptr) (LogsRound serverSize st fd ptr)
      ((pollSocket serverSize st fd ptr).sent.drop st.sent.length)
      (pollSocket serverSize st fd ptr) := by
  by_cases h : st.node.isUpdate (st.peek serverSize fd)
  · have hread : 0 < (st.peek serverSize fd).bytesRead := by
      simp only [isUpdate, Bool.and_eq_true, decide_eq_true_eq] at h
      exact h.1
    obtain ⟨p, rest, hs, hp, hpeek⟩ := recvfrom_pos hread
    obtain ⟨p', rest', hs', _, heq⟩ := pollSocket_of_isUpdate st ptr h
    rw [hs] at hs'
    cases hs'
    have hlogs : LogsRound serverSize st fd ptr ↔ st.node.LogsUpdate fd ptr p.text := by
      constructor
      · exact fun hround => hround h p (by rw [hs]; rfl)
      · intro hupdate _ q hq
        rw [hs] at hq
        cases hq
        exact hupdate
    rw [heq, List.drop_left]
    rw [PollState.peek] at h
    rw [pollSocketWithLog]
    simp only [h, if_true]
    rw [hpeek]
    simp only [if_true, recvfrom_cons _ _ _ _ _ le_sizeofSockAddr, store_store,
      cstr_store_zeroed, Function.update_idem, Bool.false_eq_true, if_false]
    have htext : cstr (store (p.payload.take bufferSize) zeroed) = p.text :=
      cstr_store_zeroed _
    have hupdating := expands_updating fd (st.node.deref ptr).sinAddr
      (store (p.payload.take bufferSize) zeroed)
    refine ((does_log hupdating stderr .warning).bind (does_resend.map fun _ => _)).congr ?_
    rw [hlogs, htext]
    exact ⟨fun h => ⟨h.1, h.2⟩, fun h => ⟨h.1, h.2⟩⟩
  · have hlogs : LogsRound serverSize st fd ptr := fun hround => absurd hround h
    rw [pollSocket_of_not_isUpdate st ptr h]
    rw [PollState.peek] at h ⊢
    rw [pollSocketWithLog]
    simp only [h, if_false, Bool.false_eq_true, List.drop_length]
    split
    · next herror =>
        rw [herror, Bool.or_true]
        exact ((does_shutDownLog (by decide) (by decide)).map fun _ => _).congr
          (iff_of_true trivial hlogs)
    · next hquiet =>
        rw [Bool.eq_false_of_not_eq_true hquiet, Bool.or_false]
        exact (does_pure _).congr (iff_of_true trivial hlogs)

/-- Each round's lines can be written when the loop comes to it. -/
def LogsPoll (node : SimpleMobileNode) (serverSize : Int → Int32)
    (sockets : Int → Socket) : Prop :=
  ∀ fd ptr, node.appSockets.lookup fd = some ptr →
    LogsRound serverSize (node.beforeSocket serverSize sockets fd) fd ptr

/-- Brief locations and brief messages leave room for every line. -/
theorem logsPoll_of_brief (houtstanding : ∀ fd, ∀ m ∈ node.outstanding fd, Brief (cstr m))
    (hqueued : ∀ fd, ∀ p ∈ (sockets fd).queue, Brief p.text) :
    node.LogsPoll serverSize sockets := by
  intro fd ptr _ _ p hhead
  have hsame : (node.beforeSocket serverSize sockets fd).node.outstanding fd =
      node.outstanding fd :=
    foldl_pollSocket_invariant (I := fun n => n.outstanding fd = node.outstanding fd)
      serverSize (fun _ _ _ _ h => outstanding_applyUpdate.trans h) _ _ rfl
  have hp : Brief p.text := by
    refine hqueued fd p (mem_queue_rounds serverSize
      (node.appSockets.entries.takeWhile (·.1 ≠ fd)) (node.pollStart sockets) ?_)
    exact List.mem_of_mem_head? hhead
  refine ⟨printable_updating hp, fun m hm => ?_⟩
  rw [hsame] at hm
  exact printable_resending (houtstanding fd m hm) hp

theorem sent_pollSocket (serverSize : Int → Int32) (st : PollState) (fd : Int) (ptr : Ptr) :
    st.sent <+: (pollSocket serverSize st fd ptr).sent := by
  by_cases h : st.node.isUpdate (st.peek serverSize fd)
  · obtain ⟨p, rest, _, _, heq⟩ := pollSocket_of_isUpdate st ptr h
    rw [heq]
    exact List.prefix_append _ _
  · simp only [pollSocket_of_not_isUpdate st ptr h, List.prefix_refl]

theorem does_pollSubscriptions :
    Does (node.pollSubscriptionsWithLog stderr serverSize sockets)
      (node.LogsPoll serverSize sockets) (node.pollSubscriptions serverSize sockets).sent
      (node.pollSubscriptions serverSize sockets) := by
  have hdoes : Does (node.pollSubscriptionsWithLog stderr serverSize sockets) _ _ _ :=
    Does.foldl (fun st (e : Sigma fun _ : Int => Ptr) => does_pollSocket) (node.pollStart sockets)
      node.appSockets.entries
  have hsent := record_foldl PollState.sent
    (fun st (e : Sigma fun _ : Int => Ptr) =>
      (List.prefix_iff_eq_append.mp (sent_pollSocket serverSize st e.1 e.2)).symm)
    (node.pollStart sockets) node.appSockets.entries
  have hlogs : goesOn (fun st (e : Sigma fun _ : Int => Ptr) =>
      LogsRound serverSize st e.1 e.2) (fun st e => pollSocket serverSize st e.1 e.2)
        (node.pollStart sockets) node.appSockets.entries ↔ node.LogsPoll serverSize sockets := by
    rw [goesOn_iff]
    constructor
    · intro h fd ptr hreg
      exact h _ ⟨fd, ptr⟩ (UnorderedMap.prefix_entries_iff.mpr
        ⟨AList.mem_lookup_iff.mp hreg, rfl⟩)
    · intro h pre e hpre
      obtain ⟨hmem, rfl⟩ := UnorderedMap.prefix_entries_iff.mp hpre
      exact h e.1 e.2 (AList.mem_lookup_iff.mpr hmem)
  have hputs : outs (fun st (e : Sigma fun _ : Int => Ptr) =>
      (pollSocket serverSize st e.1 e.2).sent.drop st.sent.length)
        (fun st e => pollSocket serverSize st e.1 e.2) (node.pollStart sockets)
        node.appSockets.entries = (node.pollSubscriptions serverSize sockets).sent :=
    hsent.symm
  rw [← hputs]
  exact hdoes.congr hlogs

end SimpleMobileNode

namespace EchoApp

variable {app : EchoApp} {stderr : FilePtr} {m : NetworkMsg} {src : SockAddr}
  {socket : Socket}

/-! ## The application's lines -/

/-- What the log should say of a message that has gone out -/
def sendingText (m : NetworkMsg) : Bytes :=
  ascii "Sending " ++ (cstr m ++ ascii " to our friend...")

/-- What it should say of a message that has come in -/
def receivedText (m : NetworkMsg) (src : SockAddr) : Bytes :=
  ascii "Received message '" ++ (cstr m ++ (ascii "' from " ++
    (percentD src.sinAddr.toInt32 ++ (ascii ":" ++
      percentD (Int32.ofNat (htons src.sinPort).toNat)))))

theorem expands_sending (m : NetworkMsg) :
    Expands conversions (cstr sendingLogFormat) [.str m] (sendingText m) := by
  have hformat : cstr sendingLogFormat = ascii "Sending " ++
      percent :: 115 :: ascii " to our friend..." := by decide
  rw [hformat]
  exact .append (by decide) (expands_str (expands_self (by decide)))

theorem expands_received (m : NetworkMsg) (src : SockAddr) :
    Expands conversions (cstr receivedLogFormat)
      [.str m, .int src.sinAddr.toInt32, .int (Int32.ofNat (htons src.sinPort).toNat)]
      (receivedText m src) := by
  have hformat : cstr receivedLogFormat = ascii "Received message '" ++
      percent :: 115 :: (ascii "' from " ++ percent :: 100 ::
        (ascii ":" ++ percent :: 100 :: [])) := by decide
  have hport : Expands conversions (percent :: 100 :: [])
      [.int (Int32.ofNat (htons src.sinPort).toNat)]
      (percentD (Int32.ofNat (htons src.sinPort).toNat) ++ []) := expands_int .nil
  rw [List.append_nil] at hport
  rw [hformat]
  exact .append (by decide) (expands_str (.append (by decide) (expands_int
    (.append (by decide) hport))))

theorem paired_sendingText : paired (sendingText m) = paired (cstr m) := by
  have hnil : paired [] = true := rfl
  rw [sendingText, paired_append_of_not_mem (by decide),
    ← List.append_nil (ascii " to our friend..."),
    paired_append_append (by decide) (by decide), hnil, Bool.and_true]

theorem paired_receivedText : paired (receivedText m src) = paired (cstr m) := by
  rw [receivedText, paired_append_of_not_mem (by decide),
    paired_append_append (by decide) (by decide),
    paired_append_of_not_mem (percent_not_mem_percentD _),
    paired_append_of_not_mem (by decide),
    paired_of_not_mem (percent_not_mem_percentD _), Bool.and_true]

/-- A message that can be logged when it comes in can be logged when it goes back. -/
theorem printable_sending_of_received (h : Printable (receivedText m src)) :
    Printable (sendingText m) where
  fits := by
    refine Nat.lt_of_le_of_lt ?_ h.fits
    have hsending : (ascii "Sending ").length = 8 := rfl
    have hfriend : (ascii " to our friend...").length = 17 := by decide
    have hreceived : (ascii "Received message '").length = 18 := by decide
    have hfrom : (ascii "' from ").length = 7 := rfl
    simp only [sendingText, receivedText, List.length_append, hsending, hfriend, hreceived,
      hfrom]
    omega
  paired := by
    have hpaired := h.paired
    rwa [paired_receivedText, ← paired_sendingText] at hpaired

theorem printable_received (h : Brief (cstr m)) : Printable (receivedText m src) where
  fits := by
    have haddress := length_percentD_le src.sinAddr.toInt32
    have hport := length_percentD_le (Int32.ofNat (htons src.sinPort).toNat)
    have hreceived : (ascii "Received message '").length = 18 := by decide
    have hfrom : (ascii "' from ").length = 7 := rfl
    have hcolon : (ascii ":").length = 1 := rfl
    have hlen := h.2
    simp only [receivedText, List.length_append, hreceived, hfrom, hcolon, bufferSize]
    omega
  paired := by
    rw [paired_receivedText]
    exact h.1

/-! ## Sending and receiving -/

/-- The line about the message can be written, if it goes out. -/
def LogsSend (app : EchoApp) (m : NetworkMsg) : Prop :=
  (m = app.keyword → app.received) → Printable (sendingText m)

instance : Decidable (app.LogsSend m) := inferInstanceAs (Decidable (_ → _))

theorem does_sendMessage (app : EchoApp) (stderr : FilePtr) (m : NetworkMsg)
    (peerInfo : Option SockAddr) :
    Does (app.sendMessageWithLog stderr m peerInfo)
      (app.LogsSend m) (app.sendMessage m peerInfo).2.1
      ((app.sendMessage m peerInfo).1, (app.sendMessage m peerInfo).2.2) := by
  have hgoes : app.transmit m peerInfo = none ↔ ¬ (m = app.keyword → app.received) := by
    rw [transmit]
    split
    · next hwaits => simpa using hwaits
    · next hgoes => simpa using hgoes
  rw [sendMessageWithLog, sendMessage]
  cases htransmit : app.transmit m peerInfo with
  | none =>
      refine (does_pure _).congr (iff_of_true trivial fun h => ?_)
      exact absurd h (hgoes.mp htransmit)
  | some s =>
      have hsent : m = app.keyword → app.received := by
        by_contra hwaits
        rw [hgoes.mpr hwaits] at htransmit
        cases htransmit
      obtain ⟨sent, app'⟩ := s
      refine (does_put_seq sent ((does_log (expands_sending m) stderr .debug).map
        fun _ => (true, app'.messageSent m))).congr ?_
      exact ⟨fun h _ => h, fun h => h hsent⟩

theorem does_handleMessage :
    Does (app.handleMessageWithLog stderr m src)
      (m ≠ app.keyword → Printable (receivedText m src))
      (app.handleMessage m src).1 (app.handleMessage m src).2 := by
  rw [handleMessageWithLog, handleMessage]
  split
  · next hne =>
      have hsend := (app.messageReceived m).does_sendMessage stderr m (some src)
      refine ((does_log (expands_received m src) stderr .success).bind
        (hsend.map fun s => s.2.messageReceived m)).congr ?_
      constructor
      · exact fun h _ => h.1
      · exact fun h => ⟨h hne, fun _ => printable_sending_of_received (h hne)⟩
  · next heq =>
      refine ((does_log_constant (by decide) (by decide) stderr .warning).map
        fun _ => _).congr ?_
      exact iff_of_true trivial fun hne => absurd hne heq

theorem does_shutDownLog {format : Bytes} (hpercent : percent ∉ cstr format)
    (hfits : (cstr format).length < bufferSize) :
    Does (shutDownLog stderr format) True [] () :=
  does_logShutDown ⟨by decide, by decide⟩ ⟨hpercent, hfits⟩
    (SimpleMobileNode.does_shutDownLog hpercent hfits) stderr

/-- The line about the message at the head of the queue can be written. -/
def LogsPrint (app : EchoApp) (socket : Socket) : Prop :=
  app.isRequest (peek socket) → ∀ p ∈ socket.queue.head?,
    p.text ≠ app.keyword → Printable (receivedText p.text p.src)

instance : Decidable (app.LogsPrint socket) := inferInstanceAs (Decidable (_ → _))

theorem logsPrint_of_brief (h : ∀ p ∈ socket.queue, Brief p.text) :
    app.LogsPrint socket := by
  intro _ p hhead _
  refine printable_received ?_
  have htext : cstr p.text = p.text := cstr_eq_self (nulFree_cstr _)
  rw [htext]
  exact h p (List.mem_of_mem_head? hhead)

/-- All that is left of a call but for what it sent -/
def Printed.left (r : Printed) : Bool × EchoApp × Socket := (r.ok, r.app, r.socket)

theorem does_printReceivedData :
    Does (app.printReceivedDataWithLog stderr socket) (app.LogsPrint socket)
      (app.printReceivedData socket).sent (app.printReceivedData socket).left := by
  by_cases h : app.isRequest (peek socket)
  · obtain ⟨p, rest, hs, hsrc, heq⟩ := printReceivedData_of_isRequest h
    subst hs
    have hlogs : (p.text ≠ app.keyword → Printable (receivedText p.text p.src)) ↔
        app.LogsPrint ⟨p :: rest, none⟩ := by
      constructor
      · intro hprints _ q hq
        cases hq
        exact hprints
      · exact fun hprints => hprints h p rfl
    rw [heq]
    rw [peek_cons] at h
    have hpeek := peek_cons p rest
    rw [peek] at hpeek
    rw [printReceivedDataWithLog, hpeek]
    simp only [h, if_true, recvfrom_cons _ _ _ _ _ le_sizeofSockAddr, store_store,
      cstr_store_zeroed, Bool.false_eq_true, if_false]
    exact (does_handleMessage.map fun app => (true, app, _)).congr hlogs
  · have hlogs : app.LogsPrint socket := fun hreq => absurd hreq h
    rw [peek] at h
    rw [printReceivedDataWithLog, printReceivedData]
    simp only [h, if_false, Bool.false_eq_true, Printed.left]
    split
    · next herror =>
        rw [herror]
        exact ((does_shutDownLog (by decide) (by decide)).map fun _ => _).congr
          (iff_of_true trivial hlogs)
    · next hquiet =>
        rw [Bool.eq_false_of_not_eq_true hquiet]
        exact (does_pure _).congr (iff_of_true trivial hlogs)

end EchoApp

end PermanentIP

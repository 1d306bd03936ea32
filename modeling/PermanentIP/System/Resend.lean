import PermanentIP.Proofs.EchoCalls
import PermanentIP.Lib.Run

/-!
# Sending while the peer moves

The application and the daemon at the grain of their single reads and writes.
`SendMessage` reads the peer's address and sends there, and later records the
message with `MessageSent`. An update writes the peer's address, later copies
the buffer of outstanding messages, and resends what the copy holds, one at a
time.

The two pairs can overlap. A message sent to the old address, whose
`MessageSent` comes after the copy, is in nobody's hands: the update resends
the copy, and the message was not in it. That is the only way to strand one.
`CopyFindsSent` is the condition on the state in which a copy is made that
rules it out: a `SendMessage` that is half done has sent to the address now
stored, or its message is in the buffer already. In every run whose copies meet
it, nothing is stranded (`transmitted_of_quiescent`), and one copy that does not
meet it is enough to strand a message (`stranded_of_copy`).
-/

namespace PermanentIP

open Lib SimpleMobileNode

namespace Resend

/-- A `SendMessage` between its `sendto` and its `MessageSent`: the arguments,
and where it sent to. -/
structure Sending where
  message : NetworkMsg
  peerInfo : Option SockAddr
  dst : Option SockAddr
deriving DecidableEq

/-- An update by the daemon: none under way, the address written and the buffer
not yet copied, or the copy being resent. -/
inductive Update where
  | idle
  | stored
  | resending (unsent : List NetworkMsg)
deriving DecidableEq

/-- `wire` is what was transmitted, each datagram with its message, and
`pending` what was sent to the peer and not acknowledged since. -/
structure State where
  app : EchoApp
  sending : Option Sending
  update : Update
  wire : List (NetworkMsg × Sent)
  pending : List NetworkMsg

def State.init (app : EchoApp) : State := ⟨app, none, .idle, [], []⟩

def State.peer (s : State) (ptr : Ptr) : SockAddr := s.app.mobileNode.deref ptr

def State.outstanding (s : State) : OrdSet NetworkMsg :=
  s.app.mobileNode.outstanding s.app.appSocket

inductive Action where
  | sendto (message : NetworkMsg) (peerInfo : Option SockAddr)
  | messageSent
  | messageReceived (message : NetworkMsg)
  | bury
  | store (update : Packet)
  | copy
  | resend

/-- The resend loop at its head. -/
def resendLoop : List NetworkMsg → Update
  | [] => .idle
  | unsent => .resending unsent

/-- One step of either thread, on the socket whose peer is at `ptr`. -/
def step (ptr : Ptr) (s : State) : Action → Option State
  | .sendto m peerInfo =>
      match s.sending, s.app.transmit m peerInfo with
      | some _, _ => none
      | none, none => some s
      | none, some (sent, app) =>
          some { s with
            app := app
            sending := some ⟨m, peerInfo, s.app.destination peerInfo⟩
            wire := s.wire ++ sent.map fun d => (m, d)
            pending := if peerInfo = none then m :: s.pending else s.pending }
  | .messageSent =>
      match s.sending with
      | none => none
      | some t =>
          some { s with app := s.app.messageSent t.message, sending := none }
  | .messageReceived m =>
      match s.sending with
      | some _ => none
      | none =>
          some { s with
            app := s.app.messageReceived m
            pending := s.pending.filter (· ≠ m) }
  | .bury =>
      match s.sending with
      | some _ => none
      | none => some { s with app := { s.app with received := true } }
  | .store p =>
      match s.update with
      | .idle =>
          let addr := (ipStringToInt p.text).toUInt32
          let node := s.app.mobileNode.setSinAddr ptr addr
          some { s with app := { s.app with mobileNode := node }, update := .stored }
      | .stored | .resending _ => none
  | .copy =>
      match s.update with
      | .stored =>
          let node := s.app.mobileNode
          let messages := UnorderedMap.touch node.appSocketMessages s.app.appSocket
          some { s with
            app := { s.app with
              mobileNode := { node with appSocketMessages := messages } }
            update := resendLoop s.outstanding.elems }
      | .idle | .resending _ => none
  | .resend =>
      match s.update with
      | .resending (m :: unsent) =>
          some { s with
            update := resendLoop unsent
            wire := s.wire ++
              (sendto s.app.appSocket m (s.peer ptr)).map fun d => (m, d) }
      | .resending [] | .idle | .stored => none

def Transmitted (s : State) (m : NetworkMsg) (addr : SockAddr) : Prop :=
  ∃ x ∈ s.wire, x.1 = m ∧ x.2.dst = addr

def Quiescent (s : State) : Prop := s.sending = none ∧ s.update = .idle

/-- What a copy needs: a `SendMessage` to the peer that is half done has sent
to the address now stored, or its message is in the buffer already. -/
def CopyFindsSent (ptr : Ptr) (s : State) : Action → Prop
  | .copy => ∀ t ∈ s.sending, t.peerInfo = none →
      t.dst = some (s.peer ptr) ∨ t.message ∈ s.outstanding
  | .sendto .. | .messageSent | .messageReceived _ | .bury | .store _ | .resend =>
      True

instance (ptr : Ptr) (s : State) (a : Action) :
    Decidable (CopyFindsSent ptr s a) := by
  cases a <;> unfold CopyFindsSent <;> infer_instance

/-- The app socket is open and the peer's `sockaddr` is where the daemon keeps
it, as `ConnectToPeer` leaves them. -/
structure Connected (ptr : Ptr) (app : EchoApp) : Prop where
  socket : 0 ≤ app.appSocket
  peerInfo : app.peerInfo = some ptr
  valid : ptr < app.mobileNode.heap.length

variable {ptr : Ptr} {app : EchoApp} {s u : State} {acts : List Action}
  {m : NetworkMsg} {addr : SockAddr} {unsent : List NetworkMsg}

/-! ## What a step can do -/

/-- What each step does where it is enabled. -/
inductive Stepped (ptr : Ptr) (s u : State) : Action → Prop
  | refused {m : NetworkMsg} {peerInfo : Option SockAddr} (hu : u = s) :
      Stepped ptr s u (.sendto m peerInfo)
  | sendto {m : NetworkMsg} {peerInfo : Option SockAddr} {sent : List Sent}
      {app : EchoApp} (hidle : s.sending = none)
      (ht : s.app.transmit m peerInfo = some (sent, app))
      (hu : u = { s with
        app := app
        sending := some ⟨m, peerInfo, s.app.destination peerInfo⟩
        wire := s.wire ++ sent.map fun d => (m, d)
        pending := if peerInfo = none then m :: s.pending else s.pending }) :
      Stepped ptr s u (.sendto m peerInfo)
  | messageSent {t : Sending} (ht : s.sending = some t)
      (hu : u = { s with app := s.app.messageSent t.message, sending := none }) :
      Stepped ptr s u .messageSent
  | messageReceived {m : NetworkMsg} (hidle : s.sending = none)
      (hu : u = { s with
        app := s.app.messageReceived m
        pending := s.pending.filter (· ≠ m) }) :
      Stepped ptr s u (.messageReceived m)
  | bury (hidle : s.sending = none)
      (hu : u = { s with app := { s.app with received := true } }) :
      Stepped ptr s u .bury
  | store {p : Packet} (hidle : s.update = .idle)
      (hu : u = { s with
        app := { s.app with mobileNode :=
          s.app.mobileNode.setSinAddr ptr (ipStringToInt p.text).toUInt32 }
        update := .stored }) :
      Stepped ptr s u (.store p)
  | copy (hstored : s.update = .stored)
      (hu : u = { s with
        app := { s.app with mobileNode := { s.app.mobileNode with
          appSocketMessages := UnorderedMap.touch
            s.app.mobileNode.appSocketMessages s.app.appSocket } }
        update := resendLoop s.outstanding.elems }) :
      Stepped ptr s u .copy
  | resend {m : NetworkMsg} {unsent : List NetworkMsg}
      (hup : s.update = .resending (m :: unsent))
      (hu : u = { s with
        update := resendLoop unsent
        wire := s.wire ++
          (PermanentIP.sendto s.app.appSocket m (s.peer ptr)).map
            fun d => (m, d) }) :
      Stepped ptr s u .resend

theorem stepped {a : Action} (hs : step ptr s a = some u) : Stepped ptr s u a := by
  cases a with
  | sendto m peerInfo =>
      rw [step] at hs
      split at hs
      · cases hs
      · exact .refused (Option.some.inj hs).symm
      · next hidle ht => exact .sendto hidle ht (Option.some.inj hs).symm
  | messageSent =>
      rw [step] at hs
      split at hs
      · cases hs
      · next ht => exact .messageSent ht (Option.some.inj hs).symm
  | messageReceived m =>
      rw [step] at hs
      split at hs
      · cases hs
      · next hidle => exact .messageReceived hidle (Option.some.inj hs).symm
  | bury =>
      rw [step] at hs
      split at hs
      · cases hs
      · next hidle => exact .bury hidle (Option.some.inj hs).symm
  | store p =>
      rw [step] at hs
      split at hs
      · next hidle => exact .store hidle (Option.some.inj hs).symm
      · cases hs
      · cases hs
  | copy =>
      rw [step] at hs
      split at hs
      · next hstored => exact .copy hstored (Option.some.inj hs).symm
      · cases hs
      · cases hs
  | resend =>
      rw [step] at hs
      split at hs
      · next hup => exact .resend hup (Option.some.inj hs).symm
      · cases hs
      · cases hs
      · cases hs

/-! ## What the invariant says -/

theorem Transmitted.mono (h : Transmitted s m addr)
    (hwire : ∀ x ∈ s.wire, x ∈ u.wire) : Transmitted u m addr := by
  obtain ⟨x, hx, hxm⟩ := h
  exact ⟨x, hwire x hx, hxm⟩

/-- What an update that has come this far still owes a pending message: nothing
once it is written and not copied, a place in the copy or a transmission while
it resends, a transmission when it is through. -/
def Update.Owes (transmitted : Prop) (m : NetworkMsg) : Update → Prop
  | .idle => transmitted
  | .stored => True
  | .resending unsent => transmitted ∨ m ∈ unsent

theorem owes_resendLoop {transmitted : Prop} :
    (resendLoop unsent).Owes transmitted m ↔ transmitted ∨ m ∈ unsent := by
  cases unsent with
  | nil => simp [resendLoop, Update.Owes]
  | cons m' unsent => rfl

theorem Update.Owes.mono {transmitted transmitted' : Prop} {update : Update}
    (h : update.Owes transmitted m) (himp : transmitted → transmitted') :
    update.Owes transmitted' m := by
  cases update with
  | idle => exact himp h
  | stored => trivial
  | resending unsent => exact h.imp_left himp

def HalfSent (s : State) (m : NetworkMsg) : Prop :=
  ∃ t, s.sending = some t ∧ t.message = m ∧ t.peerInfo = none

/-- A pending message is in the buffer or half sent, and a half-sent one has
gone out to where it was sent; so a copy that finds every half-sent message
sent to the new address, or in the buffer, leaves no pending message out. -/
structure SendInv (ptr : Ptr) (s : State) : Prop where
  connected : Connected ptr s.app
  sent : ∀ t, s.sending = some t → t.peerInfo = none →
    ∃ addr, t.dst = some addr ∧ Transmitted s t.message addr
  recorded : ∀ m ∈ s.pending, m ∈ s.outstanding ∨ HalfSent s m
  covered : ∀ m ∈ s.pending, s.update.Owes (Transmitted s m (s.peer ptr)) m

theorem sendInv_init (h : Connected ptr app) : SendInv ptr (.init app) where
  connected := h
  sent _ ht := by cases ht
  recorded _ hm := by cases hm
  covered _ hm := by cases hm

/-! ## One step of the application -/

theorem Connected.transmit (h : Connected ptr app) {app' : EchoApp}
    {sent : List Sent} (ht : app.transmit m none = some (sent, app')) :
    app.destination none = some (app.mobileNode.deref ptr) ∧
      sent = [⟨app.appSocket, app.mobileNode.deref ptr, m ++ [0]⟩] := by
  have hdst : app.destination none = some (app.mobileNode.deref ptr) := by
    rw [EchoApp.destination, h.peerInfo]
    rfl
  have hsock := h.socket
  rw [EchoApp.transmit] at ht
  split at ht
  · cases ht
  · simp only [Option.some.injEq, Prod.mk.injEq, hdst] at ht
    rw [sendto, if_neg (by omega)] at ht
    exact ⟨hdst, ht.1.symm⟩

theorem appSocket_transmit {app' : EchoApp} {sent : List Sent}
    {peerInfo : Option SockAddr}
    (ht : app.transmit m peerInfo = some (sent, app')) :
    app'.appSocket = app.appSocket ∧ app'.mobileNode = app.mobileNode ∧
      app'.peerInfo = app.peerInfo := by
  rw [EchoApp.transmit] at ht
  split at ht
  · cases ht
  · simp only [Option.some.injEq, Prod.mk.injEq] at ht
    rw [← ht.2]
    exact ⟨rfl, rfl, rfl⟩

/-- While nothing is half sent every pending message is in the buffer, and what
more goes out takes nothing away. -/
theorem SendInv.held (h : SendInv ptr s) (hidle : s.sending = none)
    (hpeer : u.peer ptr = s.peer ptr) (hout : u.outstanding = s.outstanding)
    (hupdate : u.update = s.update) (hwire : ∀ x ∈ s.wire, x ∈ u.wire) :
    ∀ m ∈ s.pending, m ∈ u.outstanding ∧
      u.update.Owes (Transmitted u m (u.peer ptr)) m := by
  intro m hm
  rw [hout, hupdate, hpeer]
  refine ⟨(h.recorded m hm).resolve_right fun hhalf => ?_,
    (h.covered m hm).mono fun htr => htr.mono hwire⟩
  obtain ⟨t, ht, _⟩ := hhalf
  rw [hidle] at ht
  cases ht

/-- A message goes out to the address now stored; it is half sent from then
on, and pending if it was for the peer. -/
theorem SendInv.sendto (h : SendInv ptr s) {peerInfo : Option SockAddr}
    (hs : step ptr s (.sendto m peerInfo) = some u) : SendInv ptr u := by
  cases stepped hs with
  | refused hu => exact hu ▸ h
  | sendto hidle ht hu =>
      obtain ⟨hsock, hnode, hpeerInfo⟩ := appSocket_transmit ht
      have hpeer : u.peer ptr = s.peer ptr := by
        rw [hu, State.peer, State.peer, hnode]
      have hout : u.outstanding = s.outstanding := by
        rw [hu, State.outstanding, State.outstanding, hnode, hsock]
      have hwire : ∀ x ∈ s.wire, x ∈ u.wire := by
        rw [hu]
        exact fun x hx => List.mem_append_left _ hx
      have hold := h.held hidle hpeer hout (by rw [hu]) hwire
      have hconnected : Connected ptr u.app := by
        rw [hu]
        exact ⟨by rw [hsock]; exact h.connected.socket,
          by rw [hpeerInfo]; exact h.connected.peerInfo,
          by rw [hnode]; exact h.connected.valid⟩
      cases peerInfo with
      | some addr =>
          have hpending : u.pending = s.pending := by rw [hu]; rfl
          refine ⟨hconnected, fun t ht' hnone => ?_, fun m' hm' => ?_,
            fun m' hm' => ?_⟩
          · rw [hu] at ht'
            injection ht' with ht'
            rw [← ht'] at hnone
            cases hnone
          · rw [hpending] at hm'
            exact Or.inl (hold m' hm').1
          · rw [hpending] at hm'
            exact (hold m' hm').2
      | none =>
          obtain ⟨hdst, hsent⟩ := h.connected.transmit ht
          have hnew : Transmitted u m (s.peer ptr) := by
            rw [hu, hsent]
            exact ⟨_, List.mem_append_right _ List.mem_cons_self, rfl, rfl⟩
          have hsending : u.sending = some ⟨m, none, some (s.peer ptr)⟩ := by
            rw [hu]
            simp only [hdst]
            rfl
          have hpending : u.pending = m :: s.pending := by rw [hu]; rfl
          refine ⟨hconnected, fun t ht' _ => ?_, fun m' hm' => ?_,
            fun m' hm' => ?_⟩
          · rw [hsending] at ht'
            injection ht' with ht'
            rw [← ht']
            exact ⟨s.peer ptr, rfl, hnew⟩
          · rw [hpending] at hm'
            rcases List.mem_cons.mp hm' with rfl | hm'
            · exact Or.inr ⟨_, hsending, rfl, rfl⟩
            · exact Or.inl (hold m' hm').1
          · rw [hpending] at hm'
            rcases List.mem_cons.mp hm' with rfl | hm'
            · rw [hpeer]
              cases u.update with
              | idle => exact hnew
              | stored => trivial
              | resending unsent => exact Or.inl hnew
            · exact (hold m' hm').2

theorem SendInv.messageSent (h : SendInv ptr s)
    (hs : step ptr s .messageSent = some u) : SendInv ptr u := by
  cases stepped hs with
  | @messageSent t ht hu =>
      subst hu
      refine ⟨⟨h.connected.socket, h.connected.peerInfo, h.connected.valid⟩,
        fun t' ht' _ => (by cases ht'), fun m hm => Or.inl ?_, h.covered⟩
      show m ∈ (s.app.mobileNode.messageSent _ _).outstanding s.app.appSocket
      rw [mem_outstanding_messageSent]
      rcases h.recorded m hm with hout | ⟨t', ht', hm', _⟩
      · exact Or.inr hout
      · rw [ht] at ht'
        injection ht' with ht'
        exact Or.inl ⟨rfl, by rw [ht', hm']⟩

theorem SendInv.messageReceived (h : SendInv ptr s)
    (hs : step ptr s (.messageReceived m) = some u) : SendInv ptr u := by
  cases stepped hs with
  | messageReceived _ hu =>
      subst hu
      refine ⟨⟨h.connected.socket, h.connected.peerInfo, h.connected.valid⟩,
        h.sent, fun m' hm' => ?_, fun m' hm' => ?_⟩
      · rcases h.recorded m' (List.mem_of_mem_filter hm') with hout | hhalf
        · left
          show m' ∈ (s.app.mobileNode.messageReceived s.app.appSocket
            m).outstanding s.app.appSocket
          rw [outstanding_messageReceived]
          exact hout
        · exact Or.inr hhalf
      · exact h.covered m' (List.mem_of_mem_filter hm')

theorem SendInv.bury (h : SendInv ptr s) (hs : step ptr s .bury = some u) :
    SendInv ptr u := by
  cases stepped hs with
  | bury _ hu =>
      subst hu
      exact ⟨⟨h.connected.socket, h.connected.peerInfo, h.connected.valid⟩,
        h.sent, h.recorded, h.covered⟩

/-! ## One step of the daemon -/

/-- The new address owes every pending message, until the copy is made. -/
theorem SendInv.store (h : SendInv ptr s) {p : Packet}
    (hs : step ptr s (.store p) = some u) : SendInv ptr u := by
  cases stepped hs with
  | store _ hu =>
      subst hu
      refine ⟨⟨h.connected.socket, h.connected.peerInfo, ?_⟩, h.sent, h.recorded,
        fun m hm => trivial⟩
      show ptr < (s.app.mobileNode.setSinAddr ptr _).heap.length
      rw [length_heap_setSinAddr]
      exact h.connected.valid

/-- The copy holds every pending message but one that is half sent, and that
one has gone out to the new address if the copy's condition was met. -/
theorem SendInv.copy (h : SendInv ptr s) (hfind : CopyFindsSent ptr s .copy)
    (hs : step ptr s .copy = some u) : SendInv ptr u := by
  cases stepped hs with
  | copy _ hu =>
      have hpeer : u.peer ptr = s.peer ptr := by rw [hu]; rfl
      have hpending : u.pending = s.pending := by rw [hu]
      have hout : u.outstanding = s.outstanding := by
        rw [hu]
        exact UnorderedMap.get_touch _ _ _
      have hupdate : u.update = resendLoop s.outstanding.elems := by rw [hu]
      have htr : ∀ m addr, Transmitted u m addr ↔ Transmitted s m addr := by
        intro m addr
        rw [hu]
        exact Iff.rfl
      have hsending : u.sending = s.sending := by rw [hu]
      have hconnected : Connected ptr u.app := by
        rw [hu]
        exact ⟨h.connected.socket, h.connected.peerInfo, h.connected.valid⟩
      refine ⟨hconnected, fun t ht hnone => ?_, fun m hm => ?_, fun m hm => ?_⟩
      · rw [hsending] at ht
        obtain ⟨addr, hdst, hsent⟩ := h.sent t ht hnone
        exact ⟨addr, hdst, (htr _ _).mpr hsent⟩
      · rw [hpending] at hm
        rw [hout, HalfSent, hsending]
        exact h.recorded m hm
      · rw [hpending] at hm
        rw [hupdate, owes_resendLoop, htr, hpeer]
        rcases h.recorded m hm with hmem | ⟨t, ht, hmt, hnone⟩
        · exact Or.inr hmem
        · rcases hfind t ht hnone with hdst | hmem
          · obtain ⟨addr, hdst', hsent⟩ := h.sent t ht hnone
            rw [hdst] at hdst'
            injection hdst' with hdst'
            rw [hdst', ← hmt]
            exact Or.inl hsent
          · exact Or.inr (hmt ▸ hmem)

theorem SendInv.resend (h : SendInv ptr s) (hs : step ptr s .resend = some u) :
    SendInv ptr u := by
  cases stepped hs with
  | @resend m unsent hup hu =>
      have hsock := h.connected.socket
      have hwire : ∀ x ∈ s.wire, x ∈ u.wire := by
        rw [hu]
        exact fun x hx => List.mem_append_left _ hx
      have hnew : Transmitted u m (s.peer ptr) := by
        rw [hu]
        refine ⟨(m, ⟨s.app.appSocket, s.peer ptr, m⟩), ?_, rfl, rfl⟩
        rw [PermanentIP.sendto, if_neg (by omega)]
        exact List.mem_append_right _ List.mem_cons_self
      refine ⟨by rw [hu]; exact h.connected, fun t ht hnone => ?_,
        by rw [hu]; exact h.recorded, fun m' hm' => ?_⟩
      · rw [hu] at ht
        obtain ⟨addr, hdst, hsent⟩ := h.sent t ht hnone
        exact ⟨addr, hdst, hsent.mono hwire⟩
      · rw [hu] at hm'
        have hcov := h.covered m' hm'
        rw [hup] at hcov
        have hgoal : (resendLoop unsent).Owes (Transmitted u m' (s.peer ptr)) m' := by
          rw [owes_resendLoop]
          rcases hcov with htr | hmem
          · exact Or.inl (htr.mono hwire)
          · rcases List.mem_cons.mp hmem with rfl | hmem
            · exact Or.inl hnew
            · exact Or.inr hmem
        rw [hu] at hgoal ⊢
        exact hgoal

/-! ## Runs -/

theorem SendInv.step {a : Action} (h : SendInv ptr s)
    (hfind : CopyFindsSent ptr s a) (hs : step ptr s a = some u) :
    SendInv ptr u := by
  cases a with
  | sendto m peerInfo => exact h.sendto hs
  | messageSent => exact h.messageSent hs
  | messageReceived m => exact h.messageReceived hs
  | bury => exact h.bury hs
  | store p => exact h.store hs
  | copy => exact h.copy hfind hs
  | resend => exact h.resend hs

/-- Where every copy meets its condition, no message is stranded: with nothing
half done, what was sent to the peer and not acknowledged since has gone out to
the address now stored. -/
theorem transmitted_of_quiescent (hc : Connected ptr app)
    (h : Run (Resend.step ptr) (CopyFindsSent ptr) (.init app) acts s)
    (hq : Quiescent s) : ∀ m ∈ s.pending, Transmitted s m (s.peer ptr) := by
  intro m hm
  have hinv : SendInv ptr s :=
    h.invariant (sendInv_init hc) fun _ _ _ ht hfind hs => ht.step hfind hs
  have hcov := hinv.covered m hm
  rw [hq.2] at hcov
  exact hcov

/-- The node A with its socket open and its peer at 1.2.3.5. -/
def connectedSample : EchoApp :=
  (EchoApp.sample.registerPeer (ascii "1.2.3.4")
    (ascii "1.2.3.5")).fillPeerContainer

theorem connected_of_retryLoop {answers : List (PhysicalAddress × PhysicalAddress)} :
    ∀ {app app' : EchoApp} {backoff : Nat}, 0 ≤ app.appSocket →
      app.retryLoop backoff answers = some (true, app') →
      ∃ ptr, Connected ptr app' := by
  induction answers with
  | nil =>
      intro app app' backoff _ h
      cases h
  | cons answer answers ih =>
      intro app app' backoff hsock h
      obtain ⟨rsAddr, peerLoc⟩ := answer
      rw [EchoApp.retryLoop] at h
      rcases app.registerPeer_cases rsAddr peerLoc with ⟨_, _, heq⟩ | ⟨_, heq⟩
      · rw [heq] at h
        simp only [reduceCtorEq, if_false, Option.some.injEq, Prod.mk.injEq,
          true_and] at h
        subst h
        refine ⟨app.mobileNode.heap.length, hsock, rfl, ?_⟩
        show _ < (List.set (app.mobileNode.heap ++ [_]) _ _).length
        rw [List.length_set, List.length_append, List.length_singleton]
        exact Nat.lt_succ_self _
      · rw [heq] at h
        simp only [if_true] at h
        split at h
        · cases h
        · have hsock' : 0 ≤ ({ app with peerInfo := none } : EchoApp).appSocket :=
            hsock
          exact ih hsock' h

theorem connected_of_connectToPeer {app' : EchoApp} {calls : EchoApp.SocketSetUp}
    {answers : List (PhysicalAddress × PhysicalAddress)}
    (h : app.connectToPeer calls answers = some (true, app')) :
    ∃ ptr, Connected ptr app' := by
  rw [EchoApp.connectToPeer] at h
  split at h
  · next hok =>
      refine connected_of_retryLoop ?_ h
      simp only [EchoApp.SocketSetUp.ok, Bool.and_eq_true, decide_eq_true_eq] at hok
      exact hok.1.1.1.1
  · cases h

theorem connected_sample : Connected 0 connectedSample :=
  ⟨by decide +kernel, by decide +kernel, by decide +kernel⟩

instance (s : State) (m : NetworkMsg) (addr : SockAddr) :
    Decidable (Transmitted s m addr) :=
  inferInstanceAs (Decidable (∃ x ∈ s.wire, x.1 = m ∧ x.2.dst = addr))

instance (s : State) : Decidable (Quiescent s) :=
  inferInstanceAs (Decidable (_ ∧ _))

/-- A message sent and recorded before the copy goes out again. -/
theorem transmitted_of_quiescent_example : ∃ s,
    exec (step 0) (CopyFindsSent 0) (.init connectedSample)
      [.sendto (ascii "hi") none, .store ⟨⟨netV4, 5, 4⟩, ascii "1.2.3.6"⟩,
        .messageSent, .copy, .resend] = some s ∧
    ∀ m ∈ s.pending, Transmitted s m (s.peer 0) := by
  have hend : ∀ s ∈ exec (step 0) (CopyFindsSent 0) (.init connectedSample)
      [.sendto (ascii "hi") none, .store ⟨⟨netV4, 5, 4⟩, ascii "1.2.3.6"⟩,
        .messageSent, .copy, .resend], Quiescent s := by
    decide +kernel
  obtain ⟨s, hs, hrun, hq⟩ := Run.exists_of_exec hend (by decide +kernel)
  exact ⟨s, hs, transmitted_of_quiescent connected_sample hrun hq⟩

/-- The message goes out to 1.2.3.5, the peer moves to 1.2.3.6, and the copy is
made before the message is recorded. -/
def strandingActions : List Action :=
  [.sendto (ascii "hi") none, .store ⟨⟨netV4, 5, 4⟩, ascii "1.2.3.6"⟩, .copy,
    .messageSent]

/-- Without the condition on copies, a message is stranded. -/
theorem message_stranded : ¬ ∀ acts s,
    Run (step 0) Always (.init connectedSample) acts s → Quiescent s →
      ∀ m ∈ s.pending, Transmitted s m (s.peer 0) := by
  intro h
  have hend : ∀ s ∈ exec (step 0) Always (.init connectedSample)
      strandingActions, Quiescent s ∧ ascii "hi" ∈ s.pending ∧
        ¬ Transmitted s (ascii "hi") (s.peer 0) := by
    decide +kernel
  obtain ⟨s, _, hrun, hq, hm, hlost⟩ := Run.exists_of_exec hend (by decide +kernel)
  exact hlost (h _ s hrun hq _ hm)

/-! ## One bad copy is enough -/

/-- In any run at all: what went out is in the buffer, or is the half-sent
message, where it was sent; a half-sent message is pending; and a copy holds
messages of the buffer. -/
structure WireInv (s : State) : Prop where
  wire : ∀ x ∈ s.wire, x.1 ∈ s.outstanding ∨
    ∃ t, s.sending = some t ∧ t.message = x.1 ∧ t.dst = some x.2.dst
  pending : ∀ t, s.sending = some t → t.peerInfo = none → t.message ∈ s.pending
  unsent : ∀ unsent, s.update = .resending unsent →
    ∀ m ∈ unsent, m ∈ s.outstanding

theorem wireInv_init : WireInv (.init app) where
  wire _ hx := by cases hx
  pending _ ht := by cases ht
  unsent _ h := by cases h

theorem dst_of_transmit {app' : EchoApp} {sent : List Sent}
    {peerInfo : Option SockAddr}
    (ht : app.transmit m peerInfo = some (sent, app')) {d : Sent} (hd : d ∈ sent) :
    app.destination peerInfo = some d.dst := by
  rw [EchoApp.transmit] at ht
  split at ht
  · cases ht
  · simp only [Option.some.injEq, Prod.mk.injEq] at ht
    rw [← ht.1] at hd
    split at hd
    · next addr haddr => rw [haddr, dst_of_mem_sendto hd]
    · cases hd

theorem WireInv.keep (h : WireInv s) (hout : u.outstanding = s.outstanding)
    (hwire : u.wire = s.wire) (hsending : u.sending = s.sending)
    (hpending : ∀ t, s.sending = some t → u.pending = s.pending)
    (hunsent : ∀ unsent, u.update = .resending unsent →
      ∀ m ∈ unsent, m ∈ s.outstanding) : WireInv u where
  wire x hx := by
    rw [hout, hsending]
    rw [hwire] at hx
    exact h.wire x hx
  pending t ht hnone := by
    rw [hsending] at ht
    rw [hpending t ht]
    exact h.pending t ht hnone
  unsent unsent hup m hm := by
    rw [hout]
    exact hunsent unsent hup m hm

theorem eq_of_resendLoop {unsent' : List NetworkMsg}
    (h : resendLoop unsent = .resending unsent') : unsent = unsent' := by
  cases unsent with
  | nil => cases h
  | cons m unsent =>
      injection h

theorem WireInv.sendto (h : WireInv s) {peerInfo : Option SockAddr}
    (hs : step ptr s (.sendto m peerInfo) = some u) : WireInv u := by
  cases stepped hs with
  | refused hu => exact hu ▸ h
  | sendto hidle ht hu =>
      obtain ⟨hsock, hnode, _⟩ := appSocket_transmit ht
      have hout : u.outstanding = s.outstanding := by
        rw [hu, State.outstanding, State.outstanding, hnode, hsock]
      refine ⟨fun x hx => ?_, fun t ht' hnone => ?_, fun unsent hup m' hm' => ?_⟩
      · rw [hout]
        rw [hu] at hx ⊢
        rcases List.mem_append.mp hx with hx | hx
        · left
          refine (h.wire x hx).resolve_right ?_
          intro hhalf
          obtain ⟨t, ht', _⟩ := hhalf
          rw [hidle] at ht'
          cases ht'
        · obtain ⟨d, hd, rfl⟩ := List.mem_map.mp hx
          exact Or.inr ⟨_, rfl, rfl, dst_of_transmit ht hd⟩
      · rw [hu] at ht' ⊢
        injection ht' with ht'
        subst ht'
        simp only at hnone
        simp [hnone]
      · rw [hout]
        rw [hu] at hup
        exact h.unsent unsent hup m' hm'

theorem WireInv.messageSent (h : WireInv s)
    (hs : step ptr s .messageSent = some u) : WireInv u := by
  cases stepped hs with
  | @messageSent t ht hu =>
      have hout : ∀ m', m' ∈ u.outstanding ↔
          m' = t.message ∨ m' ∈ s.outstanding := by
        intro m'
        rw [hu]
        refine mem_outstanding_messageSent.trans ?_
        show (s.app.appSocket = s.app.appSocket ∧ _) ∨ m' ∈ s.outstanding ↔ _
        simp only [true_and]
      refine ⟨fun x hx => Or.inl ?_, fun t' ht' _ => ?_,
        fun unsent hup m' hm' => ?_⟩
      · rw [hout]
        rw [hu] at hx
        rcases h.wire x hx with hmem | ⟨t', ht', hm', _⟩
        · exact Or.inr hmem
        · rw [ht] at ht'
          injection ht' with ht'
          exact Or.inl (by rw [ht', hm'])
      · rw [hu] at ht'
        cases ht'
      · rw [hout]
        rw [hu] at hup
        exact Or.inr (h.unsent unsent hup m' hm')

theorem WireInv.copy (h : WireInv s) (hs : step ptr s .copy = some u) :
    WireInv u := by
  cases stepped hs with
  | copy _ hu =>
      have hout : u.outstanding = s.outstanding := by
        rw [hu]
        exact UnorderedMap.get_touch _ _ _
      have hunsent : u.update = resendLoop s.outstanding.elems := by rw [hu]
      refine h.keep hout (by rw [hu]) (by rw [hu]) (fun _ _ => by rw [hu]) ?_
      intro unsent hup m hm
      rw [← eq_of_resendLoop (hunsent.symm.trans hup)] at hm
      exact hm

theorem WireInv.resend (h : WireInv s) (hs : step ptr s .resend = some u) :
    WireInv u := by
  cases stepped hs with
  | @resend m unsent hup hu =>
      have hout : u.outstanding = s.outstanding := by rw [hu]; rfl
      have hunsent : u.update = resendLoop unsent := by rw [hu]
      refine ⟨fun x hx => ?_, ?_, fun unsent' hup' m' hm' => ?_⟩
      · rw [hout]
        rw [hu] at hx ⊢
        rcases List.mem_append.mp hx with hx | hx
        · exact h.wire x hx
        · obtain ⟨d, _, rfl⟩ := List.mem_map.mp hx
          exact Or.inl (h.unsent _ hup m List.mem_cons_self)
      · rw [hu]
        exact h.pending
      · rw [hout]
        rw [← eq_of_resendLoop (hunsent.symm.trans hup')] at hm'
        exact h.unsent _ hup m' (List.mem_cons_of_mem _ hm')

theorem WireInv.step {a : Action} (h : WireInv s)
    (hs : step ptr s a = some u) : WireInv u := by
  cases a with
  | sendto m peerInfo => exact h.sendto hs
  | messageSent => exact h.messageSent hs
  | messageReceived m =>
      cases stepped hs with
      | messageReceived hidle hu =>
          subst hu
          refine h.keep (outstanding_messageReceived (m := m)) rfl rfl ?_ h.unsent
          intro t ht
          rw [hidle] at ht
          cases ht
  | bury =>
      cases stepped hs with
      | bury _ hu =>
          subst hu
          exact h.keep rfl rfl rfl (fun _ _ => rfl) h.unsent
  | store p =>
      cases stepped hs with
      | store _ hu =>
          subst hu
          exact h.keep rfl rfl rfl (fun _ _ => rfl) (fun _ hup => by cases hup)
  | copy => exact h.copy hs
  | resend => exact h.resend hs

def resent (s : State) (ptr : Ptr) (unsent : List NetworkMsg) :
    List (NetworkMsg × Sent) :=
  unsent.flatMap fun m =>
    (sendto s.app.appSocket m (s.peer ptr)).map fun d => (m, d)

theorem run_resends (ptr : Ptr) (unsent : List NetworkMsg) :
    ∀ s : State, s.update = resendLoop unsent →
      Run (Resend.step ptr) Always s (List.replicate unsent.length .resend)
        { s with update := .idle, wire := s.wire ++ resent s ptr unsent } := by
  induction unsent with
  | nil =>
      intro s hup
      have heq : { s with update := Update.idle, wire := s.wire ++ resent s ptr [] } =
          s := by
        cases s
        simp only [resendLoop] at hup
        simp [resent, hup]
      rw [heq]
      exact .nil
  | cons m unsent ih =>
      intro s hup
      have hs : Resend.step ptr s .resend = some { s with
          update := resendLoop unsent
          wire := s.wire ++
            (sendto s.app.appSocket m (s.peer ptr)).map fun d => (m, d) } := by
        rw [Resend.step, hup]
        rfl
      have hrest := (ih _ rfl).cons trivial hs
      simp only [resent, List.flatMap_cons, ← List.append_assoc] at hrest ⊢
      exact hrest

theorem map_snd_resent (s : State) (ptr : Ptr) (unsent : OrdSet NetworkMsg) :
    (resent s ptr unsent.elems).map Prod.snd =
      SimpleMobileNode.resend s.app.appSocket (s.peer ptr) unsent := by
  rw [resent, SimpleMobileNode.resend, List.map_flatMap]
  refine List.flatMap_congr fun m _ => ?_
  rw [List.map_map]
  exact List.map_id _

theorem sendMessage_eq_steps (peerInfo : Option SockAddr)
    (hidle : s.sending = none) :
    ((Resend.step ptr s (.sendto m peerInfo)).bind fun u =>
        if u.sending.isSome then Resend.step ptr u .messageSent else some u).map
          (fun u => (u.app, u.wire)) =
      some ((s.app.sendMessage m peerInfo).2.2,
        s.wire ++ (s.app.sendMessage m peerInfo).2.1.map fun d => (m, d)) := by
  rw [Resend.step, EchoApp.sendMessage]
  split
  · next t hs =>
      rw [hidle] at hs
      cases hs
  · next ht =>
      simp only [ht, Option.bind_some, hidle, Option.isSome_none,
        Bool.false_eq_true, if_false, Option.map_some, List.map_nil,
        List.append_nil]
  · next sent app' _ ht =>
      simp only [ht, Option.bind_some, Option.isSome_some, if_true, Resend.step,
        Option.map_some]

/-- A round of `PollSubscriptions` that finds an update is a write, a copy, and
the resends of the copy. -/
theorem pollSocket_eq_steps {st : PollState} {serverSize : Int → Int32}
    (hnode : st.node = s.app.mobileNode) (hidle : s.update = .idle)
    (hup : st.node.isUpdate (st.peek serverSize s.app.appSocket)) :
    ∃ p u, Run (Resend.step ptr) Always s
        (.store p :: .copy :: List.replicate s.outstanding.elems.length .resend) u ∧
      u.update = .idle ∧
      u.app.mobileNode = (pollSocket serverSize st s.app.appSocket ptr).node ∧
      ∃ sent, u.wire = s.wire ++ sent ∧
        (pollSocket serverSize st s.app.appSocket ptr).sent =
          st.sent ++ sent.map Prod.snd := by
  obtain ⟨p, rest, _, _, heq⟩ := pollSocket_of_isUpdate st ptr hup
  obtain ⟨c, hc⟩ : ∃ c, Resend.step ptr s (.store p) = some c := by
    rw [Resend.step, hidle]
    exact ⟨_, rfl⟩
  obtain ⟨c', hc'⟩ : ∃ c', Resend.step ptr c .copy = some c' := by
    rw [Resend.step, hidle] at hc
    injection hc with hc
    rw [← hc, Resend.step]
    exact ⟨_, rfl⟩
  have hstore := hc
  rw [Resend.step, hidle] at hstore
  injection hstore with hstore
  have hcopy := hc'
  rw [← hstore, Resend.step] at hcopy
  injection hcopy with hcopy
  have hresends := run_resends ptr s.outstanding.elems c'
    (by rw [← hcopy]; rfl)
  refine ⟨p, _, (hresends.cons trivial hc').cons trivial hc, rfl, ?_,
    resent c' ptr s.outstanding.elems, ?_, ?_⟩
  · rw [heq, hnode, ← hcopy]
    rfl
  · rw [← hcopy]
  · rw [map_snd_resent, heq, hnode, ← hcopy]
    rfl

/-- Whenever a copy is made that does not meet its condition, the run can end
with nothing half done and a message stranded. -/
theorem stranded_of_copy (h : Run (Resend.step ptr) Always (.init app) acts s)
    (hstored : s.update = .stored) (hbad : ¬ CopyFindsSent ptr s .copy) :
    ∃ acts' u, Run (Resend.step ptr) Always s acts' u ∧ Quiescent u ∧
      ∃ m ∈ u.pending, ¬ Transmitted u m (u.peer ptr) := by
  have hinv : WireInv s :=
    h.invariant wireInv_init fun _ _ _ ht _ hs => ht.step hs
  simp only [CopyFindsSent, not_forall, not_or] at hbad
  obtain ⟨t, ht, hnone, hdst, hmem⟩ := hbad
  obtain ⟨c, hc⟩ : ∃ c, Resend.step ptr s .copy = some c := by
    rw [Resend.step, hstored]
    exact ⟨_, rfl⟩
  have hcopy := hc
  rw [Resend.step, hstored] at hcopy
  injection hcopy with hcopy
  have hup : c.update = resendLoop s.outstanding.elems := by rw [← hcopy]
  have hresends := (run_resends ptr _ c hup).cons
    (show Always s .copy from trivial) hc
  have hsending : c.sending = some t := by
    rw [← hcopy]
    exact ht
  have hsent : Resend.step ptr
      { c with update := .idle, wire := c.wire ++ resent c ptr s.outstanding.elems }
        .messageSent = some { c with
          app := c.app.messageSent t.message
          sending := none
          update := .idle
          wire := c.wire ++ resent c ptr s.outstanding.elems } := by
    rw [Resend.step]
    simp only [hsending]
  refine ⟨_, _, hresends.snoc trivial hsent, ⟨rfl, rfl⟩, t.message, ?_, ?_⟩
  · rw [← hcopy]
    exact hinv.pending t ht hnone
  · intro htr
    obtain ⟨x, hx, hxm, hxdst⟩ := htr
    rw [← hcopy] at hx hxdst
    rcases List.mem_append.mp hx with hx | hx
    · rcases hinv.wire x hx with hout | ⟨t', ht', _, hdst'⟩
      · exact hmem (hxm ▸ hout)
      · rw [Option.mem_def.mp ht] at ht'
        injection ht' with ht'
        rw [← ht', hxdst] at hdst'
        exact hdst hdst'
    · obtain ⟨m, hm, hmap⟩ := List.mem_flatMap.mp hx
      obtain ⟨d, _, rfl⟩ := List.mem_map.mp hmap
      exact hmem (hxm ▸ hm)

end Resend

end PermanentIP

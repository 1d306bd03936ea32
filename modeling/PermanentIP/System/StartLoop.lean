import PermanentIP.Proofs.CurrentAddress
import PermanentIP.Proofs.NodeCalls
import PermanentIP.Proofs.ServerWire
import PermanentIP.Lib.Run

/-!
# The daemon's loop and a device that moves

`SimpleMobileNode::Start` beside a device whose address can change between any
two of its steps, and a rendezvous server that handles what the daemon sends
and other nodes' datagrams. Every registration is delivered and answered; which
address it registers is the one the device had when it was sent.

The loop looks at the address twice in an iteration, to compare it with the
last one it knew and to store it, and registers after the first look. What it
sees is what `GetCurrentIPAddress` finds, which for half of all addresses is -1.
A move between the registration, or the compare if there was none, and the second
look is stored as known and never registered; and so is one to an address that is
not seen.

Which moves are missed can be read off the timeline alone: of the device's address
`Timeline` follows where it is, and what it was at the registration or, in an
iteration after the first, looked like at the compare, whichever came last. A
second look that sees that notes every move so far, and in a run every move is
noted at the end of every iteration if and only if all its second looks do
(`noted_iff`). In such a run one full iteration without a move is enough for the
server to have the device's address (`registered_of_quiet`).
-/

namespace PermanentIP

open Lib SimpleMobileNode

namespace StartLoop

/-- Where the daemon is in `Start`: before the first registration; waiting for
its answer; at the loop's compare; in `UpdateRendezvousServer`, before its
registration and waiting for the answer; before `PollSubscriptions`; before the
second look; and at the end of the iteration. -/
inductive Pc where
  | boot
  | bootWait
  | compare
  | update
  | updateWait
  | poll
  | store
  | bottom
deriving DecidableEq

/-- `ip` is the device's address, `inFlight` the registration that was sent and
not yet handled, and `registeredFrom` the address the last one was sent from. -/
structure State where
  node : SimpleMobileNode
  ip : Int32
  pc : Pc
  inFlight : Option Packet
  server : SimpleRendezvousServer
  registeredFrom : Option Int32

def State.init (L : LogicalAddress) (dns rs : PhysicalAddress) (ip : Int32)
    (server : SimpleRendezvousServer) : State :=
  ⟨.new L dns rs (currentIPAddress ip), ip, .boot, none, server, none⟩

inductive Action where
  | move (ip : Int32)
  | register (port : UInt16)
  | answer (updateSocket : Int)
  | compare
  | poll (serverSize : Int → Int32) (sockets : Int → Socket)
  | store
  | loop
  | other (e : SimpleRendezvousServer.Event)

/-- Where a registration is sent, and where its answer leads. -/
def Pc.afterRegister : Pc → Option Pc
  | .boot => some .bootWait
  | .update => some .updateWait
  | .bootWait | .compare | .updateWait | .poll | .store | .bottom => none

def Pc.afterAnswer : Pc → Option Pc
  | .bootWait => some .compare
  | .updateWait => some .poll
  | .boot | .compare | .update | .poll | .store | .bottom => none

def step (s : State) : Action → Option State
  | .move ip => some { s with ip := ip }
  | .register port =>
      s.pc.afterRegister.map fun pc =>
        { s with
          pc := pc
          inFlight := some (s.node.registration s.ip port)
          registeredFrom := some s.ip }
  | .answer updateSocket =>
      match s.pc.afterAnswer, s.inFlight with
      | some pc, some packet =>
          some { s with
            pc := pc
            inFlight := none
            server := s.server.next (.registration packet updateSocket) }
      | some _, none | none, _ => none
  | .compare =>
      if s.pc = .compare then
        some { s with
          pc := if s.node.hasMoved (currentIPAddress s.ip) then .update else .poll }
      else none
  | .poll serverSize sockets =>
      if s.pc = .poll then
        some { s with
          pc := .store
          node := (s.node.pollSubscriptions serverSize sockets).node }
      else none
  | .store =>
      if s.pc = .store then
        some { s with
          pc := .bottom
          node := s.node.storeIpAddress (currentIPAddress s.ip) }
      else none
  | .loop => if s.pc = .bottom then some { s with pc := .compare } else none
  | .other e =>
      -- another node's datagram, which does not register this one's name
      if ∀ r ∈ e.registers?, r.1 ≠ s.node.logicalAddress then
        some { s with server := s.server.next e }
      else none

/-- The device's moves are noted: what the daemon knows is what it registered,
or is not what it sees any more, so that the next compare registers. -/
def Noted (s : State) : Prop :=
  some s.node.lastKnownIpAddress = s.registeredFrom ∨
    s.node.lastKnownIpAddress ≠ currentIPAddress s.ip

/-- Where the device is; the address it registered from or, since that, saw at a
compare; and whether it is still in its first iteration, whose compare is with what
the constructor saw and not with what was registered. -/
structure Timeline where
  ip : Int32
  reference : Int32
  first : Bool

def Timeline.init (ip : Int32) : Timeline := ⟨ip, ip, true⟩

def Timeline.next (t : Timeline) : Action → Timeline
  | .move ip => { t with ip := ip }
  | .register _ => { t with reference := t.ip }
  | .compare =>
      { t with reference := if t.first then t.reference else currentIPAddress t.ip }
  | .store => { t with first := false }
  | .answer _ | .poll .. | .loop | .other _ => t

def timeline (ip : Int32) (acts : List Action) : Timeline :=
  acts.foldl Timeline.next (.init ip)

/-- A second look sees the address that was registered or compared. -/
def Timeline.SeesReference (t : Timeline) : Action → Prop
  | .store => currentIPAddress t.ip = t.reference
  | .move _ | .register _ | .answer _ | .compare | .poll .. | .loop | .other _ =>
      True

instance (t : Timeline) (a : Action) : Decidable (t.SeesReference a) := by
  cases a <;> unfold Timeline.SeesReference <;> infer_instance

/-- No second look of the timeline sees anything else. -/
def Settled (ip : Int32) (acts : List Action) : Prop :=
  goesOn Timeline.SeesReference Timeline.next (.init ip) acts

instance (ip : Int32) (acts : List Action) : Decidable (Settled ip acts) :=
  decidableGoesOn _ _

variable {s t u : State} {a : Action} {acts quiet : List Action}
  {L : LogicalAddress} {dns rs : PhysicalAddress} {ip : Int32}
  {server : SimpleRendezvousServer}

/-! ## One step -/

theorem Pc.afterRegister_cases {pc pc' : Pc} (h : pc.afterRegister = some pc') :
    (pc = .boot ∧ pc' = .bootWait) ∨ (pc = .update ∧ pc' = .updateWait) := by
  cases pc with
  | boot => exact Or.inl ⟨rfl, (Option.some.inj h).symm⟩
  | update => exact Or.inr ⟨rfl, (Option.some.inj h).symm⟩
  | bootWait | compare | updateWait | poll | store | bottom => cases h

theorem Pc.afterAnswer_cases {pc pc' : Pc} (h : pc.afterAnswer = some pc') :
    (pc = .bootWait ∧ pc' = .compare) ∨ (pc = .updateWait ∧ pc' = .poll) := by
  cases pc with
  | bootWait => exact Or.inl ⟨rfl, (Option.some.inj h).symm⟩
  | updateWait => exact Or.inr ⟨rfl, (Option.some.inj h).symm⟩
  | boot | compare | update | poll | store | bottom => cases h

/-- What each step does where it is enabled. -/
inductive Stepped (s : State) : Action → State → Prop
  | move (ip : Int32) : Stepped s (.move ip) { s with ip := ip }
  | register (port : UInt16) {pc : Pc} (hpc : s.pc.afterRegister = some pc) :
      Stepped s (.register port) { s with
        pc := pc
        inFlight := some (s.node.registration s.ip port)
        registeredFrom := some s.ip }
  | answer (updateSocket : Int) {pc : Pc} {packet : Packet}
      (hpc : s.pc.afterAnswer = some pc) (hflight : s.inFlight = some packet) :
      Stepped s (.answer updateSocket) { s with
        pc := pc
        inFlight := none
        server := s.server.next (.registration packet updateSocket) }
  | compare (hpc : s.pc = .compare) :
      Stepped s .compare { s with
        pc := if s.node.hasMoved (currentIPAddress s.ip) then .update else .poll }
  | poll (serverSize : Int → Int32) (sockets : Int → Socket) (hpc : s.pc = .poll) :
      Stepped s (.poll serverSize sockets) { s with
        pc := .store
        node := (s.node.pollSubscriptions serverSize sockets).node }
  | store (hpc : s.pc = .store) :
      Stepped s .store { s with
        pc := .bottom
        node := s.node.storeIpAddress (currentIPAddress s.ip) }
  | loop (hpc : s.pc = .bottom) : Stepped s .loop { s with pc := .compare }
  | other (e : SimpleRendezvousServer.Event)
      (hother : ∀ r ∈ e.registers?, r.1 ≠ s.node.logicalAddress) :
      Stepped s (.other e) { s with server := s.server.next e }

theorem stepped (hs : step s a = some u) : Stepped s a u := by
  cases a with
  | move ip =>
      cases hs
      exact .move ip
  | register port =>
      obtain ⟨pc, hpc, rfl⟩ := Option.map_eq_some_iff.mp hs
      exact .register port hpc
  | answer updateSocket =>
      rw [step] at hs
      split at hs
      · next hpc hflight =>
          cases hs
          exact .answer updateSocket hpc hflight
      · cases hs
      · cases hs
  | compare =>
      rw [step, Option.ite_none_right_eq_some] at hs
      obtain ⟨hpc, hs⟩ := hs
      cases hs
      exact .compare hpc
  | poll serverSize sockets =>
      rw [step, Option.ite_none_right_eq_some] at hs
      obtain ⟨hpc, hs⟩ := hs
      cases hs
      exact .poll serverSize sockets hpc
  | store =>
      rw [step, Option.ite_none_right_eq_some] at hs
      obtain ⟨hpc, hs⟩ := hs
      cases hs
      exact .store hpc
  | loop =>
      rw [step, Option.ite_none_right_eq_some] at hs
      obtain ⟨hpc, hs⟩ := hs
      cases hs
      exact .loop hpc
  | other e =>
      rw [step, Option.ite_none_right_eq_some] at hs
      obtain ⟨hother, hs⟩ := hs
      cases hs
      exact .other e hother

/-- What every step keeps, and the one thing it may do to the known address. -/
theorem step_known (hs : step s a = some u) :
    u.node.logicalAddress = s.node.logicalAddress ∧
      ((∀ ip, a ≠ .move ip) → u.ip = s.ip) ∧
      (u.node.lastKnownIpAddress = s.node.lastKnownIpAddress ∧ a ≠ .store ∨
        u.node.lastKnownIpAddress = currentIPAddress u.ip ∧ a = .store) := by
  cases stepped hs with
  | move ip => exact ⟨rfl, fun h => absurd rfl (h ip), Or.inl ⟨rfl, by simp⟩⟩
  | poll serverSize sockets _ =>
      have hpolled := polled_pollSubscriptions s.node serverSize sockets
      exact ⟨hpolled.logicalAddress, fun _ => rfl,
        Or.inl ⟨hpolled.lastKnownIpAddress, by simp⟩⟩
  | store =>
      exact ⟨logicalAddress_storeIpAddress _ _, fun _ => rfl,
        Or.inr ⟨lastKnownIpAddress_storeIpAddress _ _, rfl⟩⟩
  | register | answer | compare | loop | other =>
      exact ⟨rfl, fun _ => rfl, Or.inl ⟨rfl, by simp⟩⟩

/-! ## What is known at the end of an iteration -/

theorem timeline_snoc (acts : List Action) (a : Action) :
    timeline ip (acts ++ [a]) = (timeline ip acts).next a := List.foldl_append

theorem settled_snoc : Settled ip (acts ++ [a]) ↔
    Settled ip acts ∧ (timeline ip acts).SeesReference a := goesOn_snoc

/-- What the daemon's state is to a timeline without a move missed: between the
registration or the compare that found nothing and the second look, the reference
is what the last registration came from; and what is known between two iterations
is that as well. In the first iteration it is so from the start. -/
structure Timed (s : State) (t : Timeline) : Prop where
  ip : s.ip = t.ip
  booting : s.pc = .boot ∨ s.pc = .bootWait → t.first = true
  ended : s.pc = .bottom → t.first = false
  reference : s.pc ≠ .boot →
    (t.first = true ∨ s.pc = .updateWait ∨ s.pc = .poll ∨ s.pc = .store) →
      s.registeredFrom = some t.reference
  known : t.first = false → (s.pc = .bottom ∨ s.pc = .compare) →
    some s.node.lastKnownIpAddress = s.registeredFrom

theorem timed_init : Timed (.init L dns rs ip server) (.init ip) where
  ip := rfl
  booting _ := rfl
  ended h := by cases h
  reference h := absurd rfl h
  known h := by cases h

/-- A step that leaves the daemon where it is, and what it knows and registered -/
theorem Timed.keep {t t' : Timeline} (h : Timed s t) (hip : u.ip = t'.ip)
    (hpc : u.pc = s.pc) (hfrom : u.registeredFrom = s.registeredFrom)
    (hnode : u.node = s.node) (hreference : t'.reference = t.reference)
    (hfirst : t'.first = t.first) : Timed u t' where
  ip := hip
  booting := by rw [hpc, hfirst]; exact h.booting
  ended := by rw [hpc, hfirst]; exact h.ended
  reference := by rw [hpc, hfirst, hfrom, hreference]; exact h.reference
  known := by rw [hpc, hfirst, hfrom, hnode]; exact h.known

theorem Timed.register {t : Timeline} (h : Timed s t) {port : UInt16} {pc : Pc}
    (hafter : s.pc.afterRegister = some pc) :
    Timed { s with
      pc := pc
      inFlight := some (s.node.registration s.ip port)
      registeredFrom := some s.ip } { t with reference := t.ip } where
  ip := h.ip
  booting hpc := by
    rcases Pc.afterRegister_cases hafter with ⟨hboot, _⟩ | ⟨_, rfl⟩
    · exact h.booting (Or.inl hboot)
    · rcases hpc with hpc | hpc <;> cases hpc
  ended hpc := by
    rcases Pc.afterRegister_cases hafter with ⟨_, rfl⟩ | ⟨_, rfl⟩ <;> cases hpc
  reference _ _ := congrArg some h.ip
  known _ hpc := by
    rcases Pc.afterRegister_cases hafter with ⟨_, rfl⟩ | ⟨_, rfl⟩ <;>
      rcases hpc with hpc | hpc <;> cases hpc

theorem Timed.answer {t : Timeline} (h : Timed s t) {pc : Pc}
    {server' : SimpleRendezvousServer} (hafter : s.pc.afterAnswer = some pc) :
    Timed { s with pc := pc, inFlight := none, server := server' } t := by
  rcases Pc.afterAnswer_cases hafter with ⟨hwait, rfl⟩ | ⟨hwait, rfl⟩
  · have hfirst := h.booting (Or.inr hwait)
    have hfrom := h.reference (by rw [hwait]; simp) (Or.inl hfirst)
    refine ⟨h.ip, fun _ => hfirst, fun hpc => (by cases hpc), fun _ _ => hfrom, ?_⟩
    intro hnot
    rw [hfirst] at hnot
    cases hnot
  · have hfrom := h.reference (by rw [hwait]; simp) (Or.inr (Or.inl hwait))
    refine ⟨h.ip, fun hpc => ?_, fun hpc => (by cases hpc), fun _ _ => hfrom,
      fun _ hpc => ?_⟩
    · rcases hpc with hpc | hpc <;> cases hpc
    · rcases hpc with hpc | hpc <;> cases hpc

/-- A compare after the first iteration that finds nothing has found what is known,
which is what was registered. -/
theorem Timed.compare {t : Timeline} (h : Timed s t) (hpc : s.pc = .compare) :
    Timed { s with
      pc := if s.node.hasMoved (currentIPAddress s.ip) then .update else .poll }
      (t.next .compare) where
  ip := h.ip
  booting hpc' := by
    simp only at hpc'
    split at hpc' <;> rcases hpc' with hpc' | hpc' <;> cases hpc'
  ended hpc' := by
    simp only at hpc'
    split at hpc' <;> cases hpc'
  reference _ hwhen := by
    simp only [Timeline.next] at hwhen ⊢
    cases hfirst : t.first with
    | true =>
        rw [if_pos rfl]
        exact h.reference (by rw [hpc]; simp) (Or.inl hfirst)
    | false =>
        rw [hfirst] at hwhen
        by_cases hmoved : s.node.hasMoved (currentIPAddress s.ip) = true
        · simp [hmoved] at hwhen
        · have hseen : s.node.lastKnownIpAddress = currentIPAddress s.ip := by
            simpa [hasMoved] using hmoved
          rw [if_neg (by simp), ← h.known hfirst (Or.inr hpc), hseen, h.ip]
  known _ hpc' := by
    simp only at hpc'
    split at hpc' <;> rcases hpc' with hpc' | hpc' <;> cases hpc'

theorem Timed.step {t : Timeline} (h : Timed s t) (hg : t.SeesReference a)
    (hs : StartLoop.step s a = some u) : Timed u (t.next a) := by
  cases stepped hs with
  | move ip => exact h.keep rfl rfl rfl rfl rfl rfl
  | register port hafter => exact h.register hafter
  | answer updateSocket hafter hflight => exact h.answer hafter
  | compare hpc => exact h.compare hpc
  | poll serverSize sockets hpc =>
      have hfrom := h.reference (by rw [hpc]; simp) (Or.inr (Or.inr (Or.inl hpc)))
      refine ⟨h.ip, fun hpc' => ?_, fun hpc' => (by cases hpc'), fun _ _ => hfrom,
        fun _ hpc' => ?_⟩
      · rcases hpc' with hpc' | hpc' <;> cases hpc'
      · rcases hpc' with hpc' | hpc' <;> cases hpc'
  | store hpc =>
      have hfrom := h.reference (by rw [hpc]; simp) (Or.inr (Or.inr (Or.inr hpc)))
      refine ⟨h.ip, fun hpc' => ?_, fun _ => rfl, fun _ hwhen => ?_, fun _ _ => ?_⟩
      · rcases hpc' with hpc' | hpc' <;> cases hpc'
      · rcases hwhen with hwhen | hwhen | hwhen | hwhen <;> cases hwhen
      · rw [hfrom, ← show currentIPAddress t.ip = t.reference from hg, ← h.ip]
        simp only [lastKnownIpAddress_storeIpAddress]
  | loop hpc =>
      have hfirst := h.ended hpc
      refine ⟨h.ip, fun hpc' => ?_, fun hpc' => (by cases hpc'), fun _ hwhen => ?_,
        fun _ _ => h.known hfirst (Or.inl hpc)⟩
      · rcases hpc' with hpc' | hpc' <;> cases hpc'
      · rcases hwhen with hwhen | hwhen | hwhen | hwhen
        · exact absurd (hwhen.symm.trans hfirst) (by simp)
        · cases hwhen
        · cases hwhen
        · cases hwhen
  | other e hother => exact h.keep h.ip rfl rfl rfl rfl rfl

theorem timed_run (h : Run step Always (.init L dns rs ip server) acts t)
    (hsettled : Settled ip acts) : Timed t (timeline ip acts) := by
  induction h with
  | nil => exact timed_init
  | snoc _ _ hs ih =>
      rw [settled_snoc] at hsettled
      rw [timeline_snoc]
      exact (ih hsettled.1).step hsettled.2 hs

theorem known_of_bottom (h : Run step Always (.init L dns rs ip server) acts t)
    (hsettled : Settled ip acts) (hpc : t.pc = .bottom) :
    some t.node.lastKnownIpAddress = t.registeredFrom :=
  have htimed := timed_run h hsettled
  htimed.known (htimed.ended hpc) (Or.inl hpc)

/-- A second look that is noted saw the reference. -/
theorem Timed.sees_of_noted {t : Timeline} (h : Timed s t)
    (hs : StartLoop.step s .store = some u) (hnoted : Noted u) :
    t.SeesReference .store := by
  cases stepped hs with
  | store hpc =>
      have hfrom := h.reference (by rw [hpc]; simp) (Or.inr (Or.inr (Or.inr hpc)))
      rcases hnoted with hknown | hne
      · simp only [lastKnownIpAddress_storeIpAddress, hfrom, Option.some.injEq] at hknown
        rw [Timeline.SeesReference, ← h.ip]
        exact hknown
      · exact absurd rfl hne

/-- All moves are noted at the end of every iteration of a run, if and only if
every second look of its timeline saw the reference. -/
theorem noted_iff (h : Run step Always (.init L dns rs ip server) acts t) :
    (∀ pre s, pre <+: acts → Run step Always (.init L dns rs ip server) pre s →
      s.pc = .bottom → Noted s) ↔ Settled ip acts := by
  constructor
  · intro hnoted
    induction h with
    | nil => exact trivial
    | snoc hrun _ hs ih =>
        next acts t u a _ =>
        have hsettled := ih fun pre s hpre =>
          hnoted pre s (hpre.trans (List.prefix_append _ _))
        refine settled_snoc.mpr ⟨hsettled, ?_⟩
        cases a with
        | store =>
            refine (timed_run hrun hsettled).sees_of_noted hs
              (hnoted _ u (List.prefix_refl _) (hrun.snoc trivial hs) ?_)
            cases stepped hs with
            | store => rfl
        | move | register | answer | compare | poll | loop | other => trivial
  · intro hsettled pre s hpre hs hpc
    exact Or.inl (known_of_bottom hs (goesOn_restrict hsettled hpre) hpc)

/-! ## What the server has -/

/-- A name that reaches the server as it was sent. -/
structure Sendable (L : LogicalAddress) : Prop where
  nulFree : NulFree L
  nonempty : L ≠ []
  short : L.length ≤ bufferSize

theorem Sendable.registers? (hL : Sendable L) {node : SimpleMobileNode}
    (hnode : node.logicalAddress = L) (ip : Int32) (port : UInt16) (sock : Int) :
    (SimpleRendezvousServer.Event.registration (node.registration ip port)
      sock).registers? = some (L, ip.toUInt32) := by
  subst hnode
  rw [SimpleRendezvousServer.Event.registers?, registration,
    if_neg hL.nonempty, text_of_lt hL.nulFree hL.short]

/-- A registration that has been sent is on its way, or the server has it. -/
structure ServerInv (L : LogicalAddress) (s : State) : Prop where
  name : s.node.logicalAddress = L
  waiting : s.pc = .bootWait ∨ s.pc = .updateWait → ∃ ip port,
    s.registeredFrom = some ip ∧ s.inFlight = some (s.node.registration ip port)
  handled : s.pc ≠ .boot → s.pc ≠ .bootWait → s.pc ≠ .updateWait → ∃ ip,
    s.registeredFrom = some ip ∧
      UnorderedMap.get s.server.registeredNames L = intToIPString ip

theorem serverInv_init : ServerInv L (.init L dns rs ip server) where
  name := rfl
  waiting h := by rcases h with h | h <;> cases h
  handled h := absurd rfl h

theorem ServerInv.advance (h : ServerInv L s) (hL : u.node.logicalAddress = L)
    (hpc : s.pc ≠ .boot ∧ s.pc ≠ .bootWait ∧ s.pc ≠ .updateWait)
    (hpc' : u.pc ≠ .bootWait ∧ u.pc ≠ .updateWait)
    (hfrom : u.registeredFrom = s.registeredFrom) (hserver : u.server = s.server) :
    ServerInv L u where
  name := hL
  waiting hwait := by
    rcases hwait with hwait | hwait
    · exact absurd hwait hpc'.1
    · exact absurd hwait hpc'.2
  handled _ _ _ := by
    rw [hfrom, hserver]
    exact h.handled hpc.1 hpc.2.1 hpc.2.2

theorem ServerInv.register (h : ServerInv L s) {port : UInt16} {pc : Pc}
    (hafter : s.pc.afterRegister = some pc) :
    ServerInv L { s with
      pc := pc
      inFlight := some (s.node.registration s.ip port)
      registeredFrom := some s.ip } := by
  refine ⟨h.name, fun _ => ⟨s.ip, port, rfl, rfl⟩, ?_⟩
  intro _ hwait hwait'
  rcases Pc.afterRegister_cases hafter with ⟨_, hpc⟩ | ⟨_, hpc⟩
  · exact absurd hpc hwait
  · exact absurd hpc hwait'

theorem ServerInv.answer (hL : Sendable L) (h : ServerInv L s) {updateSocket : Int}
    {pc : Pc} {packet : Packet} (hafter : s.pc.afterAnswer = some pc)
    (hflight : s.inFlight = some packet) :
    ServerInv L { s with
      pc := pc
      inFlight := none
      server := s.server.next (.registration packet updateSocket) } := by
  have hcases := Pc.afterAnswer_cases hafter
  have hwait : s.pc = .bootWait ∨ s.pc = .updateWait :=
    hcases.imp And.left And.left
  obtain ⟨ip, port, hfrom, hpacket⟩ := h.waiting hwait
  rw [hflight] at hpacket
  injection hpacket with hpacket
  refine ⟨h.name, fun hwait' => ?_, fun _ _ _ => ⟨ip, hfrom, ?_⟩⟩
  · change pc = .bootWait ∨ pc = .updateWait at hwait'
    rcases hcases with ⟨_, rfl⟩ | ⟨_, rfl⟩
    · rcases hwait' with hpc | hpc <;> cases hpc
    · rcases hwait' with hpc | hpc <;> cases hpc
  · simp only
    rw [SimpleRendezvousServer.get_next, hpacket, hL.registers? h.name]
    simp only [if_true]
    rfl

theorem ServerInv.other (h : ServerInv L s) {e : SimpleRendezvousServer.Event}
    (hother : ∀ r ∈ e.registers?, r.1 ≠ s.node.logicalAddress) :
    ServerInv L { s with server := s.server.next e } := by
  refine ⟨h.name, h.waiting, ?_⟩
  intro hboot hwait hwait'
  obtain ⟨ip, hfrom, hget⟩ := h.handled hboot hwait hwait'
  refine ⟨ip, hfrom, ?_⟩
  simp only
  rw [SimpleRendezvousServer.get_next]
  rcases hr : e.registers? with _ | ⟨n, b⟩
  · exact hget
  · have hne : n ≠ L := by
      rw [← h.name]
      exact hother (n, b) hr
    simp only [if_neg hne]
    exact hget

theorem ServerInv.step (hL : Sendable L) (h : ServerInv L s)
    (hs : step s a = some u) : ServerInv L u := by
  have hname : u.node.logicalAddress = L := (step_known hs).1.trans h.name
  cases stepped hs with
  | move ip => exact ⟨hname, h.waiting, h.handled⟩
  | register port hafter => exact h.register hafter
  | answer updateSocket hafter hflight => exact h.answer hL hafter hflight
  | compare hpc =>
      refine h.advance hname (by simp [hpc]) ?_ rfl rfl
      simp only
      split <;> simp
  | poll serverSize sockets hpc =>
      exact h.advance hname (by simp [hpc]) (by simp) rfl rfl
  | store hpc => exact h.advance hname (by simp [hpc]) (by simp) rfl rfl
  | loop hpc => exact h.advance hname (by simp [hpc]) (by simp) rfl rfl
  | other e hother => exact h.other hother

/-! ## A device that stays -/

/-- What the daemon registers from is where the device has been. -/
theorem registeredFrom_run (h : Run step Always (.init L dns rs ip server) acts t) :
    (t.ip = ip ∨ .move t.ip ∈ acts) ∧
      ∀ ip' ∈ t.registeredFrom, ip' = ip ∨ .move ip' ∈ acts := by
  induction h with
  | nil => exact ⟨Or.inl rfl, fun _ h => by cases h⟩
  | snoc _ _ hs ih =>
      next acts t u a _ _ =>
      obtain ⟨hip, hfrom⟩ := ih
      have hmore {ip' : Int32} (h : ip' = ip ∨ Action.move ip' ∈ acts) :
          ip' = ip ∨ Action.move ip' ∈ acts ++ [a] :=
        h.imp_right (List.mem_append_left _)
      cases stepped hs with
      | move ip' =>
          exact ⟨Or.inr (List.mem_append_right _ (List.mem_singleton_self _)),
            fun ip' h => hmore (hfrom ip' h)⟩
      | register port _ =>
          refine ⟨hmore hip, fun ip' h => ?_⟩
          cases h
          exact hmore hip
      | answer | compare | poll | store | loop | other =>
          exact ⟨hmore hip, fun ip' h => hmore (hfrom ip' h)⟩

theorem known_of_quiet (h : Run step Always s quiet t)
    (hquiet : ∀ a ∈ quiet, ∀ ip, a ≠ .move ip) (hstore : .store ∈ quiet) :
    t.node.lastKnownIpAddress = currentIPAddress t.ip := by
  induction h with
  | nil => cases hstore
  | snoc _ _ hs ih =>
      next acts t u a _ _ =>
      obtain ⟨_, hip, hknown⟩ := step_known hs
      rcases hknown with ⟨hknown, hne⟩ | ⟨hknown, _⟩
      · have hin : Action.store ∈ acts := by
          rcases List.mem_append.mp hstore with hin | hlast
          · exact hin
          · exact absurd (List.mem_singleton.mp hlast).symm hne
        rw [hknown, hip (hquiet a (by simp)),
          ih (fun b hb => hquiet b (List.mem_append_left _ hb)) hin]
      · exact hknown

/-- A device whose address is never 255.255.255.255, which is -1. -/
def NeverBroadcast (ip : Int32) (acts : List Action) : Prop :=
  ip ≠ -1 ∧ ∀ ip', .move ip' ∈ acts → ip' ≠ -1

theorem registered_of_quiet (hL : Sendable L)
    (h : Run step Always (.init L dns rs ip server) (acts ++ quiet) t)
    (hsettled : Settled ip (acts ++ quiet)) (hbroadcast : NeverBroadcast ip (acts ++ quiet))
    (hquiet : ∀ a ∈ quiet, ∀ ip, a ≠ .move ip) (hstore : .store ∈ quiet)
    (hpc : t.pc = .bottom) :
    UnorderedMap.get t.server.registeredNames L = intToIPString t.ip := by
  have hinv : ServerInv L t :=
    h.invariant serverInv_init fun _ _ _ ht _ hs => ht.step hL hs
  obtain ⟨ip', hfrom, hget⟩ := hinv.handled (by rw [hpc]; simp)
    (by rw [hpc]; simp) (by rw [hpc]; simp)
  obtain ⟨s, _, hrest⟩ := h.split
  have hknown := known_of_bottom h hsettled hpc
  rw [hfrom, known_of_quiet hrest hquiet hstore] at hknown
  injection hknown with hknown
  -- the address seen is not -1, so it is the device's
  have hseen : ip' ≠ -1 := by
    rcases (registeredFrom_run h).2 ip' hfrom with rfl | hmove
    · exact hbroadcast.1
    · exact hbroadcast.2 ip' hmove
  rw [hget, ← hknown, currentIPAddress_eq]
  split
  · rfl
  · next hunseen =>
      rw [currentIPAddress_eq, if_neg hunseen] at hknown
      exact absurd hknown.symm hseen

/-- Which runs of the loop miss no move: all along a run every move is noted at
the end of every iteration exactly if every second look of its timeline saw the
address the daemon had last registered from, or compared with after that; and at the
end of such a run, once an iteration has passed without a move, the server's entry is
the device's address. -/
theorem moves_noted_iff (h : Run step Always (.init L dns rs ip server) acts t) :
    ((∀ pre s, pre <+: acts → Run step Always (.init L dns rs ip server) pre s →
        s.pc = .bottom → Noted s) ↔ Settled ip acts) ∧
    (Settled ip acts → Sendable L → NeverBroadcast ip acts →
      ∀ pre quiet, acts = pre ++ quiet → (∀ a ∈ quiet, ∀ ip, a ≠ .move ip) →
        .store ∈ quiet → t.pc = .bottom →
        UnorderedMap.get t.server.registeredNames L = intToIPString t.ip) := by
  refine ⟨noted_iff h, fun hsettled hL hbroadcast pre quiet hacts hquiet hstore hpc => ?_⟩
  subst hacts
  exact registered_of_quiet hL h hsettled hbroadcast hquiet hstore hpc

/-- 192.168.1.`n` -/
def lan (n : UInt8) : Int32 := UInt32.toInt32 ((0x0001A8C0 : UInt32) + n.toUInt32 <<< (24 : UInt32))

/-- The device moves from 192.168.1.1 to 192.168.1.2 and stays while the loop goes
round twice. -/
theorem moves_noted_iff_example : ∃ t,
    exec step Always
      (.init (ascii "A") (ascii "1.2.3.9") (ascii "1.2.3.4") (lan 1) (.new 3 4))
      [.register 5, .answer 6, .move (lan 2), .compare, .register 5, .answer 6,
        .poll (fun _ => 16) (fun _ => ⟨[], none⟩), .store, .loop, .compare,
        .poll (fun _ => 16) (fun _ => ⟨[], none⟩), .store] = some t ∧
    UnorderedMap.get t.server.registeredNames (ascii "A") =
      intToIPString t.ip := by
  have hend : ∀ t ∈ exec step Always
      (.init (ascii "A") (ascii "1.2.3.9") (ascii "1.2.3.4") (lan 1) (.new 3 4))
      [.register 5, .answer 6, .move (lan 2), .compare, .register 5, .answer 6,
        .poll (fun _ => 16) (fun _ => ⟨[], none⟩), .store, .loop, .compare,
        .poll (fun _ => 16) (fun _ => ⟨[], none⟩), .store], t.pc = .bottom := by
    decide +kernel
  obtain ⟨t, ht, hrun, hpc⟩ := Run.exists_of_exec hend (by decide +kernel)
  refine ⟨t, ht, (moves_noted_iff hrun).2 (by decide +kernel)
    ⟨by decide, by decide, by decide⟩ ⟨by decide, ?_⟩
    [.register 5, .answer 6, .move (lan 2), .compare, .register 5, .answer 6,
      .poll (fun _ => 16) (fun _ => ⟨[], none⟩)] _ rfl (by simp) (by simp) hpc⟩
  intro ip' hmove
  have hip' : ip' = lan 2 := by simpa using hmove
  rw [hip']
  decide

instance (s : State) : Decidable (Noted s) :=
  inferInstanceAs (Decidable (_ ∨ _))

/-- The device moves between the compare and the second look. -/
theorem move_missed : ¬ ∀ acts t,
    Run step Always
      (.init (ascii "A") (ascii "1.2.3.9") (ascii "1.2.3.4") (lan 1) (.new 3 4)) acts t →
      t.pc = .bottom → Noted t := by
  intro h
  have hend : ∀ t ∈ exec step Always
      (.init (ascii "A") (ascii "1.2.3.9") (ascii "1.2.3.4") (lan 1) (.new 3 4))
      [.register 5, .answer 6, .compare, .move (lan 2),
        .poll (fun _ => 16) (fun _ => ⟨[], none⟩), .store],
      t.pc = .bottom ∧ ¬ Noted t := by
    decide +kernel
  obtain ⟨t, _, hrun, hpc, hmissed⟩ := Run.exists_of_exec hend (by decide +kernel)
  exact hmissed (h _ t hrun hpc)

end StartLoop

end PermanentIP

import PermanentIP.Common.Descriptors
import PermanentIP.Proofs.SubscriberStream

/-!
# The descriptors of a rendezvous server

The server with the descriptor table of its process. Every `UpdateAddress`
opens a socket for its pushes, and no path closes it. So a table with a free
slot is the same after every request exactly when no request of the run
registers anything (`descriptors_kept_iff`), and a run pushes on valid sockets
exactly as long as its registrations are no more than the slots that were free
to begin with. After that `socket` fails, the pushes of a registration are not
sent, and the request is answered as if they had been.
-/

namespace PermanentIP

open Lib SimpleRendezvousServer

namespace UpdateSockets

structure State where
  descriptors : Descriptors
  server : SimpleRendezvousServer

/-- A datagram on one of the two listeners. -/
inductive Request where
  | lookup (packet : Packet)
  | registration (packet : Packet)
deriving DecidableEq

/-- The request, with what `socket` returns if `UpdateAddress` is called. -/
def State.event (s : State) : Request → Event
  | .lookup packet => .lookup packet
  | .registration packet => .registration packet s.descriptors.socket.1

/-- The request is one that `HandleRequests` calls `UpdateAddress` for. -/
def Request.registers : Request → Bool
  | .lookup _ => false
  | .registration packet => packet.payload ≠ []

def State.step (s : State) (r : Request) : State where
  descriptors := if r.registers then s.descriptors.socket.2 else s.descriptors
  server := s.server.next (s.event r)

def State.run (s : State) (rs : List Request) : State := rs.foldl step s

/-- No request of the run changes which descriptors are open. -/
def Kept (s : State) (rs : List Request) : Prop :=
  ∀ pre r, pre ++ [r] <+: rs → ∀ fd,
    ((s.run pre).step r).descriptors.IsOpen fd ↔
      (s.run pre).descriptors.IsOpen fd

/-- Every registration of the run finds an open socket for its pushes. -/
def PushesValid (s : State) (rs : List Request) : Prop :=
  ∀ pre r, pre ++ [r] <+: rs → r.registers →
    ((s.run pre).step r).descriptors.IsOpen ((s.run pre).event r).updateSocket

variable {s : State} {r : Request} {rs pre : List Request}

theorem run_snoc (s : State) (rs : List Request) (r : Request) :
    s.run (rs ++ [r]) = (s.run rs).step r := List.foldl_append

/-- A request is a registration for the table when it is one for the server. -/
theorem registers_iff : r.registers ↔ ((s.event r).registers?).isSome := by
  cases r with
  | lookup p => simp [Request.registers, State.event, Event.registers?]
  | registration p =>
      by_cases h : p.payload = [] <;>
        simp [Request.registers, State.event, Event.registers?, h]

/-- The step in which `UpdateAddress` opens its socket, if there is a slot. -/
theorem step_registers (hr : r.registers) :
    (∃ i : Nat, (s.event r).updateSocket = i ∧
      SlotTable.Allocated s.descriptors .fresh i (s.step r).descriptors) ∨
    (s.descriptors.free = 0 ∧ (s.event r).updateSocket = -1 ∧
      (s.step r).descriptors = s.descriptors) := by
  cases r with
  | lookup p => cases hr
  | registration p =>
      have hstep : (s.step (.registration p)).descriptors =
          s.descriptors.socket.2 := by
        rw [State.step, if_pos hr]
      rw [hstep, State.event, Event.updateSocket]
      rcases s.descriptors.socket_cases with ⟨i, fds, hsock, hspec⟩ | ⟨hfree, hsock⟩
      · rw [hsock]
        exact Or.inl ⟨i, rfl, hspec⟩
      · rw [hsock]
        exact Or.inr ⟨hfree, rfl, rfl⟩

theorem step_not_registers (hr : ¬ r.registers) :
    (s.step r).descriptors = s.descriptors := by
  rw [State.step, if_neg hr]

/-- The free slots a request leaves. -/
theorem free_step (s : State) (r : Request) :
    (s.step r).descriptors.free =
      s.descriptors.free - if r.registers then 1 else 0 := by
  by_cases hr : r.registers
  · rw [if_pos hr]
    rcases step_registers (s := s) hr with ⟨i, _, hspec⟩ | ⟨hfree, _, heq⟩
    · have hone := hspec.free
      omega
    · rw [heq, hfree]
  · rw [if_neg hr, step_not_registers hr]
    omega

/-- Every registration takes a slot, as long as there is one. -/
theorem free_run (s : State) (rs : List Request) :
    (s.run rs).descriptors.free =
      s.descriptors.free - rs.countP Request.registers := by
  induction rs using List.reverseRecOn with
  | nil => rfl
  | append_singleton rs r ih =>
      rw [run_snoc, free_step, ih, List.countP_append, List.countP_singleton]
      omega

theorem open_step_iff (hr : r.registers) :
    (s.step r).descriptors.IsOpen (s.event r).updateSocket ↔
      0 < s.descriptors.free := by
  rcases step_registers (s := s) hr with ⟨i, hsock, hspec⟩ | ⟨hfree, hsock, _⟩
  · have hone := hspec.free
    rw [hsock, Descriptors.IsOpen, Descriptors.file?_natCast, hspec.holds]
    simp only [Option.isSome_some, true_iff]
    omega
  · rw [hsock, hfree]
    simp [Descriptors.IsOpen, Descriptors.file?]

/-- The pushes have somewhere to go for as long as there were free slots. -/
theorem pushesValid_iff (s : State) (rs : List Request) :
    PushesValid s rs ↔ rs.countP Request.registers ≤ s.descriptors.free := by
  constructor
  · intro hvalid
    induction rs using List.reverseRecOn with
    | nil => exact Nat.zero_le _
    | append_singleton rs r ih =>
        have hpre := ih fun pre r' hpre =>
          hvalid pre r' (hpre.trans (List.prefix_append rs [r]))
        rw [List.countP_append, List.countP_singleton]
        by_cases hr : r.registers
        · have hlast := hvalid rs r (List.prefix_refl _) hr
          rw [open_step_iff hr, free_run] at hlast
          rw [if_pos hr]
          omega
        · rw [if_neg hr]
          exact hpre
  · intro hle pre r hpre hr
    have hcount := hpre.sublist.countP_le (p := Request.registers)
    rw [List.countP_append, List.countP_singleton, if_pos hr] at hcount
    rw [open_step_iff hr, free_run]
    omega

/-- A registration that finds a free slot leaves a descriptor open that was
not. -/
theorem opened_of_registers (hr : r.registers) (hfree : 0 < s.descriptors.free) :
    ∃ fd, (s.step r).descriptors.IsOpen fd ∧ ¬ s.descriptors.IsOpen fd := by
  rcases step_registers (s := s) hr with ⟨i, _, hspec⟩ | ⟨hzero, _, _⟩
  · refine ⟨i, ?_, ?_⟩
    · rw [Descriptors.IsOpen, Descriptors.file?_natCast, hspec.holds]
      rfl
    · rw [Descriptors.IsOpen, Descriptors.file?_natCast, hspec.wasFree]
      simp
  · omega

theorem kept_iff (hfree : 0 < s.descriptors.free) :
    Kept s rs ↔ ∀ r ∈ rs, ¬ r.registers := by
  constructor
  · intro hkept r hr hreg
    -- the first registration of the run is made with the table as it was
    obtain ⟨pre, r', post, rfl, hreg', hnone⟩ :
        ∃ pre r' post, rs = pre ++ r' :: post ∧ r'.registers ∧
          ∀ x ∈ pre, ¬ x.registers := by
      obtain ⟨r', hfind⟩ := Option.isSome_iff_exists.mp
        (List.find?_isSome.mpr ⟨r, hr, hreg⟩)
      obtain ⟨hreg', pre, post, heq, hpre⟩ := List.find?_eq_some_iff_append.mp hfind
      exact ⟨pre, r', post, heq, hreg', fun x hx => by simpa using hpre x hx⟩
    have hcount : pre.countP Request.registers = 0 :=
      List.countP_eq_zero.mpr hnone
    have hfree' : 0 < (s.run pre).descriptors.free := by
      rw [free_run, hcount]
      exact hfree
    obtain ⟨fd, hopen, hclosed⟩ := opened_of_registers hreg' hfree'
    exact hclosed ((hkept pre r' ⟨post, by simp⟩ fd).mp hopen)
  · intro hnone pre r hpre fd
    rw [step_not_registers (hnone r (hpre.subset (by simp)))]

/-- On a table with a free slot, the open descriptors are the same after every
request of a run, and every push has a socket, if and only if the run registers
nothing. The pushes alone have one for as long as the registrations are no more
than the slots that were free; a registration after that stores its address and
sends no push at all. -/
theorem descriptors_kept_iff (s : State) (hfree : 0 < s.descriptors.free)
    (rs : List Request) :
    (Kept s rs ∧ PushesValid s rs ↔ ∀ r ∈ rs, ¬ r.registers) ∧
    (PushesValid s rs ↔ rs.countP Request.registers ≤ s.descriptors.free) ∧
    (s.run rs).descriptors.free =
      s.descriptors.free - rs.countP Request.registers ∧
    (s.descriptors.free ≤ rs.countP Request.registers →
      ∀ r, (s.run rs).server.pushes ((s.run rs).event r) = []) := by
  refine ⟨?_, pushesValid_iff s rs, free_run s rs, ?_⟩
  · rw [kept_iff hfree, and_iff_left_of_imp]
    intro hnone
    rw [pushesValid_iff, List.countP_eq_zero.mpr hnone]
    exact Nat.zero_le _
  · intro hle r
    by_cases hr : r.registers
    · have hzero : (s.run rs).descriptors.free = 0 := by
        rw [free_run]
        omega
      rcases step_registers (s := s.run rs) hr with ⟨i, _, hspec⟩ | ⟨_, hsock, _⟩
      · have hone := hspec.free
        omega
      · cases r with
        | lookup p => cases hr
        | registration p =>
            change (s.run rs).descriptors.socket.1 = -1 at hsock
            rw [State.event, hsock, pushes]
            rcases hc : (Event.registration p (-1)).call? with _ | c
            · rfl
            · cases c with
              | updateAddress sock name address =>
                  simp only [Event.call?, Option.map_eq_some_iff] at hc
                  obtain ⟨x, _, hx⟩ := hc
                  injection hx with hx
                  simp only []
                  rw [updateAddress_sent, ← hx]
                  simp [sendto]
              | changeSubscription => rfl
    · rw [registers_iff (s := s.run rs), Option.not_isSome_iff_eq_none] at hr
      exact pushes_of_registers_none hr

/-- A process with its standard descriptors and the two listeners open, 3 and
4, and one slot left. -/
def sample : State where
  descriptors := ⟨[some .fresh, some .fresh, some .fresh, some .fresh,
    some .fresh, none]⟩
  server := .new 3 4

/-- The same when A and B have registered and A follows B. -/
def sampleFollowed : State where
  descriptors := sample.descriptors
  server := sample.server.run
    [.registration ⟨⟨netV4, 1, 8⟩, ascii "A"⟩ 5,
      .registration ⟨⟨netV4, 1, 9⟩, ascii "B"⟩ 5,
      .lookup ⟨⟨netV4, 1, 8⟩, ascii "A|B"⟩]

/-- B follows A, A no longer follows B, and nobody follows C, who is not there. -/
def sampleLookups : List Request :=
  [.lookup ⟨⟨netV4, 1, 9⟩, ascii "B|A"⟩, .lookup ⟨⟨netV4, 1, 8⟩, ascii "A|B"⟩,
    .lookup ⟨⟨netV4, 1, 8⟩, ascii "A|C"⟩]

theorem descriptors_kept_iff_example :
    (sampleFollowed.server.subscribers (ascii "B")).elems = [⟨ascii "A", 1⟩] ∧
    ((sampleFollowed.run sampleLookups).server.subscribers (ascii "A")).elems =
      [⟨ascii "B", 1⟩] ∧
    Kept sampleFollowed sampleLookups ∧ PushesValid sampleFollowed sampleLookups := by
  refine ⟨by decide +kernel, by decide +kernel, ?_⟩
  exact (descriptors_kept_iff sampleFollowed (by decide) sampleLookups).1.mpr (by decide)

/-- The first registration takes the last slot, the second finds none. -/
theorem second_registration_without_socket : ¬ ∀ s : State,
    0 < s.descriptors.free → ∀ rs, Kept s rs ∧ PushesValid s rs := by
  intro h
  have hvalid := (h sample (by decide)
    [.registration ⟨⟨netV4, 1, 8⟩, ascii "A"⟩,
      .registration ⟨⟨netV4, 1, 8⟩, ascii "A"⟩]).2
    [.registration ⟨⟨netV4, 1, 8⟩, ascii "A"⟩]
    (.registration ⟨⟨netV4, 1, 8⟩, ascii "A"⟩) (by simp) rfl
  exact absurd hvalid (by decide +kernel)

end UpdateSockets

end PermanentIP

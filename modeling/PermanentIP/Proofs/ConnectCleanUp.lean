import PermanentIP.Proofs.ConnectToServer

/-!
# What `ConnectToServer` leaves behind

After a `sendto` that failed the call receives all the same, and its early
returns skip the `close` of a socket it opened and the `fcntl` that sets the
flags of a socket it was handed. `CleanCalls` says on which answers of the
system calls none of that shows, and it is exact (`cleans_up_iff`).
-/

namespace PermanentIP

open Lib

variable {s : Socket} {server : SockAddr} {fds : Descriptors} {fd sender : Int}
  {file : File} {calls : ConnectCalls} {information : NetworkMsg}

/-- The contract of `ConnectToServer` on one call: it does not wait for a reply
to a request it could not send; it returns the empty string where the request
was not sent or nothing was received; and when it returns, a socket of its own
is closed again, and one it was handed is open as before, with its flags. -/
structure CleansUp (fds : Descriptors) (sender : Int) (c : Connected) : Prop where
  noWait : c.sent = [] → c.reply.isSome ∧ c.waited = false
  empty : c.sent = [] ∨ c.taken = none → ∀ r ∈ c.reply, r = []
  ownClosed : sender < 0 → c.reply.isSome →
    ∀ fd, c.fds.IsOpen fd ↔ fds.IsOpen fd
  callersKept : 0 ≤ sender → c.reply.isSome →
    (c.fds.IsOpen sender ↔ fds.IsOpen sender) ∧
      c.fds.getfl sender = fds.getfl sender

/-- The answers on which a call meets the contract. Once it is past its first
two `fcntl`s: a request that was not sent must not show, because the receive
neither waits nor brings a text that is returned; and the last `fcntl` may fail
only on a handed socket that was blocking anyway, or if it is never reached.
Before that: either failure of the two on a socket of its own leaves it open. -/
def CleanCalls (fds : Descriptors) (sender : Int) (calls : ConnectCalls) : Prop :=
  match calls.file? fds sender with
  | none => True
  | some file =>
      if calls.getfl && calls.setfl then
        match calls.await file.socket with
        | none => calls.sendto
        | some (waited, s) =>
            (calls.sendto ∨
              waited = false ∧ (calls.restore = false ∨ s.text = [])) ∧
            (calls.restore ∨ 0 ≤ sender ∧ ¬ file.nonblocking)
      else 0 ≤ sender

theorem cleansUp_failed : CleansUp fds sender (.failed fds) where
  noWait _ := ⟨rfl, rfl⟩
  empty _ r hr := by
    injection hr with hr
    exact hr.symm
  ownClosed _ _ _ := Iff.rfl
  callersKept _ _ := ⟨Iff.rfl, rfl⟩

theorem requestSent_eq_nil (hfd : 0 ≤ fd) :
    requestSent calls fd information server = [] ↔ calls.sendto = false := by
  rw [requestSent]
  cases calls.sendto with
  | false => simp
  | true =>
      rw [if_pos rfl, sendto, if_neg (by omega)]
      simp

theorem and_not_eq_self {w : Nat} (x m : BitVec w) :
    x &&& ~~~m = x ↔ x &&& m = 0 := by
  constructor
  · intro h
    rw [← h, BitVec.and_assoc, BitVec.and_comm (~~~m), BitVec.and_not_self]
    simp
  · intro h
    calc x &&& ~~~m = (x &&& ~~~m) ||| (x &&& m) := by rw [h]; simp
      _ = x &&& (m ||| ~~~m) := by
          rw [BitVec.and_or_distrib_left, BitVec.or_comm]
      _ = x := by rw [BitVec.or_not_self, BitVec.and_allOnes]

/-- Switching to blocking shows in the flags of a non-blocking socket only. -/
theorem blocking_flags (file : File) (s : Socket) :
    (file.blocking s).flags = file.flags ↔ ¬ file.nonblocking := by
  have hbits := and_not_eq_self file.flags.toBitVec oNonblock.toBitVec
  rw [File.blocking, File.nonblocking, bne_iff_ne, not_not,
    ← UInt32.toBitVec_inj, ← UInt32.toBitVec_inj]
  exact hbits

theorem Socket.text_of_first?_none (h : s.first? = none) : s.text = [] := by
  rw [Socket.text, h]
  rfl

theorem cleansUp_iff_of_never {c : Connected} (h : c.reply = none) :
    CleansUp fds sender c ↔ c.sent ≠ [] := by
  constructor
  · intro hclean hsent
    have hsome := (hclean.noWait hsent).1
    rw [h] at hsome
    cases hsome
  · intro hsent
    refine ⟨fun hnil => absurd hnil hsent, ?_, ?_, ?_⟩
    · rw [h]
      intro _ r hr
      cases hr
    · rw [h]
      intro _ hr
      cases hr
    · rw [h]
      intro _ hr
      cases hr

variable {waited closeSender : Bool}

/-- Whether the request went out does not show, but where the reply says so. -/
def Connected.Quiet (c : Connected) : Prop :=
  (c.sent = [] → c.reply.isSome ∧ c.waited = false) ∧
    (c.sent = [] ∨ c.taken = none → ∀ r ∈ c.reply, r = [])

/-- What is left of the contract for a socket that was handed in, when the call
returns. -/
theorem cleansUp_iff_of_handed {c : Connected} (hfd : 0 ≤ fd)
    (hsome : c.reply.isSome) :
    CleansUp fds fd c ↔ c.Quiet ∧ (c.fds.IsOpen fd ↔ fds.IsOpen fd) ∧
      c.fds.getfl fd = fds.getfl fd := by
  constructor
  · intro h
    exact ⟨⟨h.noWait, h.empty⟩, h.callersKept hfd hsome⟩
  · rintro ⟨⟨hwait, hempty⟩, hkept⟩
    exact ⟨hwait, hempty, fun hown => absurd hfd (by omega), fun _ _ => hkept⟩

theorem cleansUp_iff_of_own {c : Connected} (hown : sender < 0)
    (hsome : c.reply.isSome) :
    CleansUp fds sender c ↔
      c.Quiet ∧ ∀ fd, c.fds.IsOpen fd ↔ fds.IsOpen fd := by
  constructor
  · intro h
    exact ⟨⟨h.noWait, h.empty⟩, h.ownClosed hown hsome⟩
  · rintro ⟨⟨hwait, hempty⟩, hclosed⟩
    exact ⟨hwait, hempty, fun _ _ => hclosed, fun hfd => absurd hown (by omega)⟩

theorem quiet_exchanged (hfd : 0 ≤ fd) :
    (exchanged fds server information fd closeSender calls file waited s).Quiet ↔
    (calls.sendto ∨ waited = false ∧ (calls.restore = false ∨ s.text = [])) := by
  simp only [Connected.Quiet, exchanged, requestSent_eq_nil hfd, Option.isSome_some, true_and,
    Option.mem_def, Option.some.injEq, forall_eq']
  constructor
  · rintro ⟨hwait, hempty⟩
    cases hsend : calls.sendto with
    | true => exact Or.inl rfl
    | false =>
        refine Or.inr ⟨hwait hsend, ?_⟩
        have hnil := hempty (Or.inl hsend)
        cases hrestore : calls.restore with
        | false => exact Or.inl rfl
        | true =>
            rw [hrestore, if_pos rfl] at hnil
            exact Or.inr hnil
  · intro h
    refine ⟨fun hsend => ?_, fun hnone => ?_⟩
    · rcases h with h | ⟨h, _⟩
      · rw [hsend] at h
        cases h
      · exact h
    · split
      · next hrestore =>
          rcases h with h | ⟨_, h | h⟩
          · rcases hnone with hsend | hfirst
            · rw [hsend] at h
              cases h
            · exact Socket.text_of_first?_none hfirst
          · rw [h] at hrestore
            cases hrestore
          · exact h
      · rfl

/-- A socket that was handed in has its flags back if the last `fcntl` succeeds,
or had nothing to get back. -/
theorem flags_exchanged (h : fds.file? fd = some file) :
    (((exchanged fds server information fd false calls file waited s).fds.IsOpen
        fd ↔ fds.IsOpen fd) ∧
      (exchanged fds server information fd false calls file waited s).fds.getfl
        fd = fds.getfl fd) ↔
    (calls.restore ∨ ¬ file.nonblocking) := by
  simp only [exchanged, Descriptors.IsOpen, Descriptors.getfl, h]
  cases calls.restore with
  | true => simp [Descriptors.file?_put_self h]
  | false =>
      simp only [Bool.false_eq_true, if_false, Descriptors.file?_put_self h,
        Option.isSome_some, Option.map_some, Option.some.injEq, true_and,
        false_or]
      exact blocking_flags file _

theorem file?_of_allocated_ne {fds' : Descriptors} {i : Nat}
    (hspec : SlotTable.Allocated fds .fresh i fds') (hfd : fd ≠ i) :
    fds'.file? fd = fds.file? fd := by
  rw [Descriptors.file?, Descriptors.file?]
  split
  · rfl
  · exact hspec.frame _ (by omega)

/-- A socket the call opened is closed if the last `fcntl` succeeds. -/
theorem closed_exchanged {fds' : Descriptors} {i : Nat}
    (hspec : SlotTable.Allocated fds .fresh i fds') :
    (∀ fd, (exchanged fds' server information i true calls file waited
        s).fds.IsOpen fd ↔ fds.IsOpen fd) ↔ calls.restore := by
  have hopen : fds'.file? (i : Int) = some .fresh := by
    rw [Descriptors.file?_natCast, hspec.holds]
  simp only [exchanged]
  cases calls.restore with
  | true =>
      simp only [if_true, iff_true]
      intro fd
      rw [Descriptors.IsOpen, Descriptors.IsOpen]
      rcases eq_or_ne fd i with rfl | hne
      · rw [Descriptors.file?_close_self, Descriptors.file?_natCast,
          hspec.wasFree]
      · rw [Descriptors.file?_close_ne hne, Descriptors.file?_put_ne hne,
          file?_of_allocated_ne hspec hne]
  | false =>
      simp only [Bool.false_eq_true, if_false, iff_false, not_forall]
      refine ⟨i, ?_⟩
      rw [Descriptors.IsOpen, Descriptors.IsOpen, Descriptors.file?_put_self hopen,
        Descriptors.file?_natCast, hspec.wasFree]
      simp

/-- For every outcome of every system call and either kind of socket, the call
meets its contract exactly on the answers of `CleanCalls`. -/
theorem cleans_up_iff (fds : Descriptors) (serverAddr : PhysicalAddress)
    (serverPort : UInt16) (information : NetworkMsg) (sender : Int)
    (calls : ConnectCalls) :
    CleansUp fds sender (connectToServer fds serverAddr serverPort information
        sender calls) ↔ CleanCalls fds sender calls := by
  rw [CleanCalls]
  rcases connectToServer_cases fds serverAddr serverPort information sender calls
    with ⟨hnone, heq⟩ | ⟨file, hsender, hfile, hopen, heq⟩ |
      ⟨i, fds', hsender, hfile, hspec, heq⟩
  · rw [heq, hnone]
    exact iff_of_true cleansUp_failed trivial
  · rw [heq, hfile, exchange_eq hopen]
    simp only []
    split
    · rcases calls.await file.socket with _ | ⟨waited, s⟩
      · rw [cleansUp_iff_of_never rfl, Ne, requestSent_eq_nil hsender,
          Bool.not_eq_false]
      · simp only []
        rw [cleansUp_iff_of_handed hsender rfl, quiet_exchanged hsender,
          flags_exchanged hopen, and_iff_right hsender]
    · exact iff_of_true cleansUp_failed hsender
  · have hopen : fds'.file? (i : Int) = some .fresh := by
      rw [Descriptors.file?_natCast, hspec.holds]
    rw [heq, hfile, exchange_eq hopen]
    simp only []
    split
    · rcases calls.await File.fresh.socket with _ | ⟨waited, s⟩
      · rw [cleansUp_iff_of_never rfl, Ne, requestSent_eq_nil (by omega),
          Bool.not_eq_false]
      · have hown : (calls.restore ∨ 0 ≤ sender ∧ ¬ File.fresh.nonblocking) ↔
            calls.restore := or_iff_left fun h => by omega
        simp only []
        rw [cleansUp_iff_of_own hsender rfl, quiet_exchanged (by omega),
          closed_exchanged hspec, hown]
    · -- the socket is open, and nothing is going to close it
      refine iff_of_false (fun h => ?_) (by omega)
      have hclosed := h.ownClosed hsender rfl i
      rw [Connected.failed, Descriptors.IsOpen, Descriptors.IsOpen, hopen,
        Descriptors.file?_natCast, hspec.wasFree] at hclosed
      simp at hclosed

/-- The request cannot be sent, nothing else comes, and the call never
returns. -/
theorem unsent_request_waited_for : ¬ ∀ fds sender calls,
    CleansUp fds sender
      (connectToServer fds (ascii "1.2.3.4") globLookupPort (ascii "A") sender
        calls) := by
  intro h
  have hwait := (h ⟨[none]⟩ (-1) ⟨true, true, true, false, ⟨[], none⟩,
    ⟨[], none⟩, true⟩).noWait (by decide +kernel)
  exact absurd hwait.1 (by decide +kernel)

end PermanentIP

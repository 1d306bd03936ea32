import PermanentIP.MobileNode.ConnectToServer

/-!
# What `ConnectToServer` does, whatever its system calls answer

`exchange_eq` reads the function off once, as a case distinction on the answers
and on what is in the queue, and `connectToServer_cases` says which socket it
is about: none, the caller's, or a fresh one. What the call returns is the text
of the datagram it took, and that is the first there is to take, wherever it
came from.
-/

namespace PermanentIP

open Lib

/-! ## The receive -/

/-- The datagram the next receive takes, if it takes one. -/
def Socket.first? (s : Socket) : Option Packet :=
  match s.soError with
  | some _ => none
  | none => s.queue.head?

/-- What that receive leaves in a zeroed buffer. -/
def Socket.text (s : Socket) : NetworkMsg := (s.first?.map Packet.text).getD []

variable {s : Socket} {server : SockAddr} {fds : Descriptors} {fd sender : Int}
  {file : File} {calls : ConnectCalls} {information : NetworkMsg}

theorem cstr_received (s : Socket) (server : SockAddr) :
    cstr (store (recvfrom s false bufferSize server sizeofSockAddr).data
      zeroed) = s.text := by
  obtain ⟨queue, soError⟩ := s
  rw [cstr_store_zeroed]
  cases soError with
  | some e => rfl
  | none =>
      cases queue with
      | nil => rfl
      | cons p rest =>
          rw [recvfrom_cons _ _ _ _ _ le_sizeofSockAddr]
          rfl

theorem taken_received (s : Socket) (server : SockAddr) :
    (if (recvfrom s false bufferSize server sizeofSockAddr).bytesRead < 0
      then none else s.queue.head?) = s.first? := by
  obtain ⟨queue, soError⟩ := s
  cases soError with
  | some e => rfl
  | none =>
      cases queue with
      | nil => rfl
      | cons p rest =>
          rw [recvfrom_cons _ _ _ _ _ le_sizeofSockAddr, if_neg]
          · rfl
          · simp

/-! ## The call on a socket it has -/

/-- The flags of a socket switched to blocking. -/
def File.blocking (file : File) (s : Socket) : File :=
  ⟨file.flags &&& ~~~oNonblock, s⟩

def requestSent (calls : ConnectCalls) (fd : Int) (information : NetworkMsg)
    (server : SockAddr) : List Sent :=
  if calls.sendto then sendto fd information server else []

/-- What `exchange` returns once its receive has found `s`. -/
def exchanged (fds : Descriptors) (server : SockAddr) (information : NetworkMsg)
    (fd : Int) (closeSender : Bool) (calls : ConnectCalls) (file : File)
    (waited : Bool) (s : Socket) : Connected :=
  let left := (recvfrom s false bufferSize server sizeofSockAddr).socket
  let restored := fds.put fd ⟨file.flags, left⟩
  { reply := some (if calls.restore then s.text else [])
    fds :=
      if calls.restore then
        if closeSender then restored.close fd else restored
      else fds.put fd (file.blocking left)
    sent := requestSent calls fd information server
    waited := waited
    taken := s.first? }

theorem exchange_of_not_open (h : fds.file? fd = none) (closeSender : Bool) :
    exchange fds server information fd closeSender calls = .failed fds := by
  rw [exchange, Descriptors.getfl, h]
  cases calls.getfl <;> rfl

theorem exchange_eq (h : fds.file? fd = some file) (closeSender : Bool) :
    exchange fds server information fd closeSender calls =
      if calls.getfl && calls.setfl then
        match calls.await file.socket with
        | none =>
            { reply := none
              fds := fds.put fd (file.blocking file.socket)
              sent := requestSent calls fd information server
              waited := true
              taken := none }
        | some (waited, s) =>
            exchanged fds server information fd closeSender calls file waited s
      else .failed fds := by
  have hput (f f' : File) : (fds.put fd f).setfl fd f'.flags =
      some (fds.put fd { f with flags := f'.flags }) := by
    rw [Descriptors.setfl, Descriptors.file?_put_self h, Option.map_some,
      Descriptors.put_put]
  rw [exchange, Descriptors.getfl, h]
  cases hgetfl : calls.getfl with
  | false => rfl
  | true =>
      simp only [if_true, Option.map_some, Bool.true_and]
      rw [Descriptors.setfl, h]
      cases hsetfl : calls.setfl with
      | false => rfl
      | true =>
          simp only [if_true, Option.map_some]
          rw [Descriptors.socketAt, Descriptors.file?_put_self h]
          simp only [Option.map_some, Option.getD_some]
          cases calls.await file.socket with
          | none => rfl
          | some r =>
              obtain ⟨waited, s⟩ := r
              simp only []
              rw [Descriptors.setSocket, Descriptors.file?_put_self h,
                taken_received, cstr_received]
              simp only []
              rw [Descriptors.put_put, exchanged]
              cases hrestore : calls.restore with
              | false => rfl
              | true =>
                  simp only [if_true]
                  rw [hput _ file]
                  rfl

/-! ## The socket it has -/

/-- The socket the call works with: the caller's, or a fresh one if it can be
opened. -/
def ConnectCalls.file? (calls : ConnectCalls) (fds : Descriptors) (sender : Int) :
    Option File :=
  if sender < 0 then if calls.socket && 0 < fds.free then some .fresh else none
  else fds.file? sender

variable {serverAddr : PhysicalAddress} {serverPort : UInt16}

/-- Without a socket the call fails at its first `fcntl`; with one it is an
exchange over it. -/
theorem connectToServer_cases (fds : Descriptors) (serverAddr : PhysicalAddress)
    (serverPort : UInt16) (information : NetworkMsg) (sender : Int)
    (calls : ConnectCalls) :
    (calls.file? fds sender = none ∧
      connectToServer fds serverAddr serverPort information sender calls =
        .failed fds) ∨
    (∃ file, 0 ≤ sender ∧ calls.file? fds sender = some file ∧
      fds.file? sender = some file ∧
      connectToServer fds serverAddr serverPort information sender calls =
        exchange fds (serverIn serverAddr serverPort) information sender false
          calls) ∨
    (∃ (i : Nat) (fds' : Descriptors), sender < 0 ∧
      calls.file? fds sender = some .fresh ∧ SlotTable.Allocated fds .fresh i fds' ∧
      connectToServer fds serverAddr serverPort information sender calls =
        exchange fds' (serverIn serverAddr serverPort) information i true
          calls) := by
  have hneg : fds.file? (-1) = none := rfl
  rw [connectToServer, ConnectCalls.file?]
  by_cases hown : sender < 0
  · simp only [if_pos hown]
    cases hsock : calls.socket with
    | false => exact Or.inl ⟨rfl, exchange_of_not_open hneg true⟩
    | true =>
        rcases fds.socket_cases with ⟨i, fds', heq, hspec⟩ | ⟨hfree, heq⟩
        · refine Or.inr (Or.inr ⟨i, fds', hown, ?_, hspec, ?_⟩)
          · have hfree := hspec.free
            simp
            omega
          · simp only [if_true, heq]
        · refine Or.inl ⟨by simp [hfree], ?_⟩
          simp only [if_true, heq]
          exact exchange_of_not_open hneg true
  · simp only [if_neg hown]
    cases hfile : fds.file? sender with
    | none => exact Or.inl ⟨rfl, exchange_of_not_open hfile false⟩
    | some file =>
        exact Or.inr (Or.inl ⟨file, by omega, rfl, rfl, trivial⟩)

/-- What the receive finds, if the call comes to it and it ends. -/
def ConnectCalls.receives (calls : ConnectCalls) (fds : Descriptors)
    (sender : Int) : Option (Bool × Socket) :=
  (calls.file? fds sender).bind fun file =>
    if calls.getfl && calls.setfl then calls.await file.socket else none

/-! ## What it takes and what it returns -/

/-- What the call returns, if it does, and what it takes -/
def ConnectCalls.outcome (calls : ConnectCalls) (fds : Descriptors) (sender : Int) :
    Option NetworkMsg × Option Packet :=
  match calls.file? fds sender with
  | none => (some [], none)
  | some file =>
      if calls.getfl && calls.setfl then
        match calls.await file.socket with
        | none => (none, none)
        | some (_, s) => (some (if calls.restore then s.text else []), s.first?)
      else (some [], none)

theorem outcome_exchange (h : fds.file? fd = some file) (closeSender : Bool) :
    ((exchange fds server information fd closeSender calls).reply,
      (exchange fds server information fd closeSender calls).taken) =
      if calls.getfl && calls.setfl then
        match calls.await file.socket with
        | none => (none, none)
        | some (_, s) => (some (if calls.restore then s.text else []), s.first?)
      else (some [], none) := by
  rw [exchange_eq h]
  split
  · cases calls.await file.socket <;> rfl
  · rfl

theorem outcome_connectToServer (fds : Descriptors) (serverAddr : PhysicalAddress)
    (serverPort : UInt16) (information : NetworkMsg) (sender : Int)
    (calls : ConnectCalls) :
    ((connectToServer fds serverAddr serverPort information sender calls).reply,
      (connectToServer fds serverAddr serverPort information sender calls).taken) =
      calls.outcome fds sender := by
  rw [ConnectCalls.outcome]
  rcases connectToServer_cases fds serverAddr serverPort information sender calls
    with ⟨hnone, heq⟩ | ⟨file, _, hfile, hopen, heq⟩ | ⟨i, fds', _, hfile, hspec, heq⟩
  · rw [heq, hnone]
    rfl
  · rw [heq, hfile]
    exact outcome_exchange hopen false
  · have hopen : fds'.file? (i : Int) = some .fresh := by
      rw [Descriptors.file?_natCast, hspec.holds]
    rw [heq, hfile]
    exact outcome_exchange hopen true

/-- What the call returns is the text of the datagram it took; it is empty if
it took none, or could not set the flags back. -/
theorem reply_connectToServer (fds : Descriptors) (serverAddr : PhysicalAddress)
    (serverPort : UInt16) (information : NetworkMsg) (sender : Int)
    (calls : ConnectCalls) :
    ∀ r ∈ (connectToServer fds serverAddr serverPort information sender
        calls).reply,
      (∃ p ∈ (connectToServer fds serverAddr serverPort information sender
        calls).taken, r = p.text) ∨
      r = [] ∧ ((connectToServer fds serverAddr serverPort information sender
        calls).taken = none ∨ calls.restore = false) := by
  have houtcome := outcome_connectToServer fds serverAddr serverPort information sender calls
  have hreply := congrArg Prod.fst houtcome
  have htaken := congrArg Prod.snd houtcome
  simp only [ConnectCalls.outcome] at hreply htaken
  rw [hreply, htaken]
  have hfailed : ∀ r ∈ (some [] : Option NetworkMsg), r = [] := fun r hr => by
    injection hr with hr
    exact hr.symm
  split
  · exact fun r hr => Or.inr ⟨hfailed r hr, Or.inl rfl⟩
  · split
    · split
      · exact fun r hr => by cases hr
      · next waited s _ =>
          intro r hr
          injection hr with hr
          subst hr
          cases hrestore : calls.restore with
          | false => exact Or.inr ⟨rfl, Or.inr rfl⟩
          | true =>
              simp only [if_true, Socket.text]
              cases s.first? with
              | none => exact Or.inr ⟨rfl, Or.inl rfl⟩
              | some p => exact Or.inl ⟨p, by simp⟩
    · exact fun r hr => Or.inr ⟨hfailed r hr, Or.inl rfl⟩

theorem receives_eq_some {waited : Bool} :
    calls.receives fds sender = some (waited, s) ↔
      ∃ file ∈ calls.file? fds sender, (calls.getfl && calls.setfl) = true ∧
        calls.await file.socket = some (waited, s) := by
  rw [ConnectCalls.receives, Option.bind_eq_some_iff]
  refine exists_congr fun file => and_congr_right fun _ => ?_
  split
  · next h => exact (and_iff_right h).symm
  · next h => exact iff_of_false (by simp) fun hand => h hand.1

/-- A socket the call opened for itself is closed again once the flags are back. -/
theorem fds_connectToServer {waited : Bool} (hown : sender < 0)
    (hreceives : calls.receives fds sender = some (waited, s))
    (hrestore : calls.restore = true) :
    (connectToServer fds serverAddr serverPort information sender calls).fds = fds := by
  obtain ⟨file, hfile, hset, hawait⟩ := receives_eq_some.mp hreceives
  rcases connectToServer_cases fds serverAddr serverPort information sender calls
    with ⟨hnone, _⟩ | ⟨_, hsender, _⟩ | ⟨i, fds', _, hfresh, hspec, heq⟩
  · rw [hnone] at hfile
    cases hfile
  · omega
  · cases hfresh.symm.trans hfile
    have hopen : fds'.file? (i : Int) = some .fresh := by
      rw [Descriptors.file?_natCast, hspec.holds]
    rw [heq, exchange_eq hopen, if_pos hset, hawait]
    simp only [exchanged, hrestore, if_true]
    rw [Descriptors.close_put, Descriptors.close, if_neg (by omega), Int.toNat_natCast]
    exact hspec.release

end PermanentIP

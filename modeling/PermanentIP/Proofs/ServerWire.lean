import PermanentIP.Proofs.ServerCalls
import PermanentIP.Proofs.AddressCodec
import PermanentIP.Lib.LastWrite

/-!
# From datagrams to calls

`HandleRequests` on one datagram is at most one call of one of the two
operations, and a reply. `next_eq_call` says which call, so whatever is proved
of the calls holds of the datagrams; `receive_lookup` and
`receive_registration` say what goes out. A datagram without a byte in it is
received, and nothing else happens.

From here on a run of the server is a list of datagrams, and what a name's
last registration was is read off that list, `lastRegistration`. The first
thing every run satisfies is `get_run`: a read of the registry gives the
address a name last registered from, and the empty string for a name that
never did, whatever keys the pushes have left behind.
-/

namespace PermanentIP

open Lib

namespace SimpleRendezvousServer

variable {srv : SimpleRendezvousServer}

/-! ## One datagram -/

/-- The buffer a reply leaves from: the answer, its NUL, the rest of what the
request had there. -/
def replyBuffer (answer : Bytes) (p : Packet) : Bytes :=
  store (snprintf bufferSize answer ++ [0])
    (store (p.payload.take bufferSize) zeroed)

theorem receive_empty_lookup {p : Packet} (h : p.payload = []) :
    (srv.receive (.lookup p)).server = srv ∧
      (srv.receive (.lookup p)).sent = [] := by
  have hread : ¬ (0 : Int) < ((p.payload.take bufferSize).length : Int) := by
    rw [length_take_pos, h]
    simp
  rw [receive, handleRequests]
  simp only [recvfrom_cons _ _ _ _ _ le_sizeofSockAddr, if_neg hread, and_self]

theorem receive_empty_registration {p : Packet} {sock : Int}
    (h : p.payload = []) :
    (srv.receive (.registration p sock)).server = srv ∧
      (srv.receive (.registration p sock)).sent = [] := by
  have hread : ¬ (0 : Int) < ((p.payload.take bufferSize).length : Int) := by
    rw [length_take_pos, h]
    simp
  rw [receive, handleRequests]
  simp only [recvfrom_cons _ _ _ _ _ le_sizeofSockAddr, if_neg hread, and_self]

/-- A lookup is one call of `ChangeSubscription`, whose answer goes back. -/
theorem receive_lookup {p : Packet} (h : p.payload ≠ []) :
    (srv.receive (.lookup p)).server =
        (srv.changeSubscription ⟨(parseLookup p.text).1, p.src.sinPort⟩
          (parseLookup p.text).2).2 ∧
      (srv.receive (.lookup p)).sent =
        sendto srv.lookupListener
          (replyBuffer (UnorderedMap.get srv.registeredNames
            (parseLookup p.text).2) p) p.src := by
  have hread : (0 : Int) < ((p.payload.take bufferSize).length : Int) :=
    length_take_pos.mpr h
  rw [receive, handleRequests]
  simp only [recvfrom_cons _ _ _ _ _ le_sizeofSockAddr, if_pos hread, if_true,
    cstr_store_zeroed, changeSubscription_answer]
  exact ⟨rfl, rfl⟩

/-- A registration is one call of `UpdateAddress` with the source address, and
a reply that repeats the name. -/
theorem receive_registration {p : Packet} {sock : Int} (h : p.payload ≠ []) :
    (srv.receive (.registration p sock)).server =
        (srv.updateAddress sock p.text (intToIPString p.src.sinAddr.toInt32)).2 ∧
      (srv.receive (.registration p sock)).sent =
        (srv.updateAddress sock p.text (intToIPString p.src.sinAddr.toInt32)).1 ++
          sendto srv.registrationListener
            (replyBuffer (p.text ++ ascii " " ++
              percentD p.src.sinAddr.toInt32) p) p.src := by
  have hread : (0 : Int) < ((p.payload.take bufferSize).length : Int) :=
    length_take_pos.mpr h
  rw [receive, handleRequests]
  simp only [recvfrom_cons _ _ _ _ _ le_sizeofSockAddr, if_pos hread,
    Bool.false_eq_true, if_false, cstr_store_zeroed]
  exact ⟨rfl, rfl⟩

theorem next_eq_call (e : Event) :
    srv.next e = match e.call? with
      | some c => srv.call c
      | none => srv := by
  cases e with
  | lookup p =>
      by_cases h : p.payload = []
      · simp only [Event.call?, Event.lookup?, if_pos h, Option.map_none]
        exact (receive_empty_lookup h).1
      · simp only [Event.call?, Event.lookup?, if_neg h, Option.map_some]
        exact (receive_lookup h).1
  | registration p sock =>
      by_cases h : p.payload = []
      · simp only [Event.call?, Event.registers?, if_pos h, Option.map_none]
        exact (receive_empty_registration h).1
      · simp only [Event.call?, Event.registers?, if_neg h, Option.map_some]
        exact (receive_registration h).1

/-- The datagrams an event's `UpdateAddress` pushes; a lookup pushes none. -/
def pushes (srv : SimpleRendezvousServer) (e : Event) : List Sent :=
  match e.call? with
  | some (.updateAddress sock name address) =>
      (srv.updateAddress sock name address).1
  | _ => []

/-! ## A run of datagrams -/

theorem run_snoc (es : List Event) (e : Event) :
    srv.run (es ++ [e]) = (srv.run es).next e := List.foldl_append

theorem run_append (es fs : List Event) :
    srv.run (es ++ fs) = (srv.run es).run fs := List.foldl_append

/-- The source address of the last datagram that registered `n`. -/
def lastRegistration (n : LogicalAddress) (es : List Event) : Option UInt32 :=
  lastWrite Event.registers? n es

def Registered (n : LogicalAddress) (es : List Event) : Prop :=
  ∃ e ∈ es, ∃ a, e.registers? = some (n, a)

theorem lastRegistration_isSome_iff {n : LogicalAddress} {es : List Event} :
    (lastRegistration n es).isSome ↔ Registered n es := by
  constructor
  · intro h
    obtain ⟨a, ha⟩ := Option.isSome_iff_exists.mp h
    obtain ⟨e, he, hr⟩ := exists_write_of_lastWrite ha
    exact ⟨e, he, a, hr⟩
  · intro h
    obtain ⟨e, he, a, hr⟩ := h
    exact lastWrite_isSome_of_mem he hr

/-- The text an address is kept as; none at all for a name nobody registered. -/
def addressText : Option UInt32 → PhysicalAddress
  | some a => intToIPString a.toInt32
  | none => []

theorem ipStringToInt_addressText (a : Option UInt32) :
    (ipStringToInt (addressText a)).toUInt32 = a.getD 0 := by
  cases a with
  | none =>
      show (ipStringToInt []).toUInt32 = 0
      rw [ipStringToInt_nil]
      rfl
  | some a =>
      show (ipStringToInt (intToIPString a.toInt32)).toUInt32 = a
      rw [ipStringToInt_intToIPString]
      rfl

theorem addressText_eq_nil {a : Option UInt32} :
    addressText a = [] ↔ a = none := by
  cases a with
  | none => simp [addressText]
  | some a => simp [addressText, intToIPString_ne_nil]

theorem nulFree_addressText (a : Option UInt32) : NulFree (addressText a) := by
  cases a with
  | none => exact List.not_mem_nil
  | some a => exact nulFree_intToIPString _

theorem length_addressText_le (a : Option UInt32) :
    (addressText a).length ≤ 15 := by
  cases a with
  | none => exact Nat.zero_le _
  | some a => exact length_intToIPString_le _

/-- What a push carries is read back as the address it was made from. -/
theorem ipStringToInt_push (src : SockAddr) (a : UInt32) :
    (ipStringToInt
      (Packet.text ⟨src, intToIPString a.toInt32 ++ [0]⟩)).toUInt32 = a := by
  have hlen : (intToIPString a.toInt32).length < bufferSize :=
    Nat.lt_of_le_of_lt (length_intToIPString_le _) (by decide)
  rw [text_of_terminated (nulFree_intToIPString _) hlen,
    ipStringToInt_intToIPString]
  rfl

/-- One datagram rewrites one entry's value at most. -/
theorem get_next (e : Event) (n : LogicalAddress) :
    UnorderedMap.get (srv.next e).registeredNames n =
      match e.registers? with
      | some (m, a) =>
          if m = n then intToIPString a.toInt32
          else UnorderedMap.get srv.registeredNames n
      | none => UnorderedMap.get srv.registeredNames n := by
  rw [next_eq_call]
  cases e with
  | lookup p =>
      by_cases h : p.payload = []
      · simp [Event.call?, Event.lookup?, Event.registers?, h]
      · simp [Event.call?, Event.lookup?, Event.registers?, h, call]
  | registration p sock =>
      by_cases h : p.payload = []
      · simp [Event.call?, Event.registers?, h]
      · simp only [Event.call?, Event.registers?, if_neg h, Option.map_some,
          call, get_updateAddress]

/-- A read of the registry gives a name's last registration, or nothing. -/
theorem get_run (rl ll : Int) (es : List Event) (n : LogicalAddress) :
    UnorderedMap.get ((new rl ll).run es).registeredNames n =
      addressText (lastRegistration n es) := by
  induction es using List.reverseRecOn with
  | nil => rfl
  | append_singleton es e ih =>
      rw [run_snoc, get_next, lastRegistration]
      rcases hr : e.registers? with _ | ⟨m, a⟩
      · rw [lastWrite_snoc_none hr]
        exact ih
      · simp only []
        split
        · next h => subst h; rw [lastWrite_snoc_self hr, addressText]
        · next h => rw [lastWrite_snoc_ne hr h]; exact ih

theorem lookupListener_next (e : Event) :
    (srv.next e).lookupListener = srv.lookupListener := by
  rw [next_eq_call]
  split
  · next c _ =>
      cases c with
      | updateAddress sock n a => rfl
      | changeSubscription s n =>
          rw [call, changeSubscription]
          split <;> rfl
  · rfl

theorem lookupListener_run (es : List Event) :
    (srv.run es).lookupListener = srv.lookupListener := by
  induction es using List.reverseRecOn with
  | nil => rfl
  | append_singleton es e ih => rw [run_snoc, lookupListener_next, ih]

end SimpleRendezvousServer

end PermanentIP

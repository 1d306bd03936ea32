import PermanentIP.DNS.SimpleDNS
import PermanentIP.Lib.LastWrite
import PermanentIP.Lib.Polling
import PermanentIP.Proofs.ServerWire
import PermanentIP.MobileNode.SimpleMobileNode

/-!
# What the name server answers

Over any run of added names and requests the name server keeps exactly the
names that were added (`mem_run_iff`): a request never changes it, not even one for
a name it does not have (`dns_receive`), and each request with a byte in it is
answered once, to where it came from, with what a client reads back as the address
last added for its text (`lookup_run`). The rendezvous server's registry does not
keep the like of this, since its reads insert.
-/

namespace PermanentIP

open Lib SimpleMobileNode

open SimpleRendezvousServer (replyBuffer)

namespace SimpleDNS

variable {dns : SimpleDNS} {name : LogicalAddress} {address : PhysicalAddress}
  {p : Packet} {rest : List Packet}

/-! ## One request -/

/-- The name server's map, read without a change to it. -/
theorem lookupName_eq :
    dns.lookupName name = (UnorderedMap.get dns.registeredNames name, dns) := by
  rw [lookupName]
  split
  · next h => rw [UnorderedMap.touch, if_pos h]
  · next h =>
      rw [UnorderedMap.get_of_notMem h]
      rfl

theorem handleRequests_empty (h : p.payload = []) :
    dns.handleRequests ⟨p :: rest, none⟩ =
      { ok := true, sent := [], dns := dns, socket := ⟨rest, none⟩ } := by
  have hread : ((p.payload.take bufferSize).length : Int) = 0 := by
    rw [h]
    rfl
  rw [handleRequests]
  simp only [recvfrom_cons _ _ _ _ _ le_sizeofSockAddr, hread]
  rfl

/-- A request with a byte in it is answered, and changes nothing. -/
theorem handleRequests_cons (h : p.payload ≠ []) :
    dns.handleRequests ⟨p :: rest, none⟩ =
      { ok := true
        sent := sendto dns.listener
          (replyBuffer (cstr (UnorderedMap.get dns.registeredNames p.text)) p) p.src
        dns := dns
        socket := ⟨rest, none⟩ } := by
  have hread : (0 : Int) < ((p.payload.take bufferSize).length : Int) :=
    length_take_pos.mpr h
  rw [handleRequests]
  simp only [recvfrom_cons _ _ _ _ _ le_sizeofSockAddr, if_pos hread,
    cstr_store_zeroed, lookupName_eq]
  rfl

theorem handleRequests_nil :
    dns.handleRequests ⟨[], none⟩ =
      { ok := true, sent := [], dns := dns, socket := ⟨[], none⟩ } := rfl

/-! ## The reply -/

theorem length_replyBuffer (answer : Bytes) (p : Packet) :
    (replyBuffer answer p).length = bufferSize := by
  have hsn : (snprintf bufferSize answer).length ≤ bufferSize - 1 :=
    List.length_take_le _ _
  have hdata : (p.payload.take bufferSize).length ≤ bufferSize :=
    List.length_take_le _ _
  have hpos : 0 < bufferSize := by decide
  simp only [replyBuffer, store, zeroed, List.length_append, List.length_drop,
    List.length_replicate, List.length_singleton]
  omega

/-- A long answer loses its tail in the buffer. -/
theorem readReply_replyBuffer_take {answer : Bytes} (hn : NulFree answer)
    (p : Packet) (server : SockAddr) :
    readReply ⟨server, replyBuffer answer p⟩ = answer.take (bufferSize - 1) := by
  have hsn : NulFree (snprintf bufferSize answer) :=
    fun hmem => hn (List.mem_of_mem_take hmem)
  rw [readReply, cstr_store_zeroed,
    List.take_of_length_le (Nat.le_of_eq (length_replyBuffer answer p)),
    replyBuffer, store, List.append_assoc]
  exact cstr_append_nul hsn _

/-! ## A run -/

/-- What the server does between its start and its end: a name is added, or a
request handled. -/
inductive Event where
  | addName (name : LogicalAddress) (address : PhysicalAddress)
  | request (packet : Packet)

def Event.added? : Event → Option (LogicalAddress × PhysicalAddress)
  | .addName name address => some (name, address)
  | .request _ => none

def next (dns : SimpleDNS) : Event → SimpleDNS
  | .addName name address => dns.addName name address
  | .request p => (dns.receive p).dns

def run (dns : SimpleDNS) (es : List Event) : SimpleDNS := es.foldl next dns

theorem dns_receive : (dns.receive p).dns = dns := by
  rw [receive]
  by_cases h : p.payload = []
  · rw [handleRequests_empty h]
  · rw [handleRequests_cons h]

theorem run_snoc (es : List Event) (e : Event) :
    dns.run (es ++ [e]) = (dns.run es).next e := List.foldl_append

theorem listener_run (es : List Event) : (dns.run es).listener = dns.listener := by
  induction es using List.reverseRecOn with
  | nil => rfl
  | append_singleton es e ih =>
      rw [run_snoc]
      cases e with
      | addName name address => exact ih
      | request p => rw [next, dns_receive, ih]

theorem lookup_run (fd : Int) (es : List Event) (name : LogicalAddress) :
    ((new fd).run es).registeredNames.lookup name =
      lastWrite Event.added? name es := by
  induction es using List.reverseRecOn with
  | nil => rfl
  | append_singleton es e ih =>
      rw [run_snoc]
      cases e with
      | addName added address =>
          have hadded : (Event.addName added address).added? = some (added, address) :=
            rfl
          rw [next, addName]
          rcases eq_or_ne added name with rfl | hne
          · rw [AList.lookup_insert, lastWrite_snoc_self hadded]
          · rw [AList.lookup_insert_ne (Ne.symm hne), ih,
              lastWrite_snoc_ne hadded hne]
      | request p => rw [next, dns_receive, ih, lastWrite_snoc_none rfl]

theorem mem_run_iff {fd : Int} {es : List Event} :
    name ∈ ((new fd).run es).registeredNames ↔ ∃ a, .addName name a ∈ es := by
  rw [← AList.lookup_isSome, lookup_run]
  constructor
  · intro h
    obtain ⟨a, ha⟩ := Option.isSome_iff_exists.mp h
    obtain ⟨e, he, hadded⟩ := exists_write_of_lastWrite ha
    cases e with
    | addName name' a' =>
        cases hadded
        exact ⟨a, he⟩
    | request p => cases hadded
  · rintro ⟨a, ha⟩
    exact lastWrite_isSome_of_mem ha rfl

end SimpleDNS

end PermanentIP

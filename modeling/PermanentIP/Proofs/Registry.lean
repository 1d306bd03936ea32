import PermanentIP.Proofs.ServerWire
import PermanentIP.Spec.Directory
import PermanentIP.MobileNode.SimpleMobileNode

/-!
# What the registry records

Two answers to one question. Read through a lookup, the registry is right in
every run: the reply to a request decodes to the source address of the name's
last registration, and to the empty string exactly for a name that never
registered (`lookup_returns_location`). That goes through the whole wire
format, from the request the client builds to the text it cuts out of the
reply. Whether there is a reply is for the log to say (`location_answered_iff`).

Read through its keys, it is not. The push loop reads
`registered_names_[i->first]` for every subscriber, and for a subscriber that
never registered the read inserts an empty address and the push goes to
0.0.0.0. `SubscribersRegistered` is what a registration needs for that not to
happen, a condition on the state it finds; under it the server represents the
abstract directory step by step (`represents_next`), and the runs whose
registrations all meet it are exactly the runs along which the registry records
registrations and nothing else (`records_iff`).
-/

namespace PermanentIP

open Lib SimpleMobileNode

namespace SimpleRendezvousServer

variable {srv : SimpleRendezvousServer}

/-! ## The request and the reply on the wire -/

theorem nulFree_lookupRequest {m n : LogicalAddress} (hm : NulFree m)
    (hn : NulFree n) : NulFree (lookupRequest m n) :=
  nulFree_append.mpr ⟨nulFree_append.mpr ⟨hm, by decide⟩, hn⟩

/-- The first separator of a request is the one `RegisterPeer` put there. -/
theorem parseLookup_lookupRequest {m : LogicalAddress} (hm : bar ∉ m)
    (n : LogicalAddress) : parseLookup (lookupRequest m n) = (m, n) := by
  have hreq : lookupRequest m n = m ++ bar :: n := by
    rw [lookupRequest, List.append_assoc]
    rfl
  rw [parseLookup, hreq, Str.upTo_find_append hm, Str.substr_find_append hm]

theorem length_lookupRequest (m n : LogicalAddress) :
    (lookupRequest m n).length = m.length + 1 + n.length := by
  rw [lookupRequest, List.length_append, List.length_append]
  rfl

theorem lookupRequest_ne_nil (m n : LogicalAddress) : lookupRequest m n ≠ [] := by
  intro h
  have hlen := length_lookupRequest m n
  rw [h, List.length_nil] at hlen
  omega

/-- A short answer comes out of the reply's 4096 bytes as it went in. -/
theorem readReply_replyBuffer {answer : Bytes} (hn : NulFree answer)
    (hlen : answer.length < bufferSize - 1) (p : Packet) (server : SockAddr) :
    readReply ⟨server, replyBuffer answer p⟩ = answer := by
  have hsn : snprintf bufferSize answer = answer :=
    List.take_of_length_le (Nat.le_of_lt hlen)
  obtain ⟨k, hk⟩ : ∃ k, bufferSize = answer.length + (k + 1) :=
    ⟨bufferSize - answer.length - 1, by omega⟩
  rw [readReply, cstr_store_zeroed, replyBuffer, hsn, store, List.append_assoc,
    hk, List.take_length_add_append]
  exact cstr_append_nul hn _

theorem readReply_addressText (o : Option UInt32) (p : Packet) (server : SockAddr) :
    readReply ⟨server, replyBuffer (addressText o) p⟩ = addressText o :=
  readReply_replyBuffer (nulFree_addressText o)
    (Nat.lt_of_le_of_lt (length_addressText_le o) (by decide)) p server

/-- Register, then look up: as long as the log lets the server, the reply to `m|n` is
one datagram, and the client decodes it to the address `n` last registered from, or
to nothing at all when it never did. -/
theorem lookup_returns_location (rl : Int) {ll : Int} (hll : 0 ≤ ll)
    (es : List Event) {m n : LogicalAddress} (hm : NulFree m) (hbar : bar ∉ m)
    (hn : NulFree n) (hlen : m.length + 1 + n.length < bufferSize)
    (src server : SockAddr) :
    ∃ reply,
      (((new rl ll).run es).receive (.lookup ⟨src, lookupRequest m n⟩)).sent =
        [⟨ll, src, reply⟩] ∧
      (∀ a, lastRegistration n es = some a →
        (ipStringToInt (readReply ⟨server, reply⟩)).toUInt32 = a) ∧
      (readReply ⟨server, reply⟩ = [] ↔ ¬ Registered n es) := by
  have hlen' := length_lookupRequest m n
  have htext : Packet.text ⟨src, lookupRequest m n⟩ = lookupRequest m n :=
    text_of_lt (nulFree_lookupRequest hm hn) (by omega)
  have hread : readReply ⟨server, replyBuffer (addressText (lastRegistration n es))
      ⟨src, lookupRequest m n⟩⟩ = addressText (lastRegistration n es) :=
    readReply_addressText _ _ _
  refine ⟨replyBuffer (addressText (lastRegistration n es))
    ⟨src, lookupRequest m n⟩, ?_, ?_, ?_⟩
  · rw [(receive_lookup (lookupRequest_ne_nil m n)).2, htext,
      parseLookup_lookupRequest hbar, get_run, lookupListener_run, sendto, if_neg (by show ¬ ll < 0; omega)]
    rfl
  · intro a ha
    rw [hread, ipStringToInt_addressText, ha, Option.getD_some]
  · rw [hread, addressText_eq_nil, ← lastRegistration_isSome_iff]
    simp

/-! ## The server as a directory -/

def Event.op? (e : Event) : Option (Spec.Op LogicalAddress UInt32 UInt16) :=
  match e.registers?, e.lookup? with
  | some (n, a), _ => some (.register n a)
  | none, some (s, n) => some (.ask (s.name, s.port) n)
  | none, none => none

def directory (es : List Event) : Spec.Directory LogicalAddress UInt32 UInt16 :=
  Spec.Directory.empty.run (es.filterMap Event.op?)

/-- The server's maps hold the directory: an entry for every location and no
other, and the same subscribers. -/
structure Represents (srv : SimpleRendezvousServer)
    (d : Spec.Directory LogicalAddress UInt32 UInt16) : Prop where
  loc : ∀ n, srv.registeredNames.lookup n =
    (d.loc n).map fun a => intToIPString a.toInt32
  watchers : ∀ n s, s ∈ srv.subscribers n ↔ (s.name, s.port) ∈ d.watchers n

/-- What a registration needs of the state it finds: that every subscriber of
the name has an entry, or is the name itself. -/
def SubscribersRegistered (srv : SimpleRendezvousServer) (e : Event) : Prop :=
  ∀ n a, e.registers? = some (n, a) →
    ∀ i ∈ srv.subscribers n, i.name = n ∨ i.name ∈ srv.registeredNames

theorem mem_iff_loc_isSome {d : Spec.Directory LogicalAddress UInt32 UInt16}
    (h : Represents srv d) {n : LogicalAddress} :
    n ∈ srv.registeredNames ↔ (d.loc n).isSome := by
  rw [← AList.lookup_isSome, h.loc, Option.isSome_map]

theorem represents_new (rl ll : Int) :
    Represents (new rl ll) Spec.Directory.empty where
  loc _ := rfl
  watchers _ s := iff_of_false (OrdSet.not_mem_empty s) (Set.notMem_empty _)

/-- A registration whose subscribers all have entries is the directory's. -/
theorem represents_register {d : Spec.Directory LogicalAddress UInt32 UInt16}
    (h : Represents srv d) {sock : Int} {n : LogicalAddress} {a : UInt32}
    (hs : ∀ i ∈ srv.subscribers n, i.name = n ∨ i.name ∈ srv.registeredNames) :
    Represents (srv.updateAddress sock n (intToIPString a.toInt32)).2
      (d.apply (.register n a)) where
  loc m := by
    rcases eq_or_ne m n with rfl | hne
    · rw [lookup_updateAddress_self, Spec.Directory.loc_register_self]
      rfl
    · rw [Spec.Directory.loc_register_ne hne, ← h.loc]
      by_cases hm : m ∈ srv.registeredNames
      · exact lookup_updateAddress_of_mem hne hm
      · rw [AList.lookup_eq_none.mpr hm, AList.lookup_eq_none,
          mem_updateAddress]
        intro hmem
        rcases hmem with rfl | hmem | ⟨i, hi, rfl⟩
        · exact hne rfl
        · exact hm hmem
        · rcases hs i hi with heq | hin
          · exact hne heq
          · exact hm hin
  watchers m s := by
    rw [subscribers_updateAddress]
    exact h.watchers m s

theorem represents_ask {d : Spec.Directory LogicalAddress UInt32 UInt16}
    (h : Represents srv d) (s : Subscriber) (n : LogicalAddress) :
    Represents (srv.changeSubscription s n).2
      (d.apply (.ask (s.name, s.port) n)) := by
  by_cases hn : n ∈ srv.registeredNames
  · have hloc := (mem_iff_loc_isSome h).mp hn
    refine ⟨fun m => ?_, fun m s' => ?_⟩
    · rw [registeredNames_changeSubscription, Spec.Directory.loc_ask]
      exact h.loc m
    · rcases eq_or_ne m n with rfl | hne
      · rw [Spec.Directory.mem_watchers_ask_self hloc, ← h.watchers,
          ← h.watchers]
        rcases eq_or_ne s' s with rfl | hs
        · rw [mem_changeSubscription_self hn]
          simp
        · have hpair : (s'.name, s'.port) ≠ (s.name, s.port) := by
            intro heq
            cases s
            cases s'
            simp only [Prod.mk.injEq] at heq
            exact hs (by rw [heq.1, heq.2])
          rw [mem_changeSubscription_ne hs]
          simp [hpair]
      · rw [subscribers_changeSubscription_ne hne,
          Spec.Directory.watchers_ask_ne hne]
        exact h.watchers m s'
  · have hloc : d.loc n = none := by
      have hnone := fun hsome => hn ((mem_iff_loc_isSome h).mpr hsome)
      simpa using hnone
    rw [changeSubscription_of_notMem hn, Spec.Directory.ask_of_none hloc]
    exact h

theorem represents_next {d : Spec.Directory LogicalAddress UInt32 UInt16}
    (h : Represents srv d) {e : Event} (hs : SubscribersRegistered srv e) :
    Represents (srv.next e) (match e.op? with
      | some op => d.apply op
      | none => d) := by
  rw [next_eq_call]
  cases e with
  | lookup p =>
      by_cases hp : p.payload = []
      · simpa [Event.call?, Event.op?, Event.lookup?, Event.registers?, hp]
          using h
      · simp only [Event.call?, Event.op?, Event.lookup?, Event.registers?,
          if_neg hp, Option.map_some, call]
        exact represents_ask h _ _
  | registration p sock =>
      by_cases hp : p.payload = []
      · simpa [Event.call?, Event.op?, Event.lookup?, Event.registers?, hp]
          using h
      · simp only [Event.call?, Event.op?, Event.registers?, if_neg hp,
          Option.map_some, call]
        exact represents_register h (hs p.text p.src.sinAddr (if_neg hp))

theorem directory_snoc (es : List Event) (e : Event) :
    directory (es ++ [e]) = match e.op? with
      | some op => (directory es).apply op
      | none => directory es := by
  rw [directory, List.filterMap_append]
  cases hop : e.op? with
  | none => simp [hop, directory]
  | some op =>
      simp only [List.filterMap_cons, hop, List.filterMap_nil]
      exact Spec.Directory.run_snoc op

theorem op?_of_registers {e : Event} {n : LogicalAddress} {a : UInt32}
    (h : e.registers? = some (n, a)) : e.op? = some (.register n a) := by
  rw [Event.op?, h]

theorem loc_directory (es : List Event) (n : LogicalAddress) :
    (directory es).loc n = lastRegistration n es := by
  induction es using List.reverseRecOn with
  | nil => rfl
  | append_singleton es e ih =>
      rw [directory_snoc, lastRegistration]
      rcases hr : e.registers? with _ | ⟨m, a⟩
      · rw [lastWrite_snoc_none hr]
        rcases hl : e.lookup? with _ | ⟨s, m⟩
        · simp only [Event.op?, hr, hl]
          exact ih
        · simp only [Event.op?, hr, hl, Spec.Directory.loc_ask]
          exact ih
      · rw [op?_of_registers hr]
        rcases eq_or_ne n m with rfl | hne
        · rw [lastWrite_snoc_self hr]
          exact Spec.Directory.loc_register_self
        · rw [lastWrite_snoc_ne hr (Ne.symm hne)]
          exact (Spec.Directory.loc_register_ne hne).trans ih

/-- What the server pushes, the directory tells. -/
theorem pushes_told {d : Spec.Directory LogicalAddress UInt32 UInt16}
    (h : Represents srv d) {e : Event} (hs : SubscribersRegistered srv e)
    {n : LogicalAddress} {a : UInt32} (he : e.registers? = some (n, a))
    {p : Sent} (hp : p ∈ srv.pushes e) :
    (p.dst.sinAddr, p.dst.sinPort) ∈ (d.apply (.register n a)).told n := by
  have hcall : ∃ sock, e.call? =
      some (.updateAddress sock n (intToIPString a.toInt32)) := by
    cases e with
    | lookup q => cases he
    | registration q sock => exact ⟨sock, by rw [Event.call?, he]; rfl⟩
  obtain ⟨sock, hcall⟩ := hcall
  rw [pushes, hcall] at hp
  obtain ⟨i, hi, rfl⟩ := mem_updateAddress_sent hp
  refine ⟨(i.name, i.port), (h.watchers n i).mp hi, ?_, rfl⟩
  show (d.apply (.register n a)).loc i.name = _
  simp only [pushDst]
  split
  · next heq =>
      subst heq
      rw [Spec.Directory.loc_register_self, ipStringToInt_intToIPString]
      rfl
  · next hne =>
      have hmem : i.name ∈ srv.registeredNames :=
        (hs n a he i hi).resolve_left (Ne.symm hne)
      obtain ⟨b, hb⟩ :=
        Option.isSome_iff_exists.mp ((mem_iff_loc_isSome h).mp hmem)
      have hlookup := h.loc i.name
      rw [hb, Option.map_some] at hlookup
      rw [Spec.Directory.loc_register_ne (Ne.symm hne), hb,
        UnorderedMap.get_of_lookup hlookup, ipStringToInt_intToIPString]
      rfl

/-! ## The registry records registrations and nothing else -/

theorem represents_run (rl ll : Int) {es : List Event}
    (hs : ∀ pre e, pre ++ [e] <+: es →
      SubscribersRegistered ((new rl ll).run pre) e) :
    Represents ((new rl ll).run es) (directory es) := by
  induction es using List.reverseRecOn with
  | nil => exact represents_new rl ll
  | append_singleton es e ih =>
      rw [run_snoc, directory_snoc]
      refine represents_next (ih fun pre e' hpre => ?_)
        (hs es e (List.prefix_refl _))
      exact hs pre e' (hpre.trans (List.prefix_append es [e]))

/-- What the registry promises after a run: its keys are the names that
registered, each with the address of its last registration, and every push of
the run went to an address one of the subscribers had registered from. -/
structure RecordsRegistrations (rl ll : Int) (es : List Event) : Prop where
  keys : ∀ n, n ∈ ((new rl ll).run es).registeredNames ↔ Registered n es
  value : ∀ n a, lastRegistration n es = some a →
    ((new rl ll).run es).registeredNames.lookup n =
      some (intToIPString a.toInt32)
  pushes : ∀ pre e, pre ++ [e] <+: es → ∀ n a, e.registers? = some (n, a) →
    ∀ p ∈ ((new rl ll).run pre).pushes e,
      ∃ i ∈ ((new rl ll).run pre).subscribers n,
        ∃ e' ∈ pre ++ [e], e'.registers? = some (i.name, p.dst.sinAddr)

theorem registers_of_register_mem {es : List Event} {n : LogicalAddress}
    {a : UInt32}
    (h : Spec.Op.register n a ∈ es.filterMap Event.op?) :
    ∃ e ∈ es, e.registers? = some (n, a) := by
  obtain ⟨e, he, hop⟩ := List.mem_filterMap.mp h
  refine ⟨e, he, ?_⟩
  rw [Event.op?] at hop
  split at hop
  · next hr =>
      simp only [Option.some.injEq, Spec.Op.register.injEq] at hop
      rw [hr, hop.1, hop.2]
  · simp at hop
  · cases hop

theorem recordsRegistrations_of_forall (rl ll : Int) {es : List Event}
    (hs : ∀ pre e, pre ++ [e] <+: es →
      SubscribersRegistered ((new rl ll).run pre) e) :
    RecordsRegistrations rl ll es := by
  have hrep := represents_run rl ll hs
  refine ⟨fun n => ?_, fun n a ha => ?_, fun pre e hpre n a he p hp => ?_⟩
  · rw [mem_iff_loc_isSome hrep, loc_directory, lastRegistration_isSome_iff]
  · rw [hrep.loc, loc_directory, ha]
    rfl
  · have hpre' : ∀ pre' e', pre' ++ [e'] <+: pre →
        SubscribersRegistered ((new rl ll).run pre') e' :=
      fun pre' e' h =>
        hs pre' e' (h.trans ((List.prefix_append pre [e]).trans hpre))
    have hrep' := represents_run rl ll hpre'
    have htold := pushes_told hrep' (hs pre e hpre) he hp
    have hrun : (directory pre).apply (.register n a) = directory (pre ++ [e]) := by
      rw [directory_snoc, op?_of_registers he]
    rw [hrun] at htold
    obtain ⟨who, hwho, hmem⟩ := Spec.Directory.registered_of_told htold
    change who ∈ (directory (pre ++ [e])).watchers n at hwho
    rw [← hrun] at hwho
    exact ⟨⟨who.1, who.2⟩, (hrep'.watchers n ⟨who.1, who.2⟩).mpr hwho,
      registers_of_register_mem hmem⟩

/-- A registration that finds a subscriber without an entry gives it one. -/
theorem mem_next_of_subscriber {e : Event} {n : LogicalAddress} {a : UInt32}
    (he : e.registers? = some (n, a)) {i : Subscriber}
    (hi : i ∈ srv.subscribers n) : i.name ∈ (srv.next e).registeredNames := by
  rw [next_eq_call]
  cases e with
  | lookup q => cases he
  | registration q sock =>
      simp only [Event.call?, he, Option.map_some, call]
      exact mem_updateAddress.mpr (Or.inr (Or.inr ⟨i, hi, rfl⟩))

/-- The registry records registrations and nothing else, all along a run, in
exactly the runs in which every registration finds each subscriber of its name
registered. -/
theorem records_iff (rl ll : Int) (es : List Event) :
    (∀ pre, pre <+: es → RecordsRegistrations rl ll pre) ↔
      ∀ pre e, pre ++ [e] <+: es →
        SubscribersRegistered ((new rl ll).run pre) e := by
  constructor
  · intro hrec pre e hpre n a he i hi
    by_cases hname : i.name = n
    · exact Or.inl hname
    · right
      have hmem := mem_next_of_subscriber he hi
      rw [← run_snoc, (hrec _ hpre).keys] at hmem
      obtain ⟨e', he', b, hb⟩ := hmem
      rw [(hrec pre ((List.prefix_append pre [e]).trans hpre)).keys]
      rcases List.mem_append.mp he' with hin | hlast
      · exact ⟨e', hin, b, hb⟩
      · rw [List.mem_singleton] at hlast
        subst hlast
        rw [he] at hb
        simp only [Option.some.injEq, Prod.mk.injEq] at hb
        exact absurd hb.1.symm hname
  · intro hs pre hpre
    exact recordsRegistrations_of_forall rl ll fun pre' e h =>
      hs pre' e (h.trans hpre)

/-- B registers, A asks for B without ever registering, B registers again. -/
def unregisteredSubscriber : List Event :=
  [.registration ⟨⟨netV4, 5, 1⟩, ascii "B"⟩ 5,
    .lookup ⟨⟨netV4, 7, 9⟩, lookupRequest (ascii "A") (ascii "B")⟩,
    .registration ⟨⟨netV4, 5, 2⟩, ascii "B"⟩ 6]

/-- A is a key from then on, though nobody registered it. -/
theorem unregisteredSubscriber_recorded :
    ¬ RecordsRegistrations 3 4 unregisteredSubscriber := by
  intro h
  have hkey : ascii "A" ∈
      ((new 3 4).run unregisteredSubscriber).registeredNames := by
    decide +kernel
  obtain ⟨e, he, a, hr⟩ := (h.keys _).mp hkey
  have hname : ∀ e ∈ unregisteredSubscriber, ∀ r ∈ e.registers?,
      r.1 ≠ ascii "A" := by
    decide +kernel
  exact hname e he (ascii "A", a) hr rfl

end SimpleRendezvousServer

end PermanentIP

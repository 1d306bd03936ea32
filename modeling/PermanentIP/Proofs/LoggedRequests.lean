import PermanentIP.Proofs.Requests
import PermanentIP.Proofs.ServerLog

/-!
# One request and the log

What a registration pushes and what a lookup is answered, by the server with its
log. Both are as without it where the lines about the request can be written, and
where they cannot there is no push to the subscriber whose line it is, and no
answer (`pushed_once_iff`, `location_answered_iff`). The subscriber's line has two
names in it, the one that registers and its own.
-/

namespace PermanentIP

open Lib SimpleMobileNode

namespace SimpleRendezvousServer

variable {es : List Event} {n m : LogicalAddress} {a : UInt32} {sock : Int}

/-! ## A registration -/

theorem get_insert_run (rl ll : Int) (es : List Event) (n m : LogicalAddress)
    (a : UInt32) :
    UnorderedMap.get (((new rl ll).run es).registeredNames.insert n
      (intToIPString a.toInt32)) m = addressText (locatedAt es n a m) := by
  rw [locatedAt]
  split
  · next h =>
      subst h
      exact UnorderedMap.get_insert _ n _
  · next h => rw [UnorderedMap.get_insert_ne (Ne.symm h), get_run]

/-! ### Somebody who follows -/

/-- `m` and `n` register and `m` follows `n`. -/
def followed (m n : LogicalAddress) : List Event :=
  [.registration ⟨⟨netV4, 5, 9⟩, m⟩ 5, .registration ⟨⟨netV4, 5, 8⟩, n⟩ 5,
    .lookup ⟨⟨netV4, 7, 9⟩, lookupRequest m n⟩]

theorem op?_registration_of_nulFree (hn : NulFree n) (hne : n ≠ [])
    (hlen : n.length ≤ bufferSize) (src : SockAddr) :
    (Event.registration ⟨src, n⟩ sock).op? = some (.register n src.sinAddr) := by
  have htext : Packet.text ⟨src, n⟩ = n := text_of_lt hn hlen
  rw [op?_registration hne, htext]

theorem op?_lookupRequest (hm : NulFree m) (hbar : bar ∉ m) (hn : NulFree n)
    (hlen : m.length + 1 + n.length ≤ bufferSize) (src : SockAddr) :
    (Event.lookup ⟨src, lookupRequest m n⟩).op? = some (.ask (m, src.sinPort) n) := by
  have htext : Packet.text ⟨src, lookupRequest m n⟩ = lookupRequest m n :=
    text_of_lt (nulFree_lookupRequest hm hn) (by rwa [length_lookupRequest])
  rw [op?_lookup (lookupRequest_ne_nil m n), htext, parseLookup_lookupRequest hbar]

/-- Two names that can be asked for, paired and each short enough to be logged -/
structure Followable (m n : LogicalAddress) : Prop where
  nulFree : NulFree m ∧ NulFree n
  nonempty : m ≠ [] ∧ n ≠ []
  noBar : bar ∉ m
  paired : paired m = true ∧ paired n = true
  short : m.length ≤ 4000 ∧ n.length ≤ 4000 ∧ m.length + 1 + n.length ≤ bufferSize

namespace Followable

theorem op?_eq (h : Followable m n) :
    (Event.registration ⟨⟨netV4, 5, 9⟩, m⟩ 5).op? = some (.register m 9) ∧
    (Event.registration ⟨⟨netV4, 5, 8⟩, n⟩ 5).op? = some (.register n 8) ∧
    (Event.lookup ⟨⟨netV4, 7, 9⟩, lookupRequest m n⟩).op? = some (.ask (m, 7) n) := by
  obtain ⟨hm, hn, hlen⟩ := h.short
  refine ⟨op?_registration_of_nulFree h.nulFree.1 h.nonempty.1 ?_ _,
    op?_registration_of_nulFree h.nulFree.2 h.nonempty.2 ?_ _,
    op?_lookupRequest h.nulFree.1 h.noBar h.nulFree.2 hlen _⟩
  · exact Nat.le_trans hm (by decide)
  · exact Nat.le_trans hn (by decide)

theorem ops_eq (h : Followable m n) : (followed m n).filterMap Event.op? =
    [.register m 9, .register n 8, .ask (m, 7) n] := by
  obtain ⟨hm, hn, hask⟩ := h.op?_eq
  simp only [followed, List.filterMap_cons, hm, hn, hask, List.filterMap_nil]

theorem watchers (h : Followable m n) {w : LogicalAddress × UInt16} :
    w ∈ (board (followed m n)).watchers n ↔ w = (m, 7) := by
  rw [board, h.ops_eq]
  constructor
  · intro hw
    have hasked := Spec.Board.asked_of_watching hw
    simp at hasked
    exact hasked
  · rintro rfl
    have hknown : n ∈ (Spec.Board.run Spec.Board.empty
        [.register m (9 : UInt32), .register n 8] : Spec.Board _ _ UInt16).known :=
      Or.inl rfl
    exact (Spec.Board.mem_watchers_ask_self hknown).mpr (Set.notMem_empty _)

theorem lives (h : Followable m n) : Lives (followed m n) := by
  obtain ⟨hm, hn, hask⟩ := h.op?_eq
  have hquiet {es : List Event} (hes : ∀ w n, Spec.Op.ask w n ∉ es.filterMap Event.op?)
      (n' : LogicalAddress) : ∀ w ∈ (board es).watchers n', n'.length + w.1.length ≤ 4000 :=
    fun w hw => absurd (Spec.Board.asked_of_watching hw) (hes w n')
  have hfirst : Lives ([] ++ [.registration ⟨⟨netV4, 5, 9⟩, m⟩ 5]) :=
    lives_snoc.mpr ⟨fun pre e hpre => absurd (List.prefix_nil.mp hpre) (by simp),
      loggable_of_register hm h.paired.1 h.short.1 (hquiet (by simp) m)⟩
  have hsecond : Lives ([.registration ⟨⟨netV4, 5, 9⟩, m⟩ 5] ++
      [.registration ⟨⟨netV4, 5, 8⟩, n⟩ 5]) :=
    lives_snoc.mpr ⟨hfirst, loggable_of_register hn h.paired.2 h.short.2.1
      (hquiet (by simp [hm]) n)⟩
  exact lives_snoc.mpr ⟨hsecond, loggable_of_ask hask h.paired.1 h.short.1⟩

theorem subscribers (h : Followable m n) (rl ll : Int) {s : Subscriber} :
    s ∈ ((new rl ll).run (followed m n)).subscribers n ↔ s = ⟨m, 7⟩ := by
  rw [(matches_run rl ll _).watchers, h.watchers, Prod.mk.injEq, Subscriber.mk.injEq]

theorem registered (h : Followable m n) : Registered m (followed m n) :=
  ⟨_, List.mem_cons_self, 9, registers_of_op h.op?_eq.1⟩

end Followable

/-! ### The updates -/

theorem does_updateAddress_run (rl ll : Int) (stderr : FilePtr) (es : List Event)
    (n : LogicalAddress) (a : UInt32) (sock : Int) :
    Does (((new rl ll).run es).updateAddressWithLog stderr sock n
        (intToIPString a.toInt32))
      (∀ s ∈ ((new rl ll).run es).subscribers n, Printable
        (updateText n (intToIPString a.toInt32) s.name
          (addressText (locatedAt es n a s.name)) s.port))
      (((new rl ll).run es).updateAddress sock n (intToIPString a.toInt32)).1
      (((new rl ll).run es).updateAddress sock n (intToIPString a.toInt32)).2 := by
  refine does_updateAddress.congr (forall₂_congr fun s _ => ?_)
  rw [get_insert_run]

theorem followable_sample : Followable (ascii "A") (ascii "B") where
  nulFree := ⟨by decide, by decide⟩
  nonempty := ⟨by decide, by decide⟩
  noBar := by decide
  paired := ⟨by decide, by decide⟩
  short := ⟨by decide, by decide, by decide⟩

theorem not_mem_replicate {i : Nat} {c d : UInt8} (h : d ≠ c) : d ∉ List.replicate i c :=
  fun hd => h (List.eq_of_mem_replicate hd)

theorem followable_replicate {i j : Nat} (hi : 0 < i ∧ i ≤ 4000) (hj : 0 < j ∧ j ≤ 4000)
    (hlen : i + 1 + j ≤ bufferSize) :
    Followable (List.replicate i 65) (List.replicate j 66) where
  nulFree := ⟨not_mem_replicate (by decide), not_mem_replicate (by decide)⟩
  nonempty := ⟨List.ne_nil_of_length_pos (by rw [List.length_replicate]; exact hi.1),
    List.ne_nil_of_length_pos (by rw [List.length_replicate]; exact hj.1)⟩
  noBar := not_mem_replicate (by decide)
  paired := ⟨paired_of_not_mem (not_mem_replicate (by decide)),
    paired_of_not_mem (not_mem_replicate (by decide))⟩
  short := by
    rw [List.length_replicate, List.length_replicate]
    exact ⟨hi.2, hj.2, hlen⟩

theorem addressText_loc_board (es : List Event) (n : LogicalAddress) :
    addressText ((board es).loc n) = addressText (lastRegistration n es) := by
  rw [← (matches_run 0 0 es).text, get_run]

theorem loggable_lookupRequest_iff (hm : NulFree m) (hbar : bar ∉ m) (hn : NulFree n)
    (hlen : m.length + 1 + n.length ≤ bufferSize) (src : SockAddr) :
    Loggable (board es) (.lookup ⟨src, lookupRequest m n⟩) ↔
      paired m = true ∧
        (lookupText m (addressText (lastRegistration n es)) src).length < bufferSize := by
  have hop := op?_lookupRequest hm hbar hn hlen src
  rw [← addressText_loc_board]
  constructor
  · exact fun h => h.lookup _ _ hop
  · intro h
    refine ⟨fun who k hop' => ?_, fun k a hop' => ?_⟩
    · rw [hop] at hop'
      cases hop'
      exact h
    · rw [hop] at hop'
      cases hop'

/-- Register, then look up: after any datagrams from anybody the reply to `m|n` is
one datagram that the client decodes to the address `n` last registered from, or to
nothing at all when it never did, if and only if the server has lived through what
came before and can write the line about the request. -/
theorem location_answered_iff (rl : Int) {ll : Int} (hll : 0 ≤ ll) (stderr : FilePtr)
    (es : List Event) {m n : LogicalAddress} (hm : NulFree m) (hbar : bar ∉ m)
    (hn : NulFree n) (hlen : m.length + 1 + n.length < bufferSize)
    (src server : SockAddr) :
    (∃ reply after,
      (new rl ll).runWithLog stderr (es ++ [.lookup ⟨src, lookupRequest m n⟩]) =
        ⟨((new rl ll).runWithLog stderr es).out ++ [⟨ll, src, reply⟩], .ok after⟩ ∧
      (∀ a, lastRegistration n es = some a →
        (ipStringToInt (readReply ⟨server, reply⟩)).toUInt32 = a) ∧
      (readReply ⟨server, reply⟩ = [] ↔ ¬ Registered n es)) ↔
    Lives es ∧ paired m = true ∧
      (lookupText m (addressText (lastRegistration n es)) src).length < bufferSize := by
  have hdoes := does_run rl ll stderr (es ++ [.lookup ⟨src, lookupRequest m n⟩])
  rw [← loggable_lookupRequest_iff hm hbar hn (Nat.le_of_lt hlen), ← lives_snoc]
  constructor
  · rintro ⟨reply, after, heq, _⟩
    rw [← hdoes.returns, heq]
    exact Outcome.returns_mk _ after
  · intro hlives
    obtain ⟨reply, hsent, hdecoded, hunknown⟩ :=
      lookup_returns_location rl hll es hm hbar hn hlen src server
    refine ⟨reply, (new rl ll).run (es ++ [.lookup ⟨src, lookupRequest m n⟩]), ?_, hdecoded,
      hunknown⟩
    rw [hdoes.eq hlives, (does_run rl ll stderr es).eq (lives_snoc.mp hlives).1,
      sends_snoc, hsent]

/-- B registers from 9 and A asks for it. -/
theorem location_answered_iff_example : ∃ reply after,
    (new 3 4).runWithLog 2 ([.registration ⟨⟨netV4, 5, 9⟩, ascii "B"⟩ 5] ++
        [.lookup ⟨⟨netV4, 7, 1⟩, lookupRequest (ascii "A") (ascii "B")⟩]) =
      ⟨((new 3 4).runWithLog 2 [.registration ⟨⟨netV4, 5, 9⟩, ascii "B"⟩ 5]).out ++
        [⟨4, ⟨netV4, 7, 1⟩, reply⟩], .ok after⟩ ∧
    (∀ a, lastRegistration (ascii "B")
        [.registration ⟨⟨netV4, 5, 9⟩, ascii "B"⟩ 5] = some a →
      (ipStringToInt (readReply ⟨.zero, reply⟩)).toUInt32 = a) ∧
    (readReply ⟨.zero, reply⟩ = [] ↔ ¬ Registered (ascii "B")
      [.registration ⟨⟨netV4, 5, 9⟩, ascii "B"⟩ 5]) := by
  refine (location_answered_iff 3 (by decide) 2
    [.registration ⟨⟨netV4, 5, 9⟩, ascii "B"⟩ 5] (by decide) (by decide) (by decide)
    (by decide) ⟨netV4, 7, 1⟩ .zero).mpr ⟨lives_of_modest ?_, by decide, by decide +kernel⟩
  intro e he
  rw [List.mem_singleton.mp he]
  exact ⟨by decide +kernel, by decide +kernel⟩

/-- B has registered, and `%s%s%s%s%s%s` asks for it: there is no reply. -/
theorem location_unanswered : ¬ ∀ (es : List Event) (m n : LogicalAddress)
    (src server : SockAddr), Lives es → NulFree m → bar ∉ m → NulFree n →
    m.length + 1 + n.length < bufferSize →
    ∃ reply after,
      (new 3 4).runWithLog 2 (es ++ [.lookup ⟨src, lookupRequest m n⟩]) =
        ⟨((new 3 4).runWithLog 2 es).out ++ [⟨4, src, reply⟩], .ok after⟩ ∧
      (∀ a, lastRegistration n es = some a →
        (ipStringToInt (readReply ⟨server, reply⟩)).toUInt32 = a) ∧
      (readReply ⟨server, reply⟩ = [] ↔ ¬ Registered n es) := by
  intro h
  obtain ⟨reply, after, heq, _⟩ := h [.registration ⟨⟨netV4, 5, 9⟩, ascii "B"⟩ 5]
    (ascii "%s%s%s%s%s%s") (ascii "B") ⟨netV4, 7, 1⟩ .zero
    (lives_of_modest fun e he => by
      rw [List.mem_singleton.mp he]
      exact ⟨by decide +kernel, by decide +kernel⟩)
    (by decide) (by decide) (by decide) (by decide)
  have hreturns := (does_run 3 4 2 ([.registration ⟨⟨netV4, 5, 9⟩, ascii "B"⟩ 5] ++
    [.lookup ⟨⟨netV4, 7, 1⟩, lookupRequest (ascii "%s%s%s%s%s%s") (ascii "B")⟩])).returns
  rw [heq] at hreturns
  have hpaired := (lives_snoc.mp (hreturns.mp (Outcome.returns_mk _ after))).2.lookup _ _
    (op?_lookupRequest (by decide) (by decide) (by decide) (by decide) _)
  exact absurd hpaired.1 (by decide)

end SimpleRendezvousServer

end PermanentIP

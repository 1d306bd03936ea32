import PermanentIP.Proofs.EchoCalls

/-!
# Two framings of one message

`SendMessage` puts a message on the wire with its terminating NUL and the
resend loop of `PollSubscriptions` without. The receiver zeroes its buffer and
reads a C string out of it, so for every message but the empty one the two
datagrams are the same to it, from one byte up to the 4095 that still leave
room for a NUL. The empty message is one byte in one framing and none in the
other, and `PrintReceivedData` takes no datagram without a byte in it.
-/

namespace PermanentIP

open Lib

namespace EchoApp

variable {app sender : EchoApp} {m : NetworkMsg} {src peer : SockAddr}
  {rest : List Packet} {fd : Int}

/-- The two calls did the same, and either both or neither took the datagram at
the head of their queue. -/
structure HandledAlike (r r' : Printed) : Prop where
  ok : r.ok = r'.ok
  sent : r.sent = r'.sent
  app : r.app = r'.app
  taken : r.socket.queue.length = r'.socket.queue.length

theorem HandledAlike.refl (r : Printed) : HandledAlike r r := ⟨rfl, rfl, rfl, rfl⟩

theorem payload_transmit {peerInfo : Option SockAddr} {sent : List Sent}
    {sender' : EchoApp} (h : sender.transmit m peerInfo = some (sent, sender')) :
    ∀ d ∈ sent, d.payload = m ++ [0] := by
  intro d hd
  rw [transmit] at h
  split at h
  · cases h
  · simp only [Option.some.injEq, Prod.mk.injEq] at h
    rw [← h.1] at hd
    split at hd
    · rw [sendto] at hd
      split at hd
      · cases hd
      · rw [List.mem_singleton] at hd
        rw [hd]
    · cases hd

theorem mem_resend {unsent : OrdSet NetworkMsg} (hfd : 0 ≤ fd) (hm : m ∈ unsent) :
    ⟨fd, peer, m⟩ ∈ SimpleMobileNode.resend fd peer unsent := by
  refine List.mem_flatMap.mpr ⟨m, hm, ?_⟩
  rw [sendto, if_neg (by omega)]
  exact List.mem_singleton_self _

/-- A message that is not empty is handled as itself, in either framing. -/
theorem printReceivedData_framed (hm : NulFree m) (hlen : m.length ≤ 4095)
    (hsrc : src.sinAddr ≠ (ipStringToInt app.rendezvousServer).toUInt32)
    (hne : m ≠ []) {payload : Bytes} (hp : payload = m ++ [0] ∨ payload = m) :
    app.printReceivedData ⟨⟨src, payload⟩ :: rest, none⟩ =
      { ok := true
        sent := (app.handleMessage m src).1
        app := (app.handleMessage m src).2
        socket := ⟨rest, none⟩ } := by
  have htext : Packet.text ⟨src, payload⟩ = m := by
    rcases hp with rfl | rfl
    · exact text_of_terminated hm (Nat.lt_succ_of_le hlen)
    · exact text_of_lt hm (Nat.le_succ_of_le hlen)
  have hpayload : payload ≠ [] := by
    rcases hp with rfl | rfl
    · simp
    · exact hne
  rw [printReceivedData_request hpayload hsrc, htext]

/-- What `SendMessage` sends of `m` and what the daemon resends of it are
handled alike by every receiver in every state, if and only if `m` is not empty
or the receiver does not look at the datagram in either case: it takes it for
the rendezvous server's, or its socket reports an error. Handled means as `m`
itself. -/
theorem resent_handled_alike_iff (app : EchoApp) (m : NetworkMsg)
    (hm : NulFree m) (hlen : m.length ≤ 4095) (src : SockAddr)
    (rest : List Packet) (e : Option Errno) :
    (∀ (sender : EchoApp) peerInfo sent sender',
      sender.transmit m peerInfo = some (sent, sender') →
        ∀ d ∈ sent, d.payload = m ++ [0]) ∧
    (∀ fd peer unsent, 0 ≤ fd → m ∈ unsent →
      ⟨fd, peer, m⟩ ∈ SimpleMobileNode.resend fd peer unsent) ∧
    (HandledAlike (app.printReceivedData ⟨⟨src, m ++ [0]⟩ :: rest, e⟩)
        (app.printReceivedData ⟨⟨src, m⟩ :: rest, e⟩) ↔
      m ≠ [] ∨
        src.sinAddr = (ipStringToInt app.rendezvousServer).toUInt32 ∨ e ≠ none) ∧
    (m ≠ [] → src.sinAddr ≠ (ipStringToInt app.rendezvousServer).toUInt32 →
      ∀ payload, payload = m ++ [0] ∨ payload = m →
        app.printReceivedData ⟨⟨src, payload⟩ :: rest, none⟩ =
          { ok := true
            sent := (app.handleMessage m src).1
            app := (app.handleMessage m src).2
            socket := ⟨rest, none⟩ }) := by
  refine ⟨fun _ _ _ _ h => payload_transmit h,
    fun _ _ _ hfd hmem => mem_resend hfd hmem, ?_,
    fun hne hsrc _ hp => printReceivedData_framed hm hlen hsrc hne hp⟩
  cases e with
  | some e =>
      rw [printReceivedData_error, printReceivedData_error]
      exact ⟨fun _ => Or.inr (Or.inr (by simp)), fun _ => ⟨rfl, rfl, rfl, rfl⟩⟩
  | none =>
      by_cases hsrc : src.sinAddr = (ipStringToInt app.rendezvousServer).toUInt32
      · rw [printReceivedData_ignored (Or.inr hsrc),
          printReceivedData_ignored (Or.inr hsrc)]
        exact ⟨fun _ => Or.inr (Or.inl hsrc), fun _ => ⟨rfl, rfl, rfl, rfl⟩⟩
      · by_cases hne : m = []
        · -- one byte is a message to the receiver, no byte is not
          subst hne
          rw [printReceivedData_request (by simp) hsrc,
            printReceivedData_ignored (Or.inl rfl)]
          constructor
          · intro h
            have htaken := h.taken
            simp at htaken
          · rintro (h | h | h)
            · exact absurd rfl h
            · exact absurd h hsrc
            · exact absurd rfl h
        · rw [printReceivedData_framed hm hlen hsrc hne (Or.inl rfl),
            printReceivedData_framed hm hlen hsrc hne (Or.inr rfl)]
          exact ⟨fun _ => Or.inl hne, fun _ => .refl _⟩

/-- Node A is sent `yo` by 9. -/
theorem resent_handled_alike_iff_example :
    HandledAlike
      (sample.printReceivedData ⟨[⟨⟨netV4, 9, 9⟩, ascii "yo" ++ [0]⟩], none⟩)
      (sample.printReceivedData ⟨[⟨⟨netV4, 9, 9⟩, ascii "yo"⟩], none⟩) :=
  (resent_handled_alike_iff sample (ascii "yo") (by decide) (by decide)
    ⟨netV4, 9, 9⟩ [] none).2.2.1.mpr (Or.inl (by decide))

/-- An empty message: the original is echoed, what is resent of it is not. -/
theorem empty_message_not_handled_alike : ¬ ∀ (m : NetworkMsg) (src : SockAddr)
    (rest : List Packet), NulFree m → m.length ≤ 4095 →
    HandledAlike (sample.printReceivedData ⟨⟨src, m ++ [0]⟩ :: rest, none⟩)
      (sample.printReceivedData ⟨⟨src, m⟩ :: rest, none⟩) := by
  intro h
  have htaken := (h [] ⟨netV4, 9, 9⟩ [] (by decide) (by decide)).taken
  exact absurd htaken (by decide +kernel)

end EchoApp

end PermanentIP

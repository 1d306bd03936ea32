import PermanentIP.Proofs.ClientLog
import PermanentIP.System.Heartbeats

/-!
# What a lost heartbeat costs

An application lets its next keyword out when the last one has come back, and
waits for it as long as it takes. So the network's first loss of a keyword, on
either leg, is its last: the owner never sends again, though the two stay
connected and the other's keyword still goes round (`one_loss_silences`).

The proof is a ledger. A keyword put on the wire is under way until it is
buried or lost, and what its owner still waits for is what it has sent and not
buried; the two balances have the losses as their difference.

Each application logs what it sends and what it echoes, and a line that cannot be
written ends it. `Logs` is the guard of the runs in which that does not happen; with
brief keywords it never does.
-/

namespace PermanentIP

open Lib

namespace Heartbeats

open TwoNodes (Side)

/-- How many datagrams with its keyword `x` puts on the wire in a step. -/
def sends (x : Side) (s : State) : Action → Nat
  | .sendMessage y =>
      if y = x then
        ((s y).app.sendMessage (s y).app.keyword none).2.1.length
      else 0
  | _ => 0

def loses (c : Config) (x : Side) (s : State) : Action → Nat
  | .lose y i =>
      if ((s y).transit[i]?).any (·.packet.text = c.keyword x) then 1 else 0
  | _ => 0

/-- The keyword of `x` is back at `x`, which receives it. -/
def buries (c : Config) (x : Side) (s : State) : Action → Nat
  | .printReceivedData y =>
      if y = x ∧ (s y).queue.head?.any (·.packet.text = c.keyword x) then 1
      else 0
  | _ => 0

variable {c : Config} {s t u v : State} {x y : Side} {d : Datagram}
  {m : NetworkMsg} {acts more : List Action}

/-! ## One step -/

/-- What one step does to both balances of `x`. -/
structure Balanced (c : Config) (s u : State) (a : Action) (x : Side) : Prop where
  wire : copies u (c.keyword x) + (loses c x s a + buries c x s a) =
    copies s (c.keyword x) + sends x s a
  awaited : allowance (u x).app + buries c x s a =
    allowance (s x).app + sends x s a

/-- What `x` puts on the wire when `y` calls `SendMessage`. -/
theorem sends_idle (hset : Settled c y (s y).app) (hr : (s y).app.received) :
    sends x s (.sendMessage y) = if y = x then 1 else 0 := by
  obtain ⟨app', heq, _, _⟩ := sendMessage_idle hset hr
  rw [sends, heq]
  rfl

theorem sends_waiting (hr : ¬ (s y).app.received) :
    sends x s (.sendMessage y) = 0 := by
  rw [sends, sendMessage_waiting hr]
  exact ite_self 0

theorem Balanced.sendMessage (hi : Inv c s)
    (hs : step c s (.sendMessage y) = some u) :
    Balanced c s u (.sendMessage y) x := by
  have hloses : loses c x s (.sendMessage y) = 0 := rfl
  have hburies : buries c x s (.sendMessage y) = 0 := rfl
  injection hs with hs
  subst hs
  by_cases hr : (s y).app.received
  · obtain ⟨app', heq, hset, hclear⟩ := sendMessage_idle (hi.settled y) hr
    simp only [heq, List.foldl_cons, List.foldl_nil]
    refine ⟨?_, ?_⟩
    · rw [copies_carry, copies_update_app, text_keyword, hloses, hburies,
        sends_idle (hi.settled y) hr]
      rcases eq_or_ne y x with rfl | hne
      · rw [if_pos rfl, if_pos rfl]
      · rw [if_neg hne, if_neg fun hkey => hne (Side.injective_of_ne c.keyword_ne hkey)]
    · rw [app_carry, hburies, sends_idle (hi.settled y) hr]
      rcases eq_or_ne y x with rfl | hne
      · rw [Function.update_self, allowance, hclear, allowance, if_pos hr,
          if_pos rfl]
        rfl
      · rw [Function.update_of_ne hne.symm, if_neg hne]
  · rw [sendMessage_waiting hr, List.foldl_nil]
    refine ⟨?_, ?_⟩
    · rw [sends_waiting hr, hloses, hburies]
      exact copies_update_app s y (s y).app _
    · rw [sends_waiting hr, hburies]
      rcases eq_or_ne x y with rfl | hne
      · rw [Function.update_self]
      · rw [Function.update_of_ne hne]

/-- A host with the same application and fewer datagrams under way. -/
theorem balanced_of_host {h' : Host} {a : Action} (happ : h'.app = (s y).app)
    (hsends : sends x s a = 0) (hburies : buries c x s a = 0)
    (hwire : h'.copies (c.keyword x) + loses c x s a =
      (s y).copies (c.keyword x)) :
    Balanced c s (Function.update s y h') a x := by
  have hcount := copies_update s y h' (c.keyword x)
  refine ⟨by omega, ?_⟩
  rw [hsends, hburies]
  rcases eq_or_ne x y with rfl | hne
  · rw [Function.update_self, happ]
  · rw [Function.update_of_ne hne]

theorem Balanced.lose {i : Nat} (hs : step c s (.lose y i) = some u) :
    Balanced c s u (.lose y i) x := by
  rw [step] at hs
  split at hs
  · next hlt =>
      injection hs with hs
      subst hs
      obtain ⟨d, hd⟩ : ∃ d, (s y).transit[i]? = some d :=
        ⟨_, List.getElem?_eq_getElem hlt⟩
      refine balanced_of_host rfl rfl rfl ?_
      have hcount := countP_eraseIdx (·.packet.text = c.keyword x) hd
      rw [loses, hd, Option.any_some]
      simp only [Host.copies, Host.underWay, List.countP_append]
      omega
  · cases hs

theorem Balanced.arrive {i : Nat} (hs : step c s (.arrive y i) = some u) :
    Balanced c s u (.arrive y i) x := by
  rw [step] at hs
  split at hs
  · next d hd =>
      injection hs with hs
      subst hs
      refine balanced_of_host rfl rfl rfl ?_
      have hcount := countP_eraseIdx (·.packet.text = c.keyword x) hd
      simp only [Host.copies, Host.underWay, List.countP_append,
        List.countP_singleton, loses]
      omega
  · cases hs

theorem Balanced.printReceivedData (hi : Inv c s)
    (hs : step c s (.printReceivedData y) = some u) :
    Balanced c s u (.printReceivedData y) x := by
  have hloses : loses c x s (.printReceivedData y) = 0 := rfl
  have hsends : sends x s (.printReceivedData y) = 0 := rfl
  cases prints hi hs with
  | empty hq =>
      have hnone : buries c x s (.printReceivedData y) = 0 := by
        rw [buries, hq]
        exact if_neg fun h => by cases h.2
      exact ⟨by rw [hnone]; rfl, by rw [hnone]; rfl⟩
  | echo hq htext hset hreceived =>
      next d rest app' fd =>
      have hnone : buries c x s (.printReceivedData y) = 0 := by
        rw [buries, hq, List.head?_cons, Option.any_some, htext]
        refine if_neg fun ⟨hyx, hkey⟩ => ?_
        subst hyx
        exact keyword_other_ne c y (of_decide_eq_true hkey)
      refine ⟨?_, ?_⟩
      · have htaken := copies_taken hq app' (c.keyword x)
        rw [copies_carry, text_keyword, hnone, ← htext]
        exact htaken
      · rw [app_carry, hnone]
        rcases eq_or_ne x y with rfl | hne
        · rw [Function.update_self, allowance, hreceived]
          rfl
        · rw [Function.update_of_ne hne]
          rfl
  | bury hq htext hset hreceived =>
      next d rest app' =>
      have htaken := copies_taken hq app' (c.keyword x)
      have hburies : buries c x s (.printReceivedData y) =
          if y = x then 1 else 0 := by
        rw [buries, hq, List.head?_cons, Option.any_some, htext]
        rcases eq_or_ne y x with rfl | hne
        · simp
        · rw [if_neg hne]
          exact if_neg fun h => hne h.1
      refine ⟨?_, ?_⟩
      · rw [htext] at htaken
        rw [hburies, hloses, hsends, ← htaken, Nat.zero_add]
        rcases eq_or_ne y x with rfl | hne
        · rw [if_pos rfl, if_pos rfl]
        · rw [if_neg hne, if_neg fun hkey => hne (Side.injective_of_ne c.keyword_ne hkey)]
      · rw [hburies, hsends]
        rcases eq_or_ne y x with rfl | hne
        · have hmine : copies s (c.keyword y) ≠ 0 := by
            rw [if_pos htext] at htaken
            omega
          have hbound := hi.bounded y
          rw [Function.update_self, allowance, hreceived, if_pos rfl, if_pos rfl]
          have hone : allowance (s y).app ≤ 1 := by
            rw [allowance]
            split <;> omega
          show 0 + 1 = allowance (s y).app + 0
          omega
        · rw [Function.update_of_ne hne.symm, if_neg hne]

theorem Inv.balanced (hi : Inv c s) {a : Action}
    (hs : Heartbeats.step c s a = some u)
    (x : Side) : Balanced c s u a x := by
  cases a with
  | sendMessage y => exact .sendMessage hi hs
  | printReceivedData y => exact .printReceivedData hi hs
  | lose y i => exact .lose hs
  | arrive y i => exact .arrive hs

/-! ## The log -/

/-- The call can write the lines it has to. -/
def Logs (s : State) : Action → Prop
  | .sendMessage x => (s x).app.LogsSend (s x).app.keyword
  | .printReceivedData x =>
      (s x).app.LogsPrint ⟨(s x).queue.map Datagram.packet, none⟩
  | .lose .. | .arrive .. => True

instance (s : State) (a : Action) : Decidable (Logs s a) := by
  cases a <;> unfold Logs <;> infer_instance

theorem brief_cstr_keyword (hbrief : Brief (c.keyword x)) : Brief (cstr (c.keyword x)) := by
  rwa [cstr_eq_self (c.nulFree x)]

theorem Inv.logs (hi : Inv c s) (hbrief : ∀ x, Brief (c.keyword x)) (a : Action) :
    Logs s a := by
  cases a with
  | sendMessage x =>
      intro _
      rw [(hi.settled x).keyword]
      have hline : Printable (EchoApp.receivedText (c.keyword x) (c.addr x)) :=
        EchoApp.printable_received (brief_cstr_keyword (hbrief x))
      exact EchoApp.printable_sending_of_received hline
  | printReceivedData x =>
      intro _ p hp _
      rw [List.head?_map] at hp
      obtain ⟨d, hd, rfl⟩ := Option.mem_map.mp hp
      have hmem : d ∈ (s x).underWay := List.mem_append_right _ (List.mem_of_mem_head? hd)
      refine EchoApp.printable_received ?_
      rcases (hi.belongs x d hmem).text with ⟨htext, _⟩ | ⟨htext, _⟩
      · rw [htext]
        exact brief_cstr_keyword (hbrief x.other)
      · rw [htext]
        exact brief_cstr_keyword (hbrief x)
  | lose x i => trivial
  | arrive x i => trivial

/-! ## A run -/

theorem inv_run (h : Initial c s) (hrun : Run (step c) Always s acts t) : Inv c t :=
  hrun.invariant h.inv fun _ _ _ ht _ hs => ht.step hs

/-- What was sent was buried, was lost, or is under way. -/
theorem sent_eq (hi : Inv c s) (hrun : Run (step c) Always s acts t) (x : Side) :
    copies t (c.keyword x) +
        (tally (step c) (loses c x) s acts + tally (step c) (buries c x) s acts) =
      copies s (c.keyword x) + tally (step c) (sends x) s acts := by
  have hledger := hrun.balance (fun s => copies s (c.keyword x))
    (fun s a => loses c x s a + buries c x s a) (sends x) hi
    (fun _ _ _ ht _ hs => ht.step hs) fun _ _ _ ht _ hs => (ht.balanced hs x).wire
  rwa [tally_add] at hledger

/-- What is awaited was sent and has not been buried. -/
theorem awaited_eq (hi : Inv c s) (hrun : Run (step c) Always s acts t) (x : Side) :
    allowance (t x).app + tally (step c) (buries c x) s acts =
      allowance (s x).app + tally (step c) (sends x) s acts :=
  hrun.balance (fun s => allowance (s x).app) (buries c x) (sends x) hi
    (fun _ _ _ ht _ hs => ht.step hs) fun _ _ _ ht _ hs =>
      (ht.balanced hs x).awaited

theorem allowance_eq_zero {app : EchoApp} : allowance app = 0 ↔ app.received := by
  rw [allowance]
  split
  · next h => exact iff_of_true rfl h
  · next h => exact iff_of_false Nat.one_ne_zero h

theorem allowance_le (app : EchoApp) : allowance app ≤ 1 := by
  rw [allowance]
  split <;> omega

/-- An application that waits for a keyword nobody carries. -/
structure Silenced (c : Config) (x : Side) (s : State) : Prop where
  inv : Inv c s
  waits : ¬ (s x).app.received
  gone : copies s (c.keyword x) = 0

theorem Silenced.sends (h : Silenced c x s) (a : Action) : sends x s a = 0 := by
  cases a with
  | sendMessage y =>
      rcases eq_or_ne y x with rfl | hne
      · exact sends_waiting h.waits
      · exact if_neg hne
  | printReceivedData y => rfl
  | lose y i => rfl
  | arrive y i => rfl

theorem Silenced.step (h : Silenced c x s) {a : Action}
    (hs : Heartbeats.step c s a = some u) : Silenced c x u := by
  obtain ⟨hwire, hawaited⟩ := h.inv.balanced hs x
  rw [h.gone, h.sends] at hwire
  rw [h.sends] at hawaited
  have hwaits := allowance_eq_zero.not.mpr h.waits
  refine ⟨h.inv.step hs, allowance_eq_zero.not.mp ?_, ?_⟩ <;> omega

/-- Whatever the order of sends, losses, arrivals and receives, as long as both come
back from the log: every keyword that went out was buried by its owner, was lost, or
is under way; and the owner waits exactly for the one under way or lost. So the first
keyword lost is the last one sent: from then on its owner waits, and sends nothing.
With brief keywords both always come back. -/
theorem one_loss_silences (h : Initial c s)
    (hrun : Run (step c) Logs s acts t) (x : Side) :
    let sent := tally (step c) (sends x) s acts
    let lost := tally (step c) (loses c x) s acts
    let buried := tally (step c) (buries c x) s acts
    sent = buried + lost + copies t (c.keyword x) ∧
    lost + copies t (c.keyword x) = (if (t x).app.received then 0 else 1) ∧
    (lost ≠ 0 → ∀ more v, Run (step c) Logs t more v →
      tally (step c) (sends x) t more = 0 ∧ (v x).app.received = false) ∧
    ((∀ y, Brief (c.keyword y)) → ∀ a, Logs t a) := by
  intro sent lost buried
  have hrun := hrun.mono fun _ _ _ => trivial
  have hwire := sent_eq h.inv hrun x
  have hawaited := awaited_eq h.inv hrun x
  rw [copies_init h] at hwire
  rw [allowance_eq_zero.mpr (h.received x)] at hawaited
  refine ⟨by omega, ?_, fun hlost more v hmore => ?_, (inv_run h hrun).logs⟩
  · show lost + copies t (c.keyword x) = allowance (t x).app
    omega
  · have hone := allowance_le (t x).app
    have hwaits : allowance (t x).app ≠ 0 := by omega
    have hsilenced : Silenced c x t :=
      ⟨inv_run h hrun, allowance_eq_zero.not.mp hwaits, by omega⟩
    refine ⟨hmore.tally_eq_zero hsilenced (fun _ _ _ hs _ => hs.step)
      fun _ a hs => hs.sends a, ?_⟩
    have hend : Silenced c x v :=
      hmore.invariant hsilenced fun _ _ _ hs _ => hs.step
    exact Bool.eq_false_iff.mpr hend.waits

/-- B's echo of A's `hi` is lost, and A is not heard again, though B's `yo` is. -/
theorem one_loss_silences_example : ∃ t v,
    exec (step sampleConfig) Logs sampleState
      [.sendMessage .a, .sendMessage .b, .arrive .b 0, .printReceivedData .b,
        .lose .a 1] = some t ∧
    exec (step sampleConfig) Logs t
      [.sendMessage .a, .arrive .a 0, .printReceivedData .a, .sendMessage .a] =
      some v ∧
    tally (step sampleConfig) (sends .a) t
      [.sendMessage .a, .arrive .a 0, .printReceivedData .a, .sendMessage .a] =
      0 ∧
    (v .a).app.received = false := by
  have hlost : tally (step sampleConfig) (loses sampleConfig .a) sampleState
      [.sendMessage .a, .sendMessage .b, .arrive .b 0, .printReceivedData .b,
        .lose .a 1] ≠ 0 := by
    decide +kernel
  have hsome : ((exec (step sampleConfig) Logs sampleState
      [.sendMessage .a, .sendMessage .b, .arrive .b 0, .printReceivedData .b,
        .lose .a 1]).bind fun t => exec (step sampleConfig) Logs t
      [.sendMessage .a, .arrive .a 0, .printReceivedData .a,
        .sendMessage .a]).isSome := by
    decide +kernel
  obtain ⟨v, hv⟩ := Option.isSome_iff_exists.mp hsome
  obtain ⟨t, ht, htv⟩ := Option.bind_eq_some_iff.mp hv
  obtain ⟨hsends, hwaits⟩ := (one_loss_silences initial_sample (.of_exec ht) .a).2.2.1
    hlost _ v (.of_exec htv)
  exact ⟨t, v, ht, htv, hsends, hwaits⟩

end Heartbeats

end PermanentIP

import Mathlib.Data.List.Perm.Basic
import PermanentIP.System.TwoNodes

/-!
# One heartbeat each

Two applications, connected to each other, that send their keywords and echo
what they receive. One function, `SendMessage`, sends both, and lets a keyword
out only while `received_` is set, which it then clears; `PrintReceivedData`
sets it when the keyword is back. The network may lose what it carries and
deliver it in any order.

A keyword goes out from its owner, is echoed by the other side, and is buried
where it came from: every datagram under way is on one of the two legs
(`Belongs`), and with a ghost count of the legs behind it that is all there is
to know about it. The number of copies of a keyword under way, in both
directions together, is at most one, and none while its owner may send
(`one_heartbeat_each`).
-/

namespace PermanentIP

open Lib

namespace Heartbeats

open TwoNodes (Side)

/-- Two applications' addresses and keywords. -/
structure Config where
  addr : Side → SockAddr
  keyword : Side → NetworkMsg
  rendezvousServer : PhysicalAddress
  addr_ne : addr .a ≠ addr .b
  addr_ne_server : ∀ x,
    (addr x).sinAddr ≠ (ipStringToInt rendezvousServer).toUInt32
  keyword_ne : keyword .a ≠ keyword .b
  nulFree : ∀ x, NulFree (keyword x)
  short : ∀ x, (keyword x).length ≤ 4095

/-- A datagram, and how many times what it carries has been echoed. -/
structure Datagram where
  packet : Packet
  echoes : Nat

/-- An application, the queue of its socket, and what is on its way there. -/
structure Host where
  app : EchoApp
  queue : List Datagram
  transit : List Datagram

abbrev State := Side → Host

def Host.underWay (h : Host) : List Datagram := h.transit ++ h.queue

inductive Action where
  | sendMessage (x : Side)
  | printReceivedData (x : Side)
  | lose (x : Side) (i : Nat)
  | arrive (x : Side) (i : Nat)
deriving DecidableEq

def Config.route (c : Config) (dst : SockAddr) : Option Side :=
  if dst = c.addr .a then some .a else if dst = c.addr .b then some .b else none

/-- What `x` has sent is on its way to whoever it is for. -/
def carry (c : Config) (x : Side) (echoes : Nat) (s : State) (d : Sent) : State :=
  match c.route d.dst with
  | some y =>
      Function.update s y { s y with
        transit := (s y).transit ++ [⟨⟨c.addr x, d.payload⟩, echoes⟩] }
  | none => s

def step (c : Config) (s : State) : Action → Option State
  | .sendMessage x =>
      let h := s x
      let r := h.app.sendMessage h.app.keyword none
      some (r.2.1.foldl (carry c x 0) (Function.update s x { h with app := r.2.2 }))
  | .printReceivedData x =>
      let h := s x
      let r := h.app.printReceivedData ⟨h.queue.map Datagram.packet, none⟩
      let taken := h.queue.length - r.socket.queue.length
      let echoes := (h.queue.head?.map Datagram.echoes).getD 0
      some (r.sent.foldl (carry c x (echoes + 1)) (Function.update s x
        { h with app := r.app, queue := h.queue.drop taken }))
  | .lose x i =>
      let h := s x
      if i < h.transit.length then
        some (Function.update s x { h with transit := h.transit.eraseIdx i })
      else none
  | .arrive x i =>
      let h := s x
      match h.transit[i]? with
      | some d =>
          some (Function.update s x
            { h with transit := h.transit.eraseIdx i, queue := h.queue ++ [d] })
      | none => none

/-- What never changes of an application here: its keyword, the rendezvous
server it leaves to the daemon, its socket, and where its peer is. -/
structure Settled (c : Config) (x : Side) (app : EchoApp) : Prop where
  keyword : app.keyword = c.keyword x
  server : app.rendezvousServer = c.rendezvousServer
  appSocket : 0 ≤ app.appSocket
  peer : app.destination none = some (c.addr x.other)

/-- Connected to each other, nothing sent yet. -/
structure Initial (c : Config) (s : State) : Prop where
  settled : ∀ x, Settled c x (s x).app
  received : ∀ x, (s x).app.received
  queue : ∀ x, (s x).queue = []
  transit : ∀ x, (s x).transit = []

/-- On its way to `x` there is the other's keyword, sent by the other, or the
own one, echoed by the other. -/
structure Belongs (c : Config) (x : Side) (d : Datagram) : Prop where
  source : d.packet.src = c.addr x.other
  leg : (d.packet.payload = c.keyword x.other ++ [0] ∧ d.echoes = 0) ∨
    (d.packet.payload = c.keyword x ++ [0] ∧ d.echoes = 1)

def Host.copies (h : Host) (m : NetworkMsg) : Nat :=
  h.underWay.countP (·.packet.text = m)

/-- How many datagrams under way, in either direction, carry `m`. -/
def copies (s : State) (m : NetworkMsg) : Nat :=
  (s .a).copies m + (s .b).copies m

/-- What an application may have under way. -/
def allowance (app : EchoApp) : Nat := if app.received then 0 else 1

structure Inv (c : Config) (s : State) : Prop where
  settled : ∀ x, Settled c x (s x).app
  belongs : ∀ x, ∀ d ∈ (s x).underWay, Belongs c x d
  bounded : ∀ x, copies s (c.keyword x) ≤ allowance (s x).app

variable {c : Config} {s t u : State} {x y : Side} {d : Datagram} {h : Host}
  {m : NetworkMsg} {acts : List Action}

theorem route_addr (c : Config) (x : Side) : c.route (c.addr x) = some x := by
  cases x with
  | a => exact if_pos rfl
  | b => rw [Config.route, if_neg (Ne.symm c.addr_ne), if_pos rfl]

theorem keyword_other_ne (c : Config) (x : Side) :
    c.keyword x.other ≠ c.keyword x := fun h =>
  TwoNodes.Side.other_ne x (TwoNodes.Side.injective_of_ne c.keyword_ne h)

theorem text_keyword (src : SockAddr) (x : Side) :
    Packet.text ⟨src, c.keyword x ++ [0]⟩ = c.keyword x :=
  text_of_terminated (c.nulFree x) (Nat.lt_succ_of_le (c.short x))

theorem Belongs.text (h : Belongs c x d) :
    (d.packet.text = c.keyword x.other ∧ d.echoes = 0) ∨
      (d.packet.text = c.keyword x ∧ d.echoes = 1) := by
  obtain ⟨⟨src, payload⟩, echoes⟩ := d
  rcases h.leg with ⟨hp, he⟩ | ⟨hp, he⟩
  · refine Or.inl ⟨?_, he⟩
    simp only at hp
    rw [hp, text_keyword]
  · refine Or.inr ⟨?_, he⟩
    simp only at hp
    rw [hp, text_keyword]

theorem copies_eq (s : State) (m : NetworkMsg) (x : Side) :
    copies s m = (s x).copies m + (s x.other).copies m := by
  cases x with
  | a => rfl
  | b => exact Nat.add_comm _ _

/-- What one host has under way less is under way less. -/
theorem copies_update (s : State) (x : Side) (h : Host) (m : NetworkMsg) :
    copies (Function.update s x h) m + (s x).copies m =
      copies s m + h.copies m := by
  rw [copies_eq _ m x, copies_eq s m x, Function.update_self,
    Function.update_of_ne (TwoNodes.Side.other_ne x)]
  omega

theorem copies_update_app (s : State) (x : Side) (app : EchoApp) (m : NetworkMsg) :
    copies (Function.update s x { s x with app := app }) m = copies s m := by
  have hcount := copies_update s x ⟨app, (s x).queue, (s x).transit⟩ m
  exact Nat.add_right_cancel hcount

/-! ## What one datagram more or less does -/

theorem countP_eraseIdx {β : Type*} {l : List β} {b : β} {i : Nat} (p : β → Bool)
    (h : l[i]? = some b) :
    (l.eraseIdx i).countP p + (if p b then 1 else 0) = l.countP p := by
  obtain ⟨hlt, hget⟩ := List.getElem?_eq_some_iff.mp h
  have hperm := List.getElem_cons_eraseIdx_perm hlt
  rw [← hperm.countP_eq p, hget, List.countP_cons]

theorem carry_addr (c : Config) (x y : Side) (echoes : Nat) (s : State) (fd : Int)
    (payload : Bytes) :
    carry c x echoes s ⟨fd, c.addr y, payload⟩ =
      Function.update s y { s y with
        transit := (s y).transit ++ [⟨⟨c.addr x, payload⟩, echoes⟩] } := by
  rw [carry, route_addr]

section Carry

variable {echoes : Nat} {fd : Int} {payload : Bytes}

theorem app_carry (z : Side) :
    (carry c x echoes s ⟨fd, c.addr y, payload⟩ z).app = (s z).app := by
  rw [carry_addr]
  rcases eq_or_ne z y with rfl | hne
  · rw [Function.update_self]
  · rw [Function.update_of_ne hne]

theorem mem_underWay_carry {z : Side}
    (h : d ∈ (carry c x echoes s ⟨fd, c.addr y, payload⟩ z).underWay) :
    d ∈ (s z).underWay ∨ z = y ∧ d = ⟨⟨c.addr x, payload⟩, echoes⟩ := by
  rw [carry_addr] at h
  rcases eq_or_ne z y with rfl | hne
  · simp only [Function.update_self, Host.underWay, List.mem_append,
      List.mem_singleton] at h ⊢
    tauto
  · rw [Function.update_of_ne hne] at h
    exact Or.inl h

theorem copies_carry (m : NetworkMsg) :
    copies (carry c x echoes s ⟨fd, c.addr y, payload⟩) m =
      copies s m + if Packet.text ⟨c.addr x, payload⟩ = m then 1 else 0 := by
  have hcount := copies_update s y { s y with
    transit := (s y).transit ++ [⟨⟨c.addr x, payload⟩, echoes⟩] } m
  rw [← carry_addr c x y echoes s fd payload] at hcount
  simp only [Host.copies, Host.underWay, List.countP_append, List.countP_singleton,
    decide_eq_true_eq] at hcount
  omega

end Carry

/-! ## The two calls -/

variable {app : EchoApp}

theorem Settled.messageSent (h : Settled c x app) (m : NetworkMsg) :
    Settled c x (app.messageSent m) :=
  ⟨h.keyword, h.server, h.appSocket, h.peer⟩

theorem Settled.messageReceived (h : Settled c x app) (m : NetworkMsg) :
    Settled c x (app.messageReceived m) :=
  ⟨h.keyword, h.server, h.appSocket, h.peer⟩

theorem Settled.setReceived (h : Settled c x app) (received : Bool) :
    Settled c x { app with received := received } :=
  ⟨h.keyword, h.server, h.appSocket, h.peer⟩

theorem sendMessage_idle (hset : Settled c x app) (hr : app.received) :
    ∃ app', app.sendMessage app.keyword none =
        (true, [⟨app.appSocket, c.addr x.other, c.keyword x ++ [0]⟩], app') ∧
      Settled c x app' ∧ app'.received = false := by
  have hnot : ¬ app.appSocket < 0 := Int.not_lt.mpr hset.appSocket
  have htransmit : app.transmit app.keyword none =
      some ([⟨app.appSocket, c.addr x.other, c.keyword x ++ [0]⟩],
        { app with received := false }) := by
    rw [EchoApp.transmit, if_neg (by simp [hr])]
    simp only [hset.peer, sendto, if_neg hnot, hset.keyword, if_true]
  refine ⟨{ app with received := false }.messageSent app.keyword, ?_, ?_, rfl⟩
  · rw [EchoApp.sendMessage, htransmit]
  · exact (hset.setReceived false).messageSent app.keyword

theorem sendMessage_waiting (hr : ¬ app.received) :
    app.sendMessage app.keyword none = (false, [], app) := by
  rw [EchoApp.sendMessage, EchoApp.transmit, if_pos ⟨rfl, by simpa using hr⟩]

/-! ## The invariant -/

theorem copies_init (h : Initial c s) (m : NetworkMsg) : copies s m = 0 := by
  have hnone : ∀ x, (s x).copies m = 0 := by
    intro x
    rw [Host.copies, Host.underWay, h.queue, h.transit]
    rfl
  rw [copies, hnone, hnone]

theorem Initial.inv (h : Initial c s) : Inv c s where
  settled := h.settled
  belongs x d hd := by
    rw [Host.underWay, h.queue, h.transit] at hd
    cases hd
  bounded x := by
    rw [copies_init h]
    exact Nat.zero_le _

/-- A host that keeps its application and has no more under way than before. -/
theorem Inv.shrink (hi : Inv c s) {h' : Host} (happ : h'.app = (s x).app)
    (hsub : ∀ d ∈ h'.underWay, d ∈ (s x).underWay)
    (hle : ∀ m, h'.copies m ≤ (s x).copies m) :
    Inv c (Function.update s x h') := by
  have happs : ∀ y, (Function.update s x h' y).app = (s y).app := by
    intro y
    rcases eq_or_ne y x with rfl | hne
    · rw [Function.update_self, happ]
    · rw [Function.update_of_ne hne]
  refine ⟨?_, ?_, ?_⟩
  · intro y
    rw [happs]
    exact hi.settled y
  · intro y d hd
    rcases eq_or_ne y x with rfl | hne
    · rw [Function.update_self] at hd
      exact hi.belongs y d (hsub d hd)
    · rw [Function.update_of_ne hne] at hd
      exact hi.belongs y d hd
  · intro y
    have hcount := copies_update s x h' (c.keyword y)
    have hless := hle (c.keyword y)
    have hbound := hi.bounded y
    rw [happs]
    omega

/-- A host whose application has changed and which has sent one datagram to the
other. -/
theorem Inv.sendTo (hi : Inv c s) {h' : Host} {echoes : Nat} {fd : Int}
    {payload : Bytes} (hset : Settled c x h'.app)
    (hsub : ∀ d ∈ h'.underWay, d ∈ (s x).underWay)
    (hnew : Belongs c x.other ⟨⟨c.addr x, payload⟩, echoes⟩)
    (hbound : ∀ y, copies (Function.update s x h') (c.keyword y) +
        (if Packet.text ⟨c.addr x, payload⟩ = c.keyword y then 1 else 0) ≤
      allowance (Function.update s x h' y).app) :
    Inv c (carry c x echoes (Function.update s x h')
      ⟨fd, c.addr x.other, payload⟩) := by
  refine ⟨?_, ?_, ?_⟩
  · intro y
    rw [app_carry]
    rcases eq_or_ne y x with rfl | hne
    · rw [Function.update_self]
      exact hset
    · rw [Function.update_of_ne hne]
      exact hi.settled y
  · intro y d hd
    rcases mem_underWay_carry hd with hd | ⟨rfl, rfl⟩
    · rcases eq_or_ne y x with rfl | hne
      · rw [Function.update_self] at hd
        exact hi.belongs y d (hsub d hd)
      · rw [Function.update_of_ne hne] at hd
        exact hi.belongs y d hd
    · exact hnew
  · intro y
    rw [copies_carry, app_carry]
    exact hbound y

theorem Inv.sendMessage (hi : Inv c s)
    (hs : step c s (.sendMessage x) = some u) : Inv c u := by
  injection hs with hs
  subst hs
  by_cases hr : (s x).app.received
  · obtain ⟨app', heq, hset, hclear⟩ := sendMessage_idle (hi.settled x) hr
    simp only [heq, List.foldl_cons, List.foldl_nil]
    refine hi.sendTo hset (fun d hd => hd)
      ⟨by rw [TwoNodes.Side.other_other], Or.inl ⟨?_, rfl⟩⟩ ?_
    · rw [TwoNodes.Side.other_other]
    · intro y
      have hbound := hi.bounded y
      rw [text_keyword, copies_update_app]
      rcases eq_or_ne y x with rfl | hne
      · rw [allowance, if_pos hr] at hbound
        rw [Function.update_self, allowance, hclear, if_pos rfl,
          Nat.le_zero.mp hbound]
        exact Nat.le_refl _
      · rw [Function.update_of_ne hne, if_neg]
        · exact hbound
        · intro hkey
          rcases x.eq_or_eq_other y with rfl | rfl
          · exact hne rfl
          · exact keyword_other_ne c x hkey.symm
  · rw [sendMessage_waiting hr]
    exact hi.shrink rfl (fun d hd => hd) fun m => Nat.le_refl _

theorem Inv.lose (hi : Inv c s) {i : Nat} (hs : step c s (.lose x i) = some u) :
    Inv c u := by
  rw [step] at hs
  split at hs
  · injection hs with hs
    subst hs
    have hsub : ((s x).transit.eraseIdx i ++ (s x).queue).Sublist
        (s x).underWay :=
      (List.eraseIdx_sublist _ _).append_right _
    exact hi.shrink rfl (fun d hd => hsub.subset hd)
      fun m => hsub.countP_le
  · cases hs

theorem Inv.arrive (hi : Inv c s) {i : Nat} (hs : step c s (.arrive x i) = some u) :
    Inv c u := by
  rw [step] at hs
  split at hs
  · next d hd =>
      injection hs with hs
      subst hs
      obtain ⟨hlt, hget⟩ := List.getElem?_eq_some_iff.mp hd
      have hperm : ((s x).transit.eraseIdx i ++ ((s x).queue ++ [d])).Perm
          (s x).underWay := by
        rw [← List.append_assoc]
        refine List.perm_append_singleton d _ |>.trans ?_
        rw [← hget, ← List.cons_append]
        exact (List.getElem_cons_eraseIdx_perm hlt).append_right _
      exact hi.shrink rfl (fun e he => hperm.mem_iff.mp he)
        fun m => (hperm.countP_eq _).le
  · cases hs

section Taken

variable {rest : List Datagram} {app' : EchoApp}

theorem underWay_taken (hq : (s x).queue = d :: rest) (app' : EchoApp) :
    ∀ e ∈ (⟨app', rest, (s x).transit⟩ : Host).underWay, e ∈ (s x).underWay := by
  intro e he
  rw [Host.underWay, hq]
  simp only [Host.underWay, List.mem_append, List.mem_cons] at he ⊢
  tauto

/-- A datagram taken off the queue is one less under way. -/
theorem copies_taken (hq : (s x).queue = d :: rest) (app' : EchoApp) (m : NetworkMsg) :
    copies (Function.update s x ⟨app', rest, (s x).transit⟩) m +
      (if d.packet.text = m then 1 else 0) = copies s m := by
  have hupdate := copies_update s x ⟨app', rest, (s x).transit⟩ m
  simp only [Host.copies, Host.underWay, hq, List.countP_append,
    List.countP_cons, decide_eq_true_eq] at hupdate
  omega

/-- The other's keyword, on its first leg: back it goes. -/
theorem Inv.bounce (hi : Inv c s) (hq : (s x).queue = d :: rest)
    (htext : d.packet.text = c.keyword x.other) (hset : Settled c x app')
    (hreceived : app'.received = (s x).app.received) (fd : Int) :
    Inv c (carry c x 1 (Function.update s x ⟨app', rest, (s x).transit⟩)
      ⟨fd, c.addr x.other, c.keyword x.other ++ [0]⟩) := by
  refine hi.sendTo hset (underWay_taken hq app')
    ⟨by rw [TwoNodes.Side.other_other], Or.inr ⟨rfl, rfl⟩⟩ ?_
  intro y
  have hkeep := copies_taken hq app' (c.keyword y)
  rw [htext] at hkeep
  rw [text_keyword, hkeep]
  have hbound := hi.bounded y
  rcases eq_or_ne y x with rfl | hyx
  · rw [Function.update_self, allowance, hreceived]
    exact hbound
  · rw [Function.update_of_ne hyx]
    exact hbound

/-- The own keyword, on its second leg: it is buried. -/
theorem Inv.bury (hi : Inv c s) (hq : (s x).queue = d :: rest)
    (htext : d.packet.text = c.keyword x) (hset : Settled c x app') :
    Inv c (Function.update s x ⟨app', rest, (s x).transit⟩) := by
  refine ⟨?_, ?_, ?_⟩
  · intro y
    rcases eq_or_ne y x with rfl | hne
    · rw [Function.update_self]
      exact hset
    · rw [Function.update_of_ne hne]
      exact hi.settled y
  · intro y e he
    rcases eq_or_ne y x with rfl | hne
    · rw [Function.update_self] at he
      exact hi.belongs y e (underWay_taken hq app' e he)
    · rw [Function.update_of_ne hne] at he
      exact hi.belongs y e he
  · intro y
    have hless := copies_taken hq app' (c.keyword y)
    have hbound := hi.bounded y
    rw [htext] at hless
    rcases eq_or_ne y x with rfl | hne
    · rw [if_pos rfl] at hless
      have hone : allowance (s y).app ≤ 1 := by
        rw [allowance]
        split <;> omega
      omega
    · rw [Function.update_of_ne hne]
      omega

end Taken

/-- What `PrintReceivedData` does: nothing, or it echoes the other's keyword, or
it buries its own. -/
inductive Prints (c : Config) (s : State) (x : Side) : State → Prop
  | empty (hq : (s x).queue = []) : Prints c s x s
  | echo {d : Datagram} {rest : List Datagram} {app' : EchoApp} {fd : Int}
      (hq : (s x).queue = d :: rest) (htext : d.packet.text = c.keyword x.other)
      (hset : Settled c x app') (hreceived : app'.received = (s x).app.received) :
      Prints c s x
        (carry c x 1 (Function.update s x ⟨app', rest, (s x).transit⟩)
          ⟨fd, c.addr x.other, c.keyword x.other ++ [0]⟩)
  | bury {d : Datagram} {rest : List Datagram} {app' : EchoApp}
      (hq : (s x).queue = d :: rest) (htext : d.packet.text = c.keyword x)
      (hset : Settled c x app') (hreceived : app'.received = true) :
      Prints c s x (Function.update s x ⟨app', rest, (s x).transit⟩)

theorem prints (hi : Inv c s) (hs : step c s (.printReceivedData x) = some u) :
    Prints c s x u := by
  injection hs with hs
  subst hs
  cases hq : (s x).queue with
  | nil =>
      rw [List.map_nil, EchoApp.printReceivedData_nil]
      simp only [List.drop_nil, List.foldl_nil]
      rw [← hq, Function.update_eq_self]
      exact .empty hq
  | cons d rest =>
      have hd : d ∈ (s x).underWay := by
        rw [Host.underWay, hq]
        exact List.mem_append_right _ List.mem_cons_self
      have hbelongs := hi.belongs x d hd
      have hset := hi.settled x
      have hpayload : d.packet.payload ≠ [] := by
        rcases hbelongs.leg with ⟨hp, _⟩ | ⟨hp, _⟩ <;> rw [hp] <;> simp
      have hsrc : d.packet.src.sinAddr ≠
          (ipStringToInt (s x).app.rendezvousServer).toUInt32 := by
        rw [hbelongs.source, hset.server]
        exact c.addr_ne_server x.other
      have hone : (d :: rest).length - (rest.map Datagram.packet).length = 1 := by
        rw [List.length_cons, List.length_map]
        omega
      rw [List.map_cons, EchoApp.printReceivedData_request hpayload hsrc]
      simp only [hone, List.drop_succ_cons, List.drop_zero, List.head?_cons,
        Option.map_some, Option.getD_some]
      rcases hbelongs.text with ⟨htext, hechoes⟩ | ⟨htext, _⟩
      · have hne : d.packet.text ≠ (s x).app.keyword := by
          rw [htext, hset.keyword]
          exact keyword_other_ne c x
        rw [EchoApp.handleMessage_of_ne hne hset.appSocket, htext, hechoes, hbelongs.source]
        exact .echo hq htext (((hset.messageReceived _).messageSent _).messageReceived _) rfl
      · have hown : d.packet.text = (s x).app.keyword := htext.trans hset.keyword.symm
        rw [EchoApp.handleMessage_keyword hown]
        exact .bury hq htext ((hset.messageReceived _).setReceived true) rfl

theorem Inv.printReceivedData (hi : Inv c s)
    (hs : step c s (.printReceivedData x) = some u) : Inv c u := by
  cases prints hi hs with
  | empty hq => exact hi
  | echo hq htext hset hreceived => exact hi.bounce hq htext hset hreceived _
  | bury hq htext hset hreceived => exact hi.bury hq htext hset

theorem Inv.step (hi : Inv c s) {a : Action} (hs : step c s a = some u) :
    Inv c u := by
  cases a with
  | sendMessage x => exact hi.sendMessage hs
  | printReceivedData x => exact hi.printReceivedData hs
  | lose x i => exact hi.lose hs
  | arrive x i => exact hi.arrive hs

/-- Whatever the order of sends, losses, arrivals and receives: every datagram
under way carries one of the two keywords and has been echoed once at most, and
of each keyword there is at most one copy under way, in both directions
together, and none while its owner may send it. -/
theorem one_heartbeat_each (h : Initial c s) (hrun : Run (step c) Always s acts t) :
    (∀ x, ∀ d ∈ (t x).underWay,
      (d.packet.text = c.keyword .a ∨ d.packet.text = c.keyword .b) ∧
        d.echoes ≤ 1) ∧
    ∀ x, copies t (c.keyword x) ≤ 1 ∧
      ((t x).app.received → copies t (c.keyword x) = 0) := by
  have hi : Inv c t := hrun.invariant h.inv fun _ _ _ ht _ hs => ht.step hs
  constructor
  · intro x d hd
    have hecho : d.echoes ≤ 1 := by
      rcases (hi.belongs x d hd).text with ⟨_, he⟩ | ⟨_, he⟩ <;> omega
    refine ⟨?_, hecho⟩
    cases x with
    | a => exact (hi.belongs .a d hd).text.symm.imp And.left And.left
    | b => exact (hi.belongs .b d hd).text.imp And.left And.left
  · intro x
    have hbound := hi.bounded x
    rw [allowance] at hbound
    refine ⟨?_, fun hr => ?_⟩
    · split at hbound <;> omega
    · rw [if_pos hr] at hbound
      omega

/-- A at 1.0.0.7 says `hi`, B at 1.0.0.8 says `yo`. -/
def sampleConfig : Config where
  addr
    | .a => ⟨netV4, htons 9, 0x07000001⟩
    | .b => ⟨netV4, htons 9, 0x08000001⟩
  keyword
    | .a => ascii "hi"
    | .b => ascii "yo"
  rendezvousServer := ascii "1.2.3.4"
  addr_ne := by decide
  addr_ne_server := by decide
  keyword_ne := by decide
  nulFree := by decide
  short := by decide

/-- Both connected, each by the answer the server gave it. -/
def sampleState : State
  | .a => ⟨(EchoApp.sample.registerPeer (ascii "1.2.3.4")
      (intToIPString 0x08000001)).fillPeerContainer, [], []⟩
  | .b => ⟨({ EchoApp.sample with keyword := ascii "yo" }.registerPeer
      (ascii "1.2.3.4") (intToIPString 0x07000001)).fillPeerContainer, [], []⟩

theorem initial_sample : Initial sampleConfig sampleState where
  settled := by
    intro x
    cases x <;> exact ⟨by decide, by decide, by decide, by decide +kernel⟩
  received := by decide
  queue := by
    intro x
    cases x <;> rfl
  transit := by
    intro x
    cases x <;> rfl

/-- Both keywords go out, A's is echoed and B's is lost. -/
theorem one_heartbeat_each_example : ∃ t,
    exec (step sampleConfig) Always sampleState
      [.sendMessage .a, .sendMessage .b, .arrive .b 0, .printReceivedData .b,
        .lose .a 0, .sendMessage .a] = some t ∧
    copies t (ascii "hi") ≤ 1 := by
  have hsome : (exec (step sampleConfig) Always sampleState
      [.sendMessage .a, .sendMessage .b, .arrive .b 0, .printReceivedData .b,
        .lose .a 0, .sendMessage .a]).isSome := by
    decide +kernel
  obtain ⟨t, ht⟩ := Option.isSome_iff_exists.mp hsome
  exact ⟨t, ht, ((one_heartbeat_each initial_sample (.of_exec ht)).2 .a).1⟩

end Heartbeats

end PermanentIP

import PermanentIP.Proofs.ClientLog
import PermanentIP.System.Device

/-!
# How the queue of an application's socket empties

The daemon's `PollSubscriptions`, over all the sockets it has, and the
application's `PrintReceivedData` both take datagrams off the application's
socket, one at a time and only from the head. Each tests two things on what its
peek brought, that there is a byte in it and where it came from. The two tests
on the source are each other's opposite; the test on the length is the same in
both, so a datagram of no bytes passes neither and stays at the head for good.

One call of each removes at least one datagram exactly where the head has a
byte in it and, if it is the rendezvous server's, the daemon's peek brings
enough of its source address to see that. Where every peek does, as many rounds
as there are datagrams drain the queue, every update among them applied, exactly
if none is empty (`drains_iff`).

So much for a process that comes back from its calls. Both log what they take, and
from a datagram whose line cannot be written neither comes back. With the log the
rounds drain the queue exactly if, besides, each call can write the lines it has to
(`drains_logged_iff`).
-/

namespace PermanentIP

open Lib SimpleMobileNode

namespace Draining

structure State where
  app : EchoApp
  sockets : Int → Socket

namespace State

/-- The receive queue of the application's socket. -/
def queue (s : State) : List Packet := (s.sockets s.app.appSocket).queue

def poll (s : State) (serverSize : Int → Int32) : State :=
  let st := s.app.mobileNode.pollSubscriptions serverSize s.sockets
  { app := { s.app with mobileNode := st.node }
    sockets := st.sockets }

def print (s : State) : State :=
  let r := s.app.printReceivedData (s.sockets s.app.appSocket)
  { app := r.app
    sockets := Function.update s.sockets s.app.appSocket r.socket }

/-- One call of each; `serverSize` is what the daemon's rounds find in their
local `server_size`. -/
structure Round where
  pollFirst : Bool
  serverSize : Int → Int32

def round (s : State) (r : Round) : State :=
  if r.pollFirst then (s.poll r.serverSize).print else s.print.poll r.serverSize

def rounds (s : State) (rs : List Round) : State := rs.foldl round s

/-! ## With the log -/

def pollWithLog (s : State) (stderr : FilePtr) (serverSize : Int → Int32) :
    Outcome Sent Failure State := do
  let st ← s.app.mobileNode.pollSubscriptionsWithLog stderr serverSize s.sockets
  return { app := { s.app with mobileNode := st.node }, sockets := st.sockets }

def printWithLog (s : State) (stderr : FilePtr) : Outcome Sent Failure State := do
  let r ← s.app.printReceivedDataWithLog stderr (s.sockets s.app.appSocket)
  return { app := r.2.1, sockets := Function.update s.sockets s.app.appSocket r.2.2 }

inductive Call where
  | poll (serverSize : Int → Int32)
  | print

def Round.calls (r : Round) : List Call :=
  if r.pollFirst then [.poll r.serverSize, .print] else [.print, .poll r.serverSize]

def callWithLog (stderr : FilePtr) (s : State) : Call → Outcome Sent Failure State
  | .poll serverSize => s.pollWithLog stderr serverSize
  | .print => s.printWithLog stderr

def roundsWithLog (s : State) (stderr : FilePtr) (rs : List Round) :
    Outcome Sent Failure State :=
  Outcome.foldl (callWithLog stderr) s (rs.flatMap Round.calls)

end State

/-- The application's socket is registered with the daemon, which asks the same
rendezvous server, and it has no error pending. -/
structure Registered (ptr : Ptr) (s : State) : Prop where
  registered : s.app.mobileNode.appSockets.lookup s.app.appSocket = some ptr
  server : s.app.mobileNode.rendezvousServer = s.app.rendezvousServer
  valid : ptr < s.app.mobileNode.heap.length
  distinct : PointersDistinct s.app.mobileNode
  noError : (s.sockets s.app.appSocket).soError = none

/-- The daemon's loop, come to the application's socket, peeks at an update. -/
def SeesUpdate (s : State) (serverSize : Int → Int32) : Prop :=
  s.app.mobileNode.isUpdate
    ((s.app.mobileNode.beforeSocket serverSize s.sockets s.app.appSocket).peek
      serverSize s.app.appSocket)

def fromServer (s : State) (p : Packet) : Prop :=
  Device.fromServer s.app.rendezvousServer p

/-- The round's peek has room for the whole source address. -/
def FillsAddress (s : State) (serverSize : Int → Int32) : Prop :=
  8 ≤ (serverSize s.app.appSocket).toInt

variable {s : State} {ptr : Ptr} {p : Packet} {rest : List Packet}
  {serverSize : Int → Int32} {r : State.Round} {rs : List State.Round}

theorem Registered.socket_eq (h : Registered ptr s) (hq : s.queue = p :: rest) :
    s.sockets s.app.appSocket = ⟨p :: rest, none⟩ := by
  rw [← hq, State.queue, ← h.noError]

/-! ## The two calls -/

/-- What has not changed but for the queue and the peer's address. -/
structure Same (s s' : State) : Prop where
  appSocket : s'.app.appSocket = s.app.appSocket
  appSockets : s'.app.mobileNode.appSockets = s.app.mobileNode.appSockets
  heap : s'.app.mobileNode.heap.length = s.app.mobileNode.heap.length
  nodeServer :
    s'.app.mobileNode.rendezvousServer = s.app.mobileNode.rendezvousServer
  appServer : s'.app.rendezvousServer = s.app.rendezvousServer
  soError : (s'.sockets s'.app.appSocket).soError = none

theorem Registered.of_same {s' : State} (h : Registered ptr s) (hs : Same s s') :
    Registered ptr s' where
  registered := by
    rw [hs.appSockets, hs.appSocket]
    exact h.registered
  server := by rw [hs.nodeServer, hs.appServer, h.server]
  valid := by
    rw [hs.heap]
    exact h.valid
  distinct := by
    intro fd fd' ptr' h₁ h₂
    rw [hs.appSockets] at h₁ h₂
    exact h.distinct fd fd' ptr' h₁ h₂
  noError := hs.soError

/-- A call of `PollSubscriptions` takes the head and applies it, or does nothing
to the application's socket and peer. -/
theorem poll_cases (h : Registered ptr s) (serverSize : Int → Int32) :
    Same s (s.poll serverSize) ∧
    ((SeesUpdate s serverSize ∧ ∃ p rest, s.queue = p :: rest ∧
        p.payload ≠ [] ∧ (s.poll serverSize).queue = rest ∧
        ((s.poll serverSize).app.mobileNode.deref ptr).sinAddr =
          Device.location p) ∨
      (¬ SeesUpdate s serverSize ∧ (s.poll serverSize).queue = s.queue ∧
        (s.poll serverSize).app.mobileNode.deref ptr =
          s.app.mobileNode.deref ptr)) := by
  obtain ⟨hbefore, hafter⟩ :=
    pollSubscriptions_at h.registered h.distinct serverSize s.sockets
  have hsame : ∀ node : SimpleMobileNode,
      node.rendezvousServer = s.app.mobileNode.rendezvousServer →
      node.isUpdate = s.app.mobileNode.isUpdate := by
    intro node hnode
    funext peek
    rw [isUpdate, isUpdate, serverAddr, serverAddr, hnode]
  by_cases hsee : SeesUpdate s serverSize
  · have hup := hsee
    rw [SeesUpdate, ← hsame _ hbefore.server] at hup
    obtain ⟨p, rest, hsock, hp, heq⟩ := pollSocket_of_isUpdate _ ptr hup
    rw [heq] at hafter
    have hqueue := hafter.socket
    simp only [Function.update_self] at hqueue
    rw [hbefore.socket] at hsock
    refine ⟨⟨rfl, ?_, ?_, ?_, rfl, ?_⟩, Or.inl ⟨hsee, p, rest, ?_, hp, ?_, ?_⟩⟩
    · exact hafter.appSockets.trans hbefore.appSockets
    · exact hafter.heap.trans (length_heap_setSinAddr.trans hbefore.heap)
    · exact hafter.server.trans hbefore.server
    · show ((s.poll serverSize).sockets s.app.appSocket).soError = none
      exact congrArg Socket.soError hqueue
    · exact congrArg Socket.queue hsock
    · exact congrArg Socket.queue hqueue
    · refine (congrArg SockAddr.sinAddr hafter.peer).trans ?_
      refine (congrArg SockAddr.sinAddr (deref_setSinAddr_self ?_)).trans rfl
      rw [hbefore.heap]
      exact h.valid
  · have hup := hsee
    rw [SeesUpdate, ← hsame _ hbefore.server] at hup
    rw [pollSocket_of_not_isUpdate _ ptr hup] at hafter
    have hqueue := hafter.socket
    simp only [Function.update_self, PollState.peek] at hqueue
    rw [recvfrom_peek_socket (by rw [hbefore.socket]; exact h.noError),
      hbefore.socket] at hqueue
    refine ⟨⟨rfl, ?_, ?_, ?_, rfl, ?_⟩, Or.inr ⟨hsee, ?_, ?_⟩⟩
    · exact hafter.appSockets.trans hbefore.appSockets
    · exact hafter.heap.trans hbefore.heap
    · exact hafter.server.trans hbefore.server
    · exact (congrArg Socket.soError hqueue).trans h.noError
    · exact congrArg Socket.queue hqueue
    · exact hafter.peer.trans hbefore.peer

/-- A call of `PrintReceivedData` takes the head, if that has a byte in it and
is not the rendezvous server's, or does nothing at all. -/
theorem print_cases (h : Registered ptr s) :
    (∃ p rest, s.queue = p :: rest ∧ p.payload ≠ [] ∧ ¬ fromServer s p ∧
      s.print.queue = rest ∧ Same s s.print ∧
      s.print.app.mobileNode.deref ptr = s.app.mobileNode.deref ptr) ∨
    ((∀ p rest, s.queue = p :: rest → p.payload = [] ∨ fromServer s p) ∧
      s.print = s) := by
  have hidle (hidle : s.app.printReceivedData (s.sockets s.app.appSocket) =
      ⟨true, [], s.app, s.sockets s.app.appSocket⟩) : s.print = s := by
    rw [State.print, hidle]
    simp only [Function.update_eq_self]
  cases hq : s.queue with
  | nil =>
      refine Or.inr ⟨fun p rest hcons => (by cases hcons), hidle ?_⟩
      have hsock : s.sockets s.app.appSocket = ⟨[], none⟩ := by
        rw [← hq, State.queue, ← h.noError]
      rw [hsock, EchoApp.printReceivedData_nil]
  | cons p rest =>
      have hsock := h.socket_eq hq
      by_cases htake : p.payload ≠ [] ∧ ¬ fromServer s p
      · obtain ⟨hp, hsrc⟩ := htake
        have hne : p.src.sinAddr ≠
            (ipStringToInt s.app.rendezvousServer).toUInt32 := by
          simpa [fromServer, Device.fromServer] using hsrc
        obtain ⟨received, messages, heq⟩ :=
          s.app.handleMessage_eq p.text p.src
        have hprint : s.print = ⟨{ s.app with
              received := received
              mobileNode := { s.app.mobileNode with appSocketMessages := messages } },
            Function.update s.sockets s.app.appSocket ⟨rest, none⟩⟩ := by
          rw [State.print, hsock, EchoApp.printReceivedData_request hp hne, heq]
        refine Or.inl ⟨p, rest, rfl, hp, hsrc, ?_, ?_, ?_⟩
        · rw [hprint, State.queue]
          simp only [Function.update_self]
        · rw [hprint]
          refine ⟨rfl, rfl, rfl, rfl, rfl, ?_⟩
          simp only [Function.update_self]
        · rw [hprint]
          rfl
      · have hskip : p.payload = [] ∨ fromServer s p := by
          by_contra hboth
          rw [not_or] at hboth
          exact htake hboth
        refine Or.inr ⟨?_, hidle ?_⟩
        · intro p' rest' hcons
          injection hcons with hp' _
          rw [← hp']
          exact hskip
        · rw [hsock, EchoApp.printReceivedData_ignored]
          refine hskip.imp id fun hsrc => ?_
          simpa [fromServer, Device.fromServer] using hsrc

/-- With room for the address the daemon sees an update where there is one. -/
theorem seesUpdate_iff (h : Registered ptr s) (hfill : FillsAddress s serverSize)
    (hq : s.queue = p :: rest) :
    SeesUpdate s serverSize ↔ p.payload ≠ [] ∧ fromServer s p := by
  obtain ⟨hbefore, _⟩ :=
    pollSubscriptions_at h.registered h.distinct serverSize s.sockets
  have hsock := hbefore.socket.trans (h.socket_eq hq)
  rw [SeesUpdate, isUpdate_peek_iff hsock hfill]
  simp only [serverAddr, h.server, fromServer, Device.fromServer, decide_eq_true_eq]

/-! ## One call of each -/

theorem same_poll (h : Registered ptr s) (serverSize : Int → Int32) :
    Same s (s.poll serverSize) := (poll_cases h serverSize).1

theorem same_print (h : Registered ptr s) : Same s s.print := by
  rcases print_cases h with ⟨_, _, _, _, _, _, hsame, _⟩ | ⟨_, heq⟩
  · exact hsame
  · rw [heq]
    exact ⟨rfl, rfl, rfl, rfl, rfl, h.noError⟩

theorem Registered.poll (h : Registered ptr s) (serverSize : Int → Int32) :
    Registered ptr (s.poll serverSize) := h.of_same (same_poll h serverSize)

theorem Registered.print (h : Registered ptr s) : Registered ptr s.print :=
  h.of_same (same_print h)

theorem Registered.round (h : Registered ptr s) (r : State.Round) :
    Registered ptr (s.round r) := by
  rw [State.round]
  split
  · exact (h.poll r.serverSize).print
  · exact h.print.poll r.serverSize

/-- A step took nothing, or a datagram with a byte in it off the head. -/
def HeadTaken (s s' : State) : Prop :=
  s'.queue = s.queue ∨
    ∃ p rest, s.queue = p :: rest ∧ p.payload ≠ [] ∧ s'.queue = rest

theorem headTaken_poll (h : Registered ptr s) (serverSize : Int → Int32) :
    HeadTaken s (s.poll serverSize) := by
  rcases (poll_cases h serverSize).2 with ⟨_, p, rest, hq, hp, hq', _⟩ | ⟨_, hq, _⟩
  · exact Or.inr ⟨p, rest, hq, hp, hq'⟩
  · exact Or.inl hq

theorem headTaken_print (h : Registered ptr s) : HeadTaken s s.print := by
  rcases print_cases h with ⟨p, rest, hq, hp, _, hq', _⟩ | ⟨_, heq⟩
  · exact Or.inr ⟨p, rest, hq, hp, hq'⟩
  · exact Or.inl (by rw [heq])

variable {s' : State}

theorem HeadTaken.length_le (h : HeadTaken s s') :
    s'.queue.length ≤ s.queue.length := by
  rcases h with hq | ⟨p, rest, hq, _, hq'⟩
  · rw [hq]
  · rw [hq, hq', List.length_cons]
    exact Nat.le_succ _

theorem HeadTaken.subset (h : HeadTaken s s') : s'.queue ⊆ s.queue := by
  rcases h with hq | ⟨p, rest, hq, _, hq'⟩
  · rw [hq]
    exact List.Subset.refl _
  · rw [hq, hq']
    exact List.subset_cons_self _ _

/-- A datagram of no bytes stays where it is. -/
theorem HeadTaken.mem_of_empty (h : HeadTaken s s') (hp : p.payload = [])
    (hmem : p ∈ s.queue) : p ∈ s'.queue := by
  rcases h with hq | ⟨q, rest, hq, hq0, hq'⟩
  · rw [hq]
    exact hmem
  · rw [hq] at hmem
    rw [hq']
    rcases List.mem_cons.mp hmem with rfl | hrest
    · exact absurd hp hq0
    · exact hrest

theorem length_print_lt_iff (h : Registered ptr s) (hq : s.queue = p :: rest) :
    s.print.queue.length < s.queue.length ↔ p.payload ≠ [] ∧ ¬ fromServer s p := by
  rcases print_cases h with ⟨p', rest', hq', hp, hsrc, hq'', _⟩ | ⟨hskip, heq⟩
  · rw [hq] at hq'
    injection hq' with hp' hrest
    rw [hq'', hq, List.length_cons, ← hrest]
    subst hp'
    exact iff_of_true (Nat.lt_succ_self _) ⟨hp, hsrc⟩
  · rw [heq]
    refine iff_of_false (Nat.lt_irrefl _) ?_
    rintro ⟨hp, hsrc⟩
    rcases hskip p rest hq with hnil | hserver
    · exact hp hnil
    · exact hsrc hserver

theorem length_poll_lt_iff (h : Registered ptr s) (serverSize : Int → Int32) :
    (s.poll serverSize).queue.length < s.queue.length ↔
      SeesUpdate s serverSize := by
  rcases (poll_cases h serverSize).2 with
    ⟨hsee, p, rest, hq, _, hq', _⟩ | ⟨hsee, hq, _⟩
  · rw [hq, hq', List.length_cons]
    exact iff_of_true (Nat.lt_succ_self _) hsee
  · rw [hq]
    exact iff_of_false (Nat.lt_irrefl _) hsee

/-- One call of each, in either order, removes a datagram exactly where the
head has a byte in it and, if it is the rendezvous server's, is seen for that. -/
theorem round_removes_iff (h : Registered ptr s) (r : State.Round)
    (hq : s.queue = p :: rest) :
    (s.round r).queue.length < s.queue.length ↔
      p.payload ≠ [] ∧ (fromServer s p → SeesUpdate s r.serverSize) := by
  have hpoll := h.poll r.serverSize
  have hprint := h.print
  have hnonempty : SeesUpdate s r.serverSize → p.payload ≠ [] := by
    intro hsee
    rcases (poll_cases h r.serverSize).2 with ⟨_, p', rest', hq', hp, _⟩ | ⟨hno, _⟩
    · rw [hq] at hq'
      injection hq' with hp' _
      rw [hp']
      exact hp
    · exact absurd hsee hno
  rw [State.round]
  split
  · by_cases hsee : SeesUpdate s r.serverSize
    · have hlt := (length_poll_lt_iff h r.serverSize).mpr hsee
      exact iff_of_true (Nat.lt_of_le_of_lt (headTaken_print hpoll).length_le hlt)
        ⟨hnonempty hsee, fun _ => hsee⟩
    · rcases (poll_cases h r.serverSize).2 with ⟨hyes, _⟩ | ⟨_, hkeep, _⟩
      · exact absurd hyes hsee
      · rw [← hkeep, length_print_lt_iff hpoll (hkeep.trans hq)]
        have hsrc : fromServer (s.poll r.serverSize) p ↔ fromServer s p := by
          rw [fromServer, fromServer, (same_poll h r.serverSize).appServer]
        rw [hsrc]
        exact and_congr_right fun _ =>
          ⟨fun hno hyes => absurd hyes hno, fun himp hyes => hsee (himp hyes)⟩
  · by_cases htake : p.payload ≠ [] ∧ ¬ fromServer s p
    · have hlt := (length_print_lt_iff h hq).mpr htake
      exact iff_of_true
        (Nat.lt_of_le_of_lt (headTaken_poll hprint r.serverSize).length_le hlt)
        ⟨htake.1, fun hyes => absurd hyes htake.2⟩
    · rcases print_cases h with ⟨p', rest', hq', hp, hsrc, _⟩ | ⟨_, heq⟩
      · rw [hq] at hq'
        injection hq' with hp' _
        subst hp'
        exact absurd ⟨hp, hsrc⟩ htake
      · rw [heq, length_poll_lt_iff h]
        constructor
        · intro hsee
          exact ⟨hnonempty hsee, fun _ => hsee⟩
        · rintro ⟨hp, himp⟩
          exact himp (by_contra fun hsrc => htake ⟨hp, hsrc⟩)

/-! ## As many rounds as there are datagrams -/

/-- Every update of the queue is applied once the last of them is where the peer
is. -/
def lastUpdate (s : State) (ptr : Ptr) : UInt32 :=
  ((s.queue.filter (Device.fromServer s.app.rendezvousServer)).map
    Device.location).getLastD (s.app.mobileNode.deref ptr).sinAddr

theorem lastUpdate_poll (h : Registered ptr s) (hfill : FillsAddress s serverSize) :
    lastUpdate (s.poll serverSize) ptr = lastUpdate s ptr := by
  have hserver := (same_poll h serverSize).appServer
  rcases (poll_cases h serverSize).2 with
    ⟨hsee, p, rest, hq, _, hq', hderef⟩ | ⟨_, hq, hderef⟩
  · have hsrc := ((seesUpdate_iff h hfill hq).mp hsee).2
    rw [lastUpdate, lastUpdate, hq', hserver, hderef, hq,
      List.filter_cons_of_pos hsrc, List.map_cons, List.getLastD_cons]
  · rw [lastUpdate, lastUpdate, hq, hserver, hderef]

theorem lastUpdate_print (h : Registered ptr s) :
    lastUpdate s.print ptr = lastUpdate s ptr := by
  rcases print_cases h with ⟨p, rest, hq, _, hsrc, hq', hsame, hderef⟩ | ⟨_, heq⟩
  · rw [lastUpdate, lastUpdate, hq', hsame.appServer, hderef, hq,
      List.filter_cons_of_neg hsrc]
  · rw [heq]

theorem appSocket_print (h : Registered ptr s) :
    s.print.app.appSocket = s.app.appSocket := (same_print h).appSocket

theorem lastUpdate_round (h : Registered ptr s)
    (hfill : FillsAddress s r.serverSize) :
    lastUpdate (s.round r) ptr = lastUpdate s ptr := by
  rw [State.round]
  split
  · rw [lastUpdate_print (h.poll r.serverSize), lastUpdate_poll h hfill]
  · have hfill' : FillsAddress s.print r.serverSize := by
      rw [FillsAddress, appSocket_print h]
      exact hfill
    rw [lastUpdate_poll h.print hfill', lastUpdate_print h]

/-- A round is two steps that each take a datagram off the head, or nothing. -/
theorem round_steps (h : Registered ptr s) (r : State.Round) :
    ∃ u, HeadTaken s u ∧ HeadTaken u (s.round r) := by
  rw [State.round]
  split
  · exact ⟨_, headTaken_poll h r.serverSize, headTaken_print (h.poll r.serverSize)⟩
  · exact ⟨_, headTaken_print h, headTaken_poll h.print r.serverSize⟩

theorem appSocket_round (h : Registered ptr s) (r : State.Round) :
    (s.round r).app.appSocket = s.app.appSocket := by
  rw [State.round]
  split
  · rw [appSocket_print (h.poll r.serverSize), (same_poll h r.serverSize).appSocket]
  · rw [(same_poll h.print r.serverSize).appSocket, appSocket_print h]

theorem round_removes_of_nonempty (h : Registered ptr s)
    (hfill : FillsAddress s r.serverSize) (hq : s.queue = p :: rest) :
    (s.round r).queue.length < s.queue.length ↔ p.payload ≠ [] := by
  rw [round_removes_iff h r hq, and_iff_left_of_imp]
  intro hp hsrc
  exact (seesUpdate_iff h hfill hq).mpr ⟨hp, hsrc⟩

theorem mem_rounds_of_empty (rs : List State.Round) :
    ∀ {s : State}, Registered ptr s → p.payload = [] → p ∈ s.queue →
      p ∈ (s.rounds rs).queue := by
  induction rs with
  | nil => intro s _ _ hmem; exact hmem
  | cons r rs ih =>
      intro s h hp hmem
      obtain ⟨u, hfst, hsnd⟩ := round_steps h r
      exact ih (h.round r) hp (hsnd.mem_of_empty hp (hfst.mem_of_empty hp hmem))

/-- Rounds over a queue of non-empty datagrams shorten it by one each, and move
the peer to where its updates say. -/
theorem rounds_drain (rs : List State.Round) :
    ∀ {s : State}, Registered ptr s → (∀ r ∈ rs, FillsAddress s r.serverSize) →
      (∀ p ∈ s.queue, p.payload ≠ []) →
      (s.rounds rs).queue.length ≤ s.queue.length - rs.length ∧
        lastUpdate (s.rounds rs) ptr = lastUpdate s ptr := by
  induction rs with
  | nil =>
      intro s _ _ _
      exact ⟨Nat.le_refl _, rfl⟩
  | cons r rs ih =>
      intro s h hfill hne
      have hr := hfill r List.mem_cons_self
      obtain ⟨u, hfst, hsnd⟩ := round_steps h r
      obtain ⟨hlen, hlast⟩ := ih (h.round r)
        (fun r' hr' => by
          rw [FillsAddress, appSocket_round h]
          exact hfill r' (List.mem_cons_of_mem _ hr'))
        (fun p hp => hne p (hfst.subset (hsnd.subset hp)))
      refine ⟨Nat.le_trans hlen ?_, hlast.trans (lastUpdate_round h hr)⟩
      cases hq : s.queue with
      | nil =>
          have hle := Nat.le_trans hsnd.length_le hfst.length_le
          rw [hq] at hle
          simp only [List.length_nil] at hle ⊢
          omega
      | cons p rest =>
          have hlt := (round_removes_of_nonempty h hr hq).mpr
            (hne p (by rw [hq]; exact List.mem_cons_self))
          rw [hq] at hlt
          rw [List.length_cons] at hlt ⊢
          rw [List.length_cons]
          omega

/-- What one call of each removes, and what as many rounds as there are
datagrams leave: a registered socket's queue is drained, with every update
applied, if and only if no datagram in it is empty. A single round takes a
datagram if and only if the head has a byte in it and, coming from the
rendezvous server, is seen to. -/
theorem drains_iff (h : Registered ptr s) :
    (∀ r p rest, s.queue = p :: rest →
      ((s.round r).queue.length < s.queue.length ↔
        p.payload ≠ [] ∧ (fromServer s p → SeesUpdate s r.serverSize))) ∧
    (∀ r p rest, s.queue = p :: rest → FillsAddress s r.serverSize →
      ((s.round r).queue.length < s.queue.length ↔ p.payload ≠ [])) ∧
    (∀ rs, rs.length = s.queue.length →
      (∀ r ∈ rs, FillsAddress s r.serverSize) →
      ((s.rounds rs).queue = [] ∧
          ((s.rounds rs).app.mobileNode.deref ptr).sinAddr = lastUpdate s ptr ↔
        ∀ p ∈ s.queue, p.payload ≠ [])) := by
  refine ⟨fun r p rest hq => round_removes_iff h r hq,
    fun r p rest hq hfill => round_removes_of_nonempty h hfill hq, ?_⟩
  intro rs hlen hfill
  constructor
  · rintro ⟨hdrained, _⟩ p hp hnil
    have hstays := mem_rounds_of_empty rs h hnil hp
    rw [hdrained] at hstays
    cases hstays
  · intro hne
    obtain ⟨hshort, hlast⟩ := rounds_drain rs h hfill hne
    have hdrained : (s.rounds rs).queue = [] :=
      List.length_eq_zero_iff.mp (by omega)
    refine ⟨hdrained, ?_⟩
    rw [← hlast, lastUpdate, hdrained]
    rfl

/-- An application whose `RegisterPeer` succeeded is such a state. -/
theorem registered_connected {app : EchoApp} {rsAddr peerLoc : PhysicalAddress}
    (hsame : app.mobileNode.rendezvousServer = app.rendezvousServer)
    (hvalid : PointersValid app.mobileNode)
    (hdistinct : PointersDistinct app.mobileNode) (hrs : rsAddr ≠ [])
    (hloc : peerLoc ≠ []) {sockets : Int → Socket}
    (herr : (sockets app.appSocket).soError = none) :
    Registered app.mobileNode.heap.length
      ⟨(app.registerPeer rsAddr peerLoc).fillPeerContainer, sockets⟩ := by
  rcases app.registerPeer_cases rsAddr peerLoc with ⟨_, _, heq⟩ | ⟨hempty, _⟩
  · have hreg : PointersDistinct
        (app.mobileNode.registerPeer app.appSocket rsAddr peerLoc).2 :=
      hdistinct.registerPeer hvalid
    rcases app.mobileNode.registerPeer_cases app.appSocket rsAddr peerLoc with
      ⟨_, _, hnode⟩ | ⟨hempty, _⟩
    · rw [hnode] at hreg
      rw [heq]
      refine ⟨AList.lookup_insert _, hsame, ?_, hreg, herr⟩
      show _ < (List.set _ _ _).length
      rw [List.length_set, List.length_append, List.length_singleton]
      exact Nat.lt_succ_self _
    · exact absurd hempty (by simp [hrs, hloc])
  · exact absurd hempty (by simp [hrs, hloc])

/-- Node A, connected to B, with `queue` on its socket. -/
def connected (queue : List Packet) : State where
  app := (EchoApp.sample.registerPeer (ascii "1.2.3.4")
    (ascii "1.2.3.8")).fillPeerContainer
  sockets _ := ⟨queue, none⟩

theorem registered_sample (queue : List Packet) :
    Registered 0 (connected queue) := by
  have hvalid : PointersValid EchoApp.sample.mobileNode :=
    pointersValid_of_empty rfl
  have hdistinct : PointersDistinct EchoApp.sample.mobileNode :=
    pointersDistinct_new _ _ _ _
  exact registered_connected rfl hvalid hdistinct (by decide) (by decide) rfl

/-! ## The calls come back -/

namespace State

def call (s : State) : Call → State
  | .poll serverSize => s.poll serverSize
  | .print => s.print

/-- What a call sends -/
def puts (s : State) : Call → List Sent
  | .poll serverSize => (s.app.mobileNode.pollSubscriptions serverSize s.sockets).sent
  | .print => (s.app.printReceivedData (s.sockets s.app.appSocket)).sent

/-- The call can write the lines it has to. -/
def Logs (s : State) : Call → Prop
  | .poll serverSize => s.app.mobileNode.LogsPoll serverSize s.sockets
  | .print => s.app.LogsPrint (s.sockets s.app.appSocket)

end State

theorem does_callWithLog (stderr : FilePtr) (s : State) (c : State.Call) :
    Does (s.callWithLog stderr c) (s.Logs c) (s.puts c) (s.call c) := by
  cases c with
  | poll serverSize => exact does_pollSubscriptions.map _
  | print => exact EchoApp.does_printReceivedData.map _

theorem round_eq_calls (s : State) (r : State.Round) :
    s.round r = r.calls.foldl State.call s := by
  rw [State.round, State.Round.calls]
  split <;> rfl

theorem rounds_eq_calls (s : State) (rs : List State.Round) :
    s.rounds rs = (rs.flatMap State.Round.calls).foldl State.call s := by
  rw [State.rounds, List.foldl_flatMap]
  congr 1
  funext s r
  exact round_eq_calls s r

theorem does_roundsWithLog (s : State) (stderr : FilePtr) (rs : List State.Round) :
    Does (s.roundsWithLog stderr rs)
      (goesOn State.Logs State.call s (rs.flatMap State.Round.calls))
      (outs State.puts State.call s (rs.flatMap State.Round.calls)) (s.rounds rs) := by
  rw [rounds_eq_calls]
  exact Does.foldl (does_callWithLog stderr) s _

/-- Everything queued and everything outstanding is brief. -/
structure AllBrief (s : State) : Prop where
  outstanding : ∀ fd, ∀ m ∈ s.app.mobileNode.outstanding fd, Brief (cstr m)
  queued : ∀ fd, ∀ p ∈ (s.sockets fd).queue, Brief p.text

theorem AllBrief.logs (h : AllBrief s) (c : State.Call) : s.Logs c := by
  cases c with
  | poll serverSize => exact logsPoll_of_brief h.outstanding h.queued
  | print => exact EchoApp.logsPrint_of_brief (h.queued _)

theorem AllBrief.call (h : AllBrief s) (c : State.Call) : AllBrief (s.call c) := by
  cases c with
  | poll serverSize =>
      refine ⟨fun fd m hm => h.outstanding fd m ?_, fun fd p hp => h.queued fd p ?_⟩
      · have hsame : (s.app.mobileNode.pollSubscriptions serverSize
            s.sockets).node.outstanding fd = s.app.mobileNode.outstanding fd :=
          foldl_pollSocket_invariant
            (I := fun n => n.outstanding fd = s.app.mobileNode.outstanding fd)
            serverSize (fun _ _ _ _ h => outstanding_applyUpdate.trans h) _ _ rfl
        rwa [← hsame]
      · exact mem_queue_rounds serverSize s.app.mobileNode.appSockets.entries
          (s.app.mobileNode.pollStart s.sockets) hp
  | print =>
      have hqueue (fd : Int) (p : Packet) (hp : p ∈ (s.print.sockets fd).queue) :
          p ∈ (s.sockets fd).queue := by
        rcases eq_or_ne fd s.app.appSocket with rfl | hne
        · simp only [State.print, Function.update_self] at hp
          exact EchoApp.mem_queue_printReceivedData hp
        · simp only [State.print, Function.update_of_ne hne] at hp
          exact hp
      refine ⟨fun fd m hm => ?_, fun fd p hp => h.queued fd p (hqueue fd p hp)⟩
      rcases EchoApp.outstanding_printReceivedData hm with ⟨p, hp, rfl⟩ | hold
      · have htext : cstr p.text = p.text := cstr_eq_self (nulFree_cstr _)
        rw [htext]
        exact h.queued _ p (List.mem_of_mem_head? hp)
      · exact h.outstanding fd m hold

theorem AllBrief.goesOn (h : AllBrief s) (cs : List State.Call) :
    goesOn State.Logs State.call s cs := by
  induction cs generalizing s with
  | nil => trivial
  | cons c cs ih => exact ⟨h.logs c, ih (h.call c)⟩

theorem allBrief_connected {queue : List Packet} (h : ∀ p ∈ queue, Brief p.text) :
    AllBrief (connected queue) where
  outstanding _ m hm := absurd hm (OrdSet.not_mem_empty m)
  queued _ := h

/-- What calls that come back have done -/
theorem returned_iff (stderr : FilePtr) (rs : List State.Round) (P : State → Prop) :
    (∃ sent t, s.roundsWithLog stderr rs = ⟨sent, .ok t⟩ ∧ P t) ↔
      P (s.rounds rs) ∧ goesOn State.Logs State.call s (rs.flatMap State.Round.calls) := by
  have hdoes := does_roundsWithLog s stderr rs
  constructor
  · rintro ⟨sent, t, heq, hP⟩
    have hreturns : (s.roundsWithLog stderr rs).Returns := by
      rw [heq]
      exact Outcome.returns_mk sent t
    have hwhole := hdoes.whole hreturns
    rw [heq] at hwhole
    injection hwhole with _ ht
    injection ht with ht
    exact ⟨ht ▸ hP, hdoes.returns.mp hreturns⟩
  · rintro ⟨hP, hgoes⟩
    exact ⟨_, _, hdoes.eq hgoes, hP⟩

/-- What one call of each removes, and what as many rounds as there are datagrams
leave, with the log: they come back with a datagram less, or with the queue drained
and every update applied, if and only if the queue lets them and each call can write
the lines it has to. It can if all that is queued and all that is outstanding is
brief. -/
theorem drains_logged_iff (h : Registered ptr s) (stderr : FilePtr) :
    (∀ r p rest, s.queue = p :: rest →
      ((∃ sent t, s.roundsWithLog stderr [r] = ⟨sent, .ok t⟩ ∧
          t.queue.length < s.queue.length) ↔
        (p.payload ≠ [] ∧ (fromServer s p → SeesUpdate s r.serverSize)) ∧
          goesOn State.Logs State.call s r.calls)) ∧
    (∀ r p rest, s.queue = p :: rest → FillsAddress s r.serverSize →
      ((∃ sent t, s.roundsWithLog stderr [r] = ⟨sent, .ok t⟩ ∧
          t.queue.length < s.queue.length) ↔
        p.payload ≠ [] ∧ goesOn State.Logs State.call s r.calls)) ∧
    (∀ rs, rs.length = s.queue.length → (∀ r ∈ rs, FillsAddress s r.serverSize) →
      ((∃ sent t, s.roundsWithLog stderr rs = ⟨sent, .ok t⟩ ∧ t.queue = [] ∧
          (t.app.mobileNode.deref ptr).sinAddr = lastUpdate s ptr) ↔
        (∀ p ∈ s.queue, p.payload ≠ []) ∧
          goesOn State.Logs State.call s (rs.flatMap State.Round.calls))) ∧
    (AllBrief s → ∀ cs, goesOn State.Logs State.call s cs) := by
  obtain ⟨hone, hfills, hdrain⟩ := drains_iff h
  have hcalls (r : State.Round) : [r].flatMap State.Round.calls = r.calls := by
    rw [List.flatMap_singleton]
  refine ⟨fun r p rest hq => ?_, fun r p rest hq hfill => ?_, fun rs hlen hfill => ?_,
    fun hbrief cs => hbrief.goesOn cs⟩
  · rw [returned_iff stderr [r] fun t => t.queue.length < s.queue.length, hcalls]
    exact and_congr_left fun _ => hone r p rest hq
  · rw [returned_iff stderr [r] fun t => t.queue.length < s.queue.length, hcalls]
    exact and_congr_left fun _ => hfills r p rest hq hfill
  · rw [returned_iff stderr rs fun t => t.queue = [] ∧
      (t.app.mobileNode.deref ptr).sinAddr = lastUpdate s ptr]
    exact and_congr_left fun _ => hdrain rs hlen hfill

/-- A message of the peer's and an update behind it. -/
theorem drains_logged_iff_example : ∃ sent t,
    (connected [⟨⟨netV4, 9, 9⟩, ascii "yo"⟩,
        ⟨⟨netV4, 5, 0x04030201⟩, ascii "1.2.3.7"⟩]).roundsWithLog 2
      [⟨true, fun _ => 16⟩, ⟨false, fun _ => 16⟩] = ⟨sent, .ok t⟩ ∧ t.queue = [] ∧
    (t.app.mobileNode.deref 0).sinAddr = lastUpdate
      (connected [⟨⟨netV4, 9, 9⟩, ascii "yo"⟩,
        ⟨⟨netV4, 5, 0x04030201⟩, ascii "1.2.3.7"⟩]) 0 :=
  ((drains_logged_iff (registered_sample _) 2).2.2.1
    [⟨true, fun _ => 16⟩, ⟨false, fun _ => 16⟩] rfl (by simp [FillsAddress])).mpr
    ⟨by decide +kernel, (allBrief_connected (by decide +kernel)).goesOn _⟩

/-- A datagram without a byte in it, from anywhere. -/
theorem empty_datagram_stays : ¬ ∀ (s : State) (ptr : Ptr), Registered ptr s →
    s.queue ≠ [] → ∀ r, ∃ sent t, s.roundsWithLog 2 [r] = ⟨sent, .ok t⟩ ∧
      t.queue.length < s.queue.length := by
  intro h
  have hround := h (connected [⟨⟨netV4, 9, 9⟩, []⟩]) 0 (registered_sample _)
    (by decide) ⟨true, fun _ => 16⟩
  rw [returned_iff 2 _ fun t => t.queue.length < _] at hround
  exact absurd hround.1 (by decide +kernel)

end Draining

end PermanentIP

import PermanentIP.Applications.Start
import PermanentIP.Proofs.EchoCalls
import PermanentIP.Proofs.ServerSize
import PermanentIP.Lib.Run

/-!
# What ends an application, and what ends its daemon

The two threads of an application's process look at two different flags. What
sets each, over any run, is said exactly (`stopped_iff`): the application's, a
signal or a `ShutDown` of the application; the daemon's, a `ShutDown` of either.
So a signal never ends the daemon, and a receive error of the daemon's never
ends the application, which goes on at the address the daemon last stored.

A thread whose flag is set is through in a bounded number of its own steps,
whatever the other does, unless it waits for a server's answer, and no step of it
waits for the other (`winds_down`).

The threads' steps are finer than the functions they are taken from. Undisturbed,
they come to what `connectToPeer` and `pollSubscriptions` say
(`run_connectToPeer`, `run_pollSubscriptions`).
-/

namespace PermanentIP

open Lib SimpleMobileNode

namespace EchoApp

/-- `backoff`, as `ConnectToPeer` starts it before there is one -/
def Thread.backoff : Thread → Nat
  | .connecting backoff | .waiting backoff _ => backoff
  | .opening | .receiving | .sending | .checking | .returned _ => 1

/-- Still in `ConnectToPeer`. -/
def Thread.starting : Thread → Bool
  | .opening | .connecting _ | .waiting .. => true
  | .receiving | .sending | .checking | .returned _ => false

/-- In a `RegisterPeer`, which waits for its answers. -/
def Thread.waits : Thread → Bool
  | .connecting _ | .waiting .. => true
  | .opening | .receiving | .sending | .checking | .returned _ => false

/-- In a registration, which waits for its answer. -/
def Daemon.waits : Daemon → Bool
  | .registering | .updating => true
  | .comparing | .polling .. | .checking | .ended => false

namespace Process

/-! ## What a step can do -/

/-- What each step does where it is enabled. -/
inductive Stepped (p : Process) : Action → Process → Prop
  | opened {calls : SocketSetUp} (hthread : p.thread = .opening)
      (hok : calls.ok = true) :
      Stepped p (.openSocket calls) { p with
        app := { p.app with appSocket := calls.socket }
        closed := false
        thread := .connecting 1 }
  | openFailed {calls : SocketSetUp} (hthread : p.thread = .opening)
      (hok : calls.ok = false) :
      Stepped p (.openSocket calls)
        { ({ p with
            app := { p.app with appSocket := calls.socket }
            closed := false } : Process).shutDown with
          thread := .returned false }
  | asked {rsAddr : PhysicalAddress} {asked : Bool} {backoff : Nat}
      (hthread : p.thread = .connecting backoff) :
      Stepped p (.ask rsAddr asked) { p with
        wire := p.wire ++ p.asking rsAddr asked
        thread := .waiting backoff rsAddr }
  | refused {rsAddr peerLoc : PhysicalAddress} {backoff : Nat}
      (hthread : p.thread = .waiting backoff rsAddr) (hle : backoff ≤ maxAttempts)
      (hnull : (p.app.registerPeer rsAddr peerLoc).peerInfo = none) :
      Stepped p (.register rsAddr peerLoc) { p with
        app := p.app.registerPeer rsAddr peerLoc
        thread := .connecting (backoff + 1) }
  | gaveUp {rsAddr peerLoc : PhysicalAddress} {backoff : Nat}
      (hthread : p.thread = .waiting backoff rsAddr) (hlt : maxAttempts < backoff)
      (hnull : (p.app.registerPeer rsAddr peerLoc).peerInfo = none) :
      Stepped p (.register rsAddr peerLoc)
        { ({ p with app := p.app.registerPeer rsAddr peerLoc } : Process).shutDown with
          thread := .returned false }
  | connected {rsAddr peerLoc : PhysicalAddress} {backoff : Nat}
      (hthread : p.thread = .waiting backoff rsAddr)
      (hsome : (p.app.registerPeer rsAddr peerLoc).peerInfo ≠ none) :
      Stepped p (.register rsAddr peerLoc) { p with
        app := (p.app.registerPeer rsAddr peerLoc).fillPeerContainer
        thread := .receiving }
  | printed {socket : Socket} (hthread : p.thread = .receiving)
      (hok : (p.app.printReceivedData (p.found p.app.appSocket socket)).ok = true) :
      Stepped p (.print socket) { p with
        app := (p.app.printReceivedData (p.found p.app.appSocket socket)).app
        wire := p.wire ++
          (p.app.printReceivedData (p.found p.app.appSocket socket)).sent
        thread := .sending }
  | printFailed {socket : Socket} (hthread : p.thread = .receiving)
      (hok : (p.app.printReceivedData (p.found p.app.appSocket socket)).ok = false) :
      Stepped p (.print socket) ({ p with
        app := (p.app.printReceivedData (p.found p.app.appSocket socket)).app
        wire := p.wire ++
          (p.app.printReceivedData (p.found p.app.appSocket socket)).sent
        thread := .sending } : Process).shutDown
  | sent (hthread : p.thread = .sending) :
      Stepped p .send { p with
        app := (p.app.sendMessage p.app.keyword none).2.2
        wire := if p.closed then p.wire
          else p.wire ++ (p.app.sendMessage p.app.keyword none).2.1
        thread := .checking }
  | checked (hthread : p.thread = .checking) :
      Stepped p .check { p with
        thread := if p.signal.shouldContinue then .receiving else .returned true }
  | daemonRegistered (hdaemon : p.daemon = .registering) :
      Stepped p .daemonRegister { p with daemon := .comparing }
  | compared {ip : Int32} (hdaemon : p.daemon = .comparing) :
      Stepped p (.compare ip) { p with
        daemon := if p.node.hasMoved ip then .updating else p.pollAll }
  | updated (hdaemon : p.daemon = .updating) :
      Stepped p .update { p with daemon := p.pollAll }
  | polled {serverSize : Int → Int32} {socket : Socket}
      {e : Sigma fun _ : Int => Ptr} {rest : List (Sigma fun _ : Int => Ptr)}
      {server : SockAddr} (hdaemon : p.daemon = .polling (e :: rest) server) :
      Stepped p (.poll serverSize socket) { p with
        app := { p.app with
          mobileNode := (p.pollOne serverSize socket e.1 e.2 server).node }
        daemonSignal :=
          if (p.pollOne serverSize socket e.1 e.2 server).shutDown then
            p.daemonSignal.exitProgram
          else p.daemonSignal
        daemon := .polling rest (p.pollOne serverSize socket e.1 e.2 server).server
        wire := p.wire ++ (p.pollOne serverSize socket e.1 e.2 server).sent }
  | stored {ip : Int32} {server : SockAddr} (hdaemon : p.daemon = .polling [] server) :
      Stepped p (.store ip) { p with
        app := { p.app with mobileNode := p.node.storeIpAddress ip }
        daemon := .checking }
  | daemonChecked (hdaemon : p.daemon = .checking) :
      Stepped p .daemonCheck { p with daemon :=
        if p.daemonSignal.shouldContinue then .comparing else .ended }
  | close : Stepped p .close { p with closed := true }
  | stopDaemon :
      Stepped p .stopDaemon { p with daemonSignal := p.daemonSignal.exitProgram }
  | exit : Stepped p .exit { p with signal := p.signal.exitProgram }

variable {p q t v : Process} {a : Action} {acts more : List Action}

theorem stepped (h : step p a = some q) : Stepped p a q := by
  cases a with
  | openSocket calls =>
      rw [step] at h
      split at h
      · next hthread =>
          simp only [] at h
          split at h
          · next hok =>
              cases h
              exact .opened hthread hok
          · next hok =>
              cases h
              exact .openFailed hthread (Bool.not_eq_true _ ▸ hok)
      · cases h
  | ask rsAddr asked =>
      rw [step] at h
      split at h
      · next backoff hthread =>
          cases h
          exact .asked hthread
      all_goals cases h
  | register rsAddr peerLoc =>
      rw [step] at h
      split at h
      · next backoff addr hthread =>
          split at h
          · next haddr =>
              subst haddr
              simp only [] at h
              split at h
              · next hnull =>
                  split at h
                  · next hlt =>
                      cases h
                      exact .gaveUp hthread hlt hnull
                  · next hle =>
                      cases h
                      exact .refused hthread (Nat.not_lt.mp hle) hnull
              · next hsome =>
                  cases h
                  exact .connected hthread hsome
          · cases h
      all_goals cases h
  | print socket =>
      rw [step] at h
      split at h
      · next hthread =>
          simp only [] at h
          split at h
          · next hok =>
              cases h
              exact .printed hthread hok
          · next hok =>
              cases h
              exact .printFailed hthread (Bool.not_eq_true _ ▸ hok)
      · cases h
  | send =>
      rw [step] at h
      split at h
      · next hthread =>
          cases h
          exact .sent hthread
      · cases h
  | check =>
      rw [step] at h
      split at h
      · next hthread =>
          cases h
          exact .checked hthread
      · cases h
  | daemonRegister =>
      rw [step] at h
      split at h
      · next hdaemon =>
          cases h
          exact .daemonRegistered hdaemon
      all_goals cases h
  | compare ip =>
      rw [step] at h
      split at h
      · next hdaemon =>
          cases h
          exact .compared hdaemon
      all_goals cases h
  | update =>
      rw [step] at h
      split at h
      · next hdaemon =>
          cases h
          exact .updated hdaemon
      all_goals cases h
  | poll serverSize socket =>
      rw [step] at h
      split at h
      · next e rest server hdaemon =>
          cases h
          exact .polled hdaemon
      all_goals cases h
  | store ip =>
      rw [step] at h
      split at h
      · next hdaemon =>
          cases h
          exact .stored hdaemon
      all_goals cases h
  | daemonCheck =>
      rw [step] at h
      split at h
      · next hdaemon =>
          cases h
          exact .daemonChecked hdaemon
      all_goals cases h
  | close =>
      cases h
      exact .close
  | stopDaemon =>
      cases h
      exact .stopDaemon
  | exit =>
      cases h
      exact .exit

/-! ## The steps, one after the other -/

/-- One `RegisterPeer` with its answers. -/
def registering (answer : PhysicalAddress × PhysicalAddress) : List Action :=
  [.ask answer.1 true, .register answer.1 answer.2]

theorem step_ask {backoff : Nat} (hthread : p.thread = .connecting backoff)
    (rsAddr : PhysicalAddress) (asked : Bool) :
    step p (.ask rsAddr asked) = some { p with
      wire := p.wire ++ p.asking rsAddr asked
      thread := .waiting backoff rsAddr } := by
  rw [step, hthread]

theorem run_retryLoop {answers : List (PhysicalAddress × PhysicalAddress)} {r : Bool}
    {app' : EchoApp} (p : Process) {backoff : Nat}
    (hthread : p.thread = .connecting backoff)
    (h : p.app.retryLoop backoff answers = some (r, app')) :
    ∃ used q, used <+: answers ∧ Run step Always p (used.flatMap registering) q ∧
      q.app = app' ∧ q.thread = if r then .receiving else .returned false := by
  induction answers generalizing p backoff with
  | nil => cases h
  | cons answer answers ih =>
      let waiting : Process := { p with
        wire := p.wire ++ p.asking answer.1 true
        thread := .waiting backoff answer.1 }
      have hask : step p (.ask answer.1 true) = some waiting := step_ask hthread _ _
      rw [retryLoop] at h
      split at h
      · next hnull =>
          split at h
          · next hlt =>
              cases h
              have hstep : step waiting (.register answer.1 answer.2) =
                  some { ({ waiting with
                    app := p.app.registerPeer answer.1 answer.2 } : Process).shutDown with
                      thread := .returned false } := by
                rw [step]
                simp only [waiting, hnull, if_true, if_pos hlt]
              exact ⟨[answer], _, ⟨answers, rfl⟩,
                (Run.nil.cons trivial hstep).cons trivial hask, rfl, rfl⟩
          · next hle =>
              obtain ⟨used, q, hused, hrun, happ, hq⟩ := ih { waiting with
                app := p.app.registerPeer answer.1 answer.2
                thread := .connecting (backoff + 1) } rfl h
              refine ⟨answer :: used, q, List.cons_prefix_cons.mpr ⟨rfl, hused⟩,
                (hrun.cons trivial ?_).cons trivial hask, happ, hq⟩
              rw [step]
              simp only [waiting, hnull, if_true, if_neg hle]
      · next hsome =>
          cases h
          have hstep : step waiting (.register answer.1 answer.2) = some { waiting with
              app := (p.app.registerPeer answer.1 answer.2).fillPeerContainer
              thread := .receiving } := by
            rw [step]
            simp only [waiting, if_true, if_neg hsome]
          exact ⟨[answer], _, ⟨answers, rfl⟩,
            (Run.nil.cons trivial hstep).cons trivial hask, rfl, rfl⟩

/-- The socket calls and the registrations, as `ConnectToPeer` makes them. -/
theorem run_connectToPeer {calls : SocketSetUp}
    {answers : List (PhysicalAddress × PhysicalAddress)} {r : Bool} {app' : EchoApp}
    (hthread : p.thread = .opening)
    (h : p.app.connectToPeer calls answers = some (r, app')) :
    ∃ used q, used <+: answers ∧
      Run step Always p (.openSocket calls :: used.flatMap registering) q ∧
      q.app = app' ∧ q.thread = if r then .receiving else .returned false := by
  rw [connectToPeer] at h
  split at h
  · next hok =>
      obtain ⟨used, q, hused, hrun, happ, hq⟩ := run_retryLoop { p with
        app := { p.app with appSocket := calls.socket }
        closed := false
        thread := .connecting 1 } rfl h
      refine ⟨used, q, hused, hrun.cons trivial ?_, happ, hq⟩
      rw [step, if_pos hthread]
      simp only [hok, if_true]
  · next hok =>
      cases h
      have hstep : step p (.openSocket calls) =
          some { ({ p with
              app := { p.app with appSocket := calls.socket }
              closed := false } : Process).shutDown with
            thread := .returned false } := by
        rw [step, if_pos hthread]
        simp only [if_neg hok]
      exact ⟨[], _, List.nil_prefix, Run.nil.cons trivial hstep, rfl, rfl⟩

/-- One round on its own does what it does after others. -/
theorem pollSocket_eq_pollOne (serverSize : Int → Int32) {st : PollState} (fd : Int)
    (ptr : Ptr) (hopen : p.closed = false) (hnode : st.node = p.node) :
    let u := pollSocket serverSize st fd ptr
    let one := p.pollOne serverSize (st.sockets fd) fd ptr st.server
    u.node = one.node ∧ u.server = one.server ∧ u.sent = st.sent ++ one.sent ∧
      u.shutDown = (st.shutDown || one.shutDown) := by
  have hfound : p.found fd (st.sockets fd) = st.sockets fd := by
    rw [found, hopen]
    exact if_neg fun h => Bool.false_ne_true h.1
  rw [pollOne, hfound, pollSocket, pollSocket, ← hnode]
  simp only []
  split
  · exact ⟨rfl, rfl, rfl, (Bool.or_false _).symm⟩
  · exact ⟨rfl, rfl, (List.append_nil _).symm, by rw [Bool.false_or]⟩

def polling (serverSize : Int → Int32) (sockets : Int → Socket)
    (e : Sigma fun _ : Int => Ptr) : Action := .poll serverSize (sockets e.1)

theorem run_rounds (serverSize : Int → Int32) (sockets : Int → Socket)
    {rounds : List (Sigma fun _ : Int => Ptr)} (hdiffer : rounds.Pairwise (·.1 ≠ ·.1))
    (p : Process) (st : PollState) (hopen : p.closed = false)
    (hdaemon : p.daemon = .polling rounds st.server) (hnode : st.node = p.node)
    (hsockets : ∀ e ∈ rounds, st.sockets e.1 = sockets e.1) :
    let u := rounds.foldl (fun st e => pollSocket serverSize st e.1 e.2) st
    ∃ q sent down, Run step Always p (rounds.map (polling serverSize sockets)) q ∧
      q.daemon = .polling [] u.server ∧ q.node = u.node ∧
      u.sent = st.sent ++ sent ∧ q.wire = p.wire ++ sent ∧
      u.shutDown = (st.shutDown || down) ∧
      q.daemonSignal.exitFlag = (p.daemonSignal.exitFlag || down) := by
  induction rounds generalizing p st with
  | nil =>
      exact ⟨p, [], false, .nil, hdaemon, hnode.symm, (List.append_nil _).symm,
        (List.append_nil _).symm, (Bool.or_false _).symm, (Bool.or_false _).symm⟩
  | cons e rounds ih =>
      rw [List.pairwise_cons] at hdiffer
      obtain ⟨hone, hserver, hsent, hdown⟩ :=
        pollSocket_eq_pollOne serverSize e.1 e.2 hopen hnode
      rw [hsockets e List.mem_cons_self] at hone hserver hsent hdown
      let one := p.pollOne serverSize (sockets e.1) e.1 e.2 st.server
      obtain ⟨q, sent, down, hrun, hend, hq, hsent', hwire, hdown', hflag⟩ :=
        ih hdiffer.2 { p with
          app := { p.app with mobileNode := one.node }
          daemonSignal :=
            if one.shutDown then p.daemonSignal.exitProgram else p.daemonSignal
          daemon := .polling rounds one.server
          wire := p.wire ++ one.sent }
          (pollSocket serverSize st e.1 e.2) hopen (by rw [hserver]) hone
          fun e' he' => by
            rw [sockets_pollSocket_ne (hdiffer.1 e' he').symm]
            exact hsockets e' (List.mem_cons_of_mem _ he')
      refine ⟨q, one.sent ++ sent, one.shutDown || down, hrun.cons trivial ?_, hend,
        hq, ?_, ?_, ?_, ?_⟩
      · rw [polling, step, hdaemon]
      · rw [List.foldl_cons, hsent', hsent, List.append_assoc]
      · rw [hwire, List.append_assoc]
      · rw [List.foldl_cons, hdown', hdown, Bool.or_assoc]
      · rw [hflag, ← Bool.or_assoc]
        simp only []
        split
        · next h =>
            rw [h, Bool.or_true]
            rfl
        · next h => rw [Bool.eq_false_iff.mpr h, Bool.or_false]

/-- The rounds, as `PollSubscriptions` makes them. -/
theorem run_pollSubscriptions (serverSize : Int → Int32) (sockets : Int → Socket)
    (hopen : p.closed = false) (hdaemon : p.daemon = p.pollAll) :
    let u := p.node.pollSubscriptions serverSize sockets
    ∃ q server, Run step Always p
        (p.node.appSockets.entries.map (polling serverSize sockets)) q ∧
      q.daemon = .polling [] server ∧ q.node = u.node ∧ q.wire = p.wire ++ u.sent ∧
      q.daemonSignal.exitFlag = (p.daemonSignal.exitFlag || u.shutDown) := by
  intro u
  obtain ⟨q, sent, down, hrun, hend, hnode, hsent, hwire, hdown, hflag⟩ :=
    run_rounds serverSize sockets (List.NodupKeys.pairwise_ne p.node.appSockets.nodupKeys)
      p ⟨p.node, sockets, .zero, [], false⟩ hopen hdaemon rfl fun _ _ => rfl
  rw [List.nil_append] at hsent
  rw [Bool.false_or] at hdown
  rw [← hsent] at hwire
  rw [← hdown] at hflag
  exact ⟨q, _, hrun, hend, hnode, hwire, hflag⟩

/-! ## What sets a flag -/

/-- The application calls its own `ShutDown`. -/
def appFails (p : Process) : Action → Bool
  | .openSocket calls => !calls.ok
  | .register rsAddr peerLoc =>
      match p.thread with
      | .waiting backoff _ =>
          decide (maxAttempts < backoff) &&
            (p.app.registerPeer rsAddr peerLoc).peerInfo.isNone
      | .opening | .connecting _ | .receiving | .sending | .checking
      | .returned _ => false
  | .print socket =>
      !(p.app.printReceivedData (p.found p.app.appSocket socket)).ok
  | .ask .. | .send | .check | .daemonRegister | .compare _ | .update | .poll ..
  | .store _ | .daemonCheck | .close | .stopDaemon | .exit => false

/-- The daemon calls its `ShutDown`. -/
def daemonFails (p : Process) : Action → Bool
  | .poll serverSize socket =>
      match p.daemon with
      | .polling (e :: _) server =>
          (p.pollOne serverSize socket e.1 e.2 server).shutDown
      | .polling [] _ | .registering | .comparing | .updating | .checking
      | .ended => false
  | .openSocket _ | .ask .. | .register .. | .print _ | .send | .check | .daemonRegister
  | .compare _ | .update | .store _ | .daemonCheck | .close | .stopDaemon
  | .exit => false

def Action.isExit : Action → Bool
  | .exit => true
  | .openSocket _ | .ask .. | .register .. | .print _ | .send | .check | .daemonRegister
  | .compare _ | .update | .poll .. | .store _ | .daemonCheck | .close
  | .stopDaemon => false

def Action.isStopDaemon : Action → Bool
  | .stopDaemon => true
  | .openSocket _ | .ask .. | .register .. | .print _ | .send | .check | .daemonRegister
  | .compare _ | .update | .poll .. | .store _ | .daemonCheck | .close
  | .exit => false

def stopsApp (p : Process) (a : Action) : Bool := a.isExit || p.appFails a

def stopsDaemon (p : Process) (a : Action) : Bool :=
  a.isStopDaemon || p.daemonFails a || p.appFails a

/-- Both flags after a step. -/
structure Flags (p q : Process) (a : Action) : Prop where
  app : q.signal.exitFlag = (p.signal.exitFlag || p.stopsApp a)
  daemon : q.daemonSignal.exitFlag = (p.daemonSignal.exitFlag || p.stopsDaemon a)

theorem flags_of_fails (happ : q.signal = p.signal.exitProgram)
    (hdaemon : q.daemonSignal = p.daemonSignal.exitProgram)
    (hfails : p.appFails a = true) : Flags p q a := by
  refine ⟨?_, ?_⟩
  · rw [happ, stopsApp, hfails, Bool.or_true, Bool.or_true]
    rfl
  · rw [hdaemon, stopsDaemon, hfails, Bool.or_true, Bool.or_true]
    rfl

theorem flags_of_quiet (happ : q.signal = p.signal)
    (hdaemon : q.daemonSignal = p.daemonSignal) (hexit : a.isExit = false)
    (hstop : a.isStopDaemon = false) (hfails : p.appFails a = false)
    (hdaemonFails : p.daemonFails a = false) : Flags p q a := by
  refine ⟨?_, ?_⟩
  · rw [happ, stopsApp, hexit, hfails, Bool.or_false, Bool.or_false]
  · rw [hdaemon, stopsDaemon, hstop, hdaemonFails, hfails, Bool.or_false,
      Bool.or_false, Bool.or_false]

theorem Stepped.flags (h : Stepped p a q) : Flags p q a := by
  cases h with
  | opened hthread hok =>
      refine flags_of_quiet rfl rfl rfl rfl ?_ rfl
      rw [appFails, hok]
      rfl
  | openFailed hthread hok =>
      refine flags_of_fails rfl rfl ?_
      rw [appFails, hok]
      rfl
  | refused hthread hle hnull =>
      refine flags_of_quiet rfl rfl rfl rfl ?_ rfl
      rw [appFails, hthread]
      simp [Nat.not_lt.mpr hle]
  | gaveUp hthread hlt hnull =>
      refine flags_of_fails rfl rfl ?_
      rw [appFails, hthread]
      simp [hlt, hnull]
  | connected hthread hsome =>
      refine flags_of_quiet rfl rfl rfl rfl ?_ rfl
      rw [appFails, hthread]
      simp [Option.isSome_iff_ne_none.mpr hsome]
  | printed hthread hok =>
      refine flags_of_quiet rfl rfl rfl rfl ?_ rfl
      rw [appFails, hok]
      rfl
  | printFailed hthread hok =>
      refine flags_of_fails rfl rfl ?_
      rw [appFails, hok]
      rfl
  | polled hdaemon =>
      refine ⟨(Bool.or_false _).symm, ?_⟩
      rw [stopsDaemon, daemonFails, hdaemon]
      simp only []
      split
      · next hdown =>
          rw [hdown]
          exact (Bool.or_true _).symm
      · next hdown =>
          rw [Bool.eq_false_iff.mpr hdown]
          exact (Bool.or_false _).symm
  | stopDaemon => exact ⟨(Bool.or_false _).symm, (Bool.or_true _).symm⟩
  | exit => exact ⟨(Bool.or_true _).symm, (Bool.or_false _).symm⟩
  | asked | sent | checked | daemonRegistered | compared | updated | stored
  | daemonChecked | close =>
      exact flags_of_quiet rfl rfl rfl rfl rfl rfl

/-! ## What a step leaves alone -/

/-- The two applications differ in the heartbeat's flag and the buffer only. -/
def SamePeer (app app' : EchoApp) : Prop :=
  ∃ received messages, app' = { app with
    received := received
    mobileNode := { app.mobileNode with appSocketMessages := messages } }

theorem samePeer_sendMessage (app : EchoApp) (m : NetworkMsg) :
    SamePeer app (app.sendMessage m none).2.2 := by
  rw [sendMessage]
  split
  · exact ⟨_, _, rfl⟩
  · next sent app' h =>
      rw [transmit] at h
      split at h
      · cases h
      · simp only [Option.some.injEq, Prod.mk.injEq] at h
        rw [← h.2]
        exact ⟨_, _, rfl⟩

theorem samePeer_printReceivedData (app : EchoApp) (socket : Socket) :
    SamePeer app (app.printReceivedData socket).app := by
  by_cases h : app.isRequest (peek socket)
  · obtain ⟨p, rest, _, _, heq⟩ := printReceivedData_of_isRequest h
    rw [heq]
    exact handleMessage_eq app p.text p.src
  · rw [(printReceivedData_of_not_isRequest h).1]
    exact ⟨_, _, rfl⟩

/-- What is there for the daemon to do: the sockets, where they lead, and what
it knows of its device's address. -/
structure SameDuties (p q : Process) : Prop where
  peerInfo : q.app.peerInfo = p.app.peerInfo
  heap : q.node.heap = p.node.heap
  appSockets : q.node.appSockets = p.node.appSockets
  lastKnownIpAddress : q.node.lastKnownIpAddress = p.node.lastKnownIpAddress

theorem SameDuties.refl (p : Process) : SameDuties p p := ⟨rfl, rfl, rfl, rfl⟩

theorem SameDuties.trans {r : Process} (h : SameDuties p q) (h' : SameDuties q r) :
    SameDuties p r :=
  ⟨h'.peerInfo.trans h.peerInfo, h'.heap.trans h.heap,
    h'.appSockets.trans h.appSockets,
    h'.lastKnownIpAddress.trans h.lastKnownIpAddress⟩

theorem sameDuties_of_samePeer (h : SamePeer p.app q.app) : SameDuties p q := by
  obtain ⟨received, messages, heq⟩ := h
  refine ⟨?_, ?_, ?_, ?_⟩ <;> simp only [node, heq]

theorem appSockets_pollOne (serverSize : Int → Int32) (socket : Socket) (fd : Int)
    (ptr : Ptr) (server : SockAddr) :
    (p.pollOne serverSize socket fd ptr server).node.appSockets =
      p.node.appSockets := by
  rw [pollOne]
  rcases node_pollSocket serverSize _ fd ptr with heq | ⟨u, heq⟩ <;> rw [heq]
  rfl

/-! ## The invariant -/

/-- Where the threads can be. -/
structure Inv (p : Process) : Prop where
  backoff : 1 ≤ p.thread.backoff ∧ p.thread.backoff ≤ maxAttempts + 1
  noSockets : p.thread.starting → p.node.appSockets = ∅
  sockets : p.node.appSockets.entries.length ≤ 1
  rest : ∀ rest server, p.daemon = .polling rest server → rest.length ≤ 1
  returned : ∀ r, p.thread = .returned r → p.signal.exitFlag = true
  ended : p.daemon = .ended → p.daemonSignal.exitFlag = true

theorem backoff_first : 1 ≤ 1 ∧ 1 ≤ maxAttempts + 1 :=
  ⟨Nat.le_refl 1, Nat.le_add_left 1 maxAttempts⟩

theorem inv_start (app : EchoApp) (ip : Int32) : Inv (start app ip) where
  backoff := backoff_first
  noSockets _ := rfl
  sockets := Nat.zero_le _
  rest _ _ h := nomatch h
  returned _ h := nomatch h
  ended h := nomatch h

/-- A step of the application that leaves the daemon's duties alone. -/
theorem Inv.ofThread (hi : Inv p) (hsame : SameDuties p q)
    (hdaemon : q.daemon = p.daemon)
    (hstarting : q.thread.starting → p.thread.starting)
    (hbackoff : 1 ≤ q.thread.backoff ∧ q.thread.backoff ≤ maxAttempts + 1)
    (hreturned : ∀ r, q.thread = .returned r → q.signal.exitFlag = true)
    (hsignal : p.daemonSignal.exitFlag = true → q.daemonSignal.exitFlag = true) :
    Inv q := by
  refine ⟨hbackoff, ?_, ?_, ?_, hreturned, ?_⟩
  · intro h
    rw [hsame.appSockets]
    exact hi.noSockets (hstarting h)
  · rw [hsame.appSockets]
    exact hi.sockets
  · rw [hdaemon]
    exact hi.rest
  · rw [hdaemon]
    exact fun h => hsignal (hi.ended h)

/-- A step of the daemon. -/
theorem Inv.ofDaemon (hi : Inv p) (hsockets : q.node.appSockets = p.node.appSockets)
    (hthread : q.thread = p.thread) (hsignal : q.signal = p.signal)
    (hrest : ∀ rest server, q.daemon = .polling rest server → rest.length ≤ 1)
    (hended : q.daemon = .ended → q.daemonSignal.exitFlag = true) : Inv q := by
  refine ⟨?_, ?_, ?_, hrest, ?_, hended⟩
  · rw [hthread]
    exact hi.backoff
  · rw [hthread, hsockets]
    exact hi.noSockets
  · rw [hsockets]
    exact hi.sockets
  · rw [hthread, hsignal]
    exact hi.returned

theorem Inv.rest_pollAll (hi : Inv p) {rest : List (Sigma fun _ : Int => Ptr)}
    {server : SockAddr} (h : p.pollAll = .polling rest server) : rest.length ≤ 1 := by
  injection h with h _
  rw [← h]
  exact hi.sockets

theorem node_refused {rsAddr peerLoc : PhysicalAddress}
    (hnull : (p.app.registerPeer rsAddr peerLoc).peerInfo = none) :
    (p.app.registerPeer rsAddr peerLoc).mobileNode = p.node := by
  rcases p.app.registerPeer_cases rsAddr peerLoc with ⟨_, _, heq⟩ | ⟨_, heq⟩
  · rw [heq] at hnull
    cases hnull
  · rw [heq]
    rfl

theorem appSockets_connected (hi : Inv p) {rsAddr peerLoc : PhysicalAddress}
    (hstarting : p.thread.starting) :
    (p.app.registerPeer rsAddr peerLoc).fillPeerContainer.mobileNode.appSockets.entries.length
      ≤ 1 := by
  have hempty : p.app.mobileNode.appSockets = ∅ := hi.noSockets hstarting
  rw [fillPeerContainer]
  rcases p.app.registerPeer_cases rsAddr peerLoc with ⟨_, _, heq⟩ | ⟨_, heq⟩
  · rw [heq]
    simp only [hempty]
    exact Nat.le_refl 1
  · rw [heq]
    simp only [hempty]
    exact Nat.zero_le 1

theorem Stepped.inv (h : Stepped p a q) (hi : Inv p) : Inv q := by
  cases h with
  | opened hthread hok =>
      exact hi.ofThread ⟨rfl, rfl, rfl, rfl⟩ rfl (fun _ => by rw [hthread]; rfl)
        backoff_first (fun r h => nomatch h) id
  | openFailed hthread hok =>
      exact hi.ofThread ⟨rfl, rfl, rfl, rfl⟩ rfl (fun h => nomatch h)
        backoff_first (fun _ _ => rfl) fun _ => rfl
  | asked hthread =>
      have hbackoff := hi.backoff
      rw [hthread] at hbackoff
      exact hi.ofThread ⟨rfl, rfl, rfl, rfl⟩ rfl (fun _ => by rw [hthread]; rfl)
        hbackoff (fun r h => nomatch h) id
  | refused hthread hle hnull =>
      refine ⟨⟨Nat.le_add_left 1 _, Nat.succ_le_succ hle⟩, ?_, ?_, hi.rest,
        (fun r h => nomatch h), hi.ended⟩
      · intro _
        rw [node, node_refused hnull]
        exact hi.noSockets (by rw [hthread]; rfl)
      · rw [node, node_refused hnull]
        exact hi.sockets
  | gaveUp hthread hlt hnull =>
      refine ⟨backoff_first, (fun h => nomatch h), ?_, hi.rest,
        fun _ _ => rfl, fun _ => rfl⟩
      show (p.app.registerPeer _ _).mobileNode.appSockets.entries.length ≤ 1
      rw [node_refused hnull]
      exact hi.sockets
  | connected hthread hsome =>
      exact ⟨backoff_first, (fun h => nomatch h),
        appSockets_connected hi (by rw [hthread]; rfl), hi.rest,
        (fun r h => nomatch h), hi.ended⟩
  | printed hthread hok =>
      exact hi.ofThread (sameDuties_of_samePeer (samePeer_printReceivedData _ _)) rfl
        (fun h => nomatch h) backoff_first (fun r h => nomatch h) id
  | printFailed hthread hok =>
      exact hi.ofThread (sameDuties_of_samePeer (samePeer_printReceivedData _ _)) rfl
        (fun h => nomatch h) backoff_first (fun _ _ => rfl) fun _ => rfl
  | sent hthread =>
      exact hi.ofThread (sameDuties_of_samePeer (samePeer_sendMessage _ _)) rfl
        (fun h => nomatch h) backoff_first (fun r h => nomatch h) id
  | checked hthread =>
      refine hi.ofThread ⟨rfl, rfl, rfl, rfl⟩ rfl ?_ ?_ ?_ id
      · intro h
        simp only [] at h
        split at h <;> cases h
      · simp only []
        split <;> exact backoff_first
      · intro r h
        cases hflag : p.signal.exitFlag with
        | true => rfl
        | false =>
            rw [Signal.shouldContinue, hflag] at h
            cases h
  | daemonRegistered hdaemon =>
      exact hi.ofDaemon rfl rfl rfl (fun rest server h => nomatch h)
        fun h => nomatch h
  | compared hdaemon =>
      refine hi.ofDaemon rfl rfl rfl ?_ ?_
      · intro rest server h
        simp only [] at h
        split at h
        · cases h
        · exact hi.rest_pollAll h
      · intro h
        simp only [] at h
        split at h <;> cases h
  | updated hdaemon =>
      exact hi.ofDaemon rfl rfl rfl (fun rest server h => hi.rest_pollAll h)
        fun h => nomatch h
  | polled hdaemon =>
      refine hi.ofDaemon (appSockets_pollOne _ _ _ _ _) rfl rfl ?_ fun h => nomatch h
      intro rest server h
      cases h
      exact (Nat.le_succ _).trans (hi.rest _ _ hdaemon)
  | stored hdaemon =>
      exact hi.ofDaemon rfl rfl rfl (fun rest server h => nomatch h)
        fun h => nomatch h
  | daemonChecked hdaemon =>
      refine hi.ofDaemon rfl rfl rfl ?_ ?_
      · intro rest server h
        simp only [] at h
        split at h <;> cases h
      · intro h
        cases hflag : p.daemonSignal.exitFlag with
        | true => rfl
        | false =>
            rw [Signal.shouldContinue, hflag] at h
            cases h
  | close =>
      exact ⟨hi.backoff, hi.noSockets, hi.sockets, hi.rest, hi.returned, hi.ended⟩
  | stopDaemon =>
      exact ⟨hi.backoff, hi.noSockets, hi.sockets, hi.rest, hi.returned, fun _ => rfl⟩
  | exit =>
      exact ⟨hi.backoff, hi.noSockets, hi.sockets, hi.rest, fun _ _ => rfl, hi.ended⟩

theorem inv_run {app : EchoApp} {ip : Int32}
    (hrun : Run step Always (start app ip) acts t) : Inv t :=
  hrun.invariant (inv_start app ip) fun _ _ _ hi _ hs => (stepped hs).inv hi

/-! ## What ends a thread -/

def Action.isRegister : Action → Bool
  | .register .. => true
  | .openSocket _ | .ask .. | .print _ | .send | .check | .daemonRegister | .compare _
  | .update | .poll .. | .store _ | .daemonCheck | .close | .stopDaemon
  | .exit => false

def Action.isPrint : Action → Bool
  | .print _ => true
  | .openSocket _ | .ask .. | .register .. | .send | .check | .daemonRegister
  | .compare _ | .update | .poll .. | .store _ | .daemonCheck | .close | .stopDaemon
  | .exit => false

/-- The calls of `RegisterPeer` that `ConnectToPeer` can still make. -/
def attemptsLeft : Thread → Nat
  | .opening => maxAttempts + 1
  | .connecting backoff | .waiting backoff _ => maxAttempts + 2 - backoff
  | .receiving | .sending | .checking | .returned _ => 0

theorem Stepped.attempts (h : Stepped p a q) (hi : Inv p) :
    attemptsLeft q.thread + a.isRegister.toNat ≤ attemptsLeft p.thread := by
  cases h with
  | opened hthread _ =>
      rw [hthread]
      exact Nat.le_refl _
  | openFailed => exact Nat.zero_le _
  | asked hthread =>
      rw [hthread]
      exact Nat.le_refl _
  | refused hthread hle _ =>
      rw [hthread]
      show maxAttempts + 2 - (_ + 1) + 1 ≤ maxAttempts + 2 - _
      omega
  | gaveUp hthread _ _ | connected hthread _ =>
      have hbackoff := hi.backoff.2
      rw [hthread] at hbackoff ⊢
      show 0 + 1 ≤ maxAttempts + 2 - _
      rw [Thread.backoff] at hbackoff
      omega
  | printed | printFailed | sent => exact Nat.zero_le _
  | checked hthread =>
      simp only []
      split <;> exact Nat.zero_le _
  | daemonRegistered | compared | updated | polled | stored | daemonChecked
  | close | stopDaemon | exit => exact Nat.le_refl _

/-- How often the application has looked for a message, by where it is. -/
def Looked : Thread → Nat → Prop
  | .opening, n | .connecting _, n | .waiting .., n | .returned false, n => n = 0
  | .receiving, _ => True
  | .sending, n | .checking, n | .returned true, n => 0 < n

theorem Stepped.looked {n : Nat} (h : Stepped p a q) (hn : Looked p.thread n) :
    Looked q.thread (n + a.isPrint.toNat) := by
  cases h with
  | opened hthread _ | openFailed hthread _ | asked hthread | refused hthread _ _
  | gaveUp hthread _ _ =>
      rw [hthread] at hn
      exact hn
  | connected => trivial
  | printed | printFailed => exact Nat.succ_pos n
  | sent hthread =>
      rw [hthread] at hn
      exact hn
  | checked hthread =>
      rw [hthread] at hn
      simp only []
      split
      · trivial
      · exact hn
  | daemonRegistered | compared | updated | polled | stored | daemonChecked
  | close | stopDaemon | exit => exact hn

theorem looked_run {app : EchoApp} {ip : Int32}
    (hrun : Run step Always (start app ip) acts t) :
    Looked t.thread (tally step (fun _ a => a.isPrint.toNat) (start app ip) acts) := by
  induction hrun with
  | nil => rfl
  | snoc h _ hs ih =>
      rw [h.tally_snoc _ hs]
      exact (stepped hs).looked ih

/-- A flag that some steps set and none clears. -/
theorem flag_run (on : Process → Bool) (sets : Process → Action → Bool)
    (hoff : on p = false) (hrun : Run step Always p acts t)
    (hset : ∀ t a u, step t a = some u → on u = (on t || sets t a)) :
    on t = true ↔ tally step (fun p a => (sets p a).toNat) p acts ≠ 0 := by
  have hlatch := hrun.latch (I := fun _ => True) (fun p => on p = true)
    (fun p a => (sets p a).toNat) trivial (fun _ _ _ _ _ _ => trivial)
    fun t a u _ _ hs => by
      rw [hset t a u hs, Bool.or_eq_true, Ne, Bool.toNat_eq_zero, Bool.not_eq_false]
  rw [hlatch, hoff, or_iff_right Bool.false_ne_true]

/-- What ends the two threads, over every run from the daemon's creation. The
application's flag is set if and only if a signal or another thread set it, or
the application shut down: its socket could not be set up, its last attempt was
refused, or a receive failed. The daemon's is set if and only if another thread
or the application shut it down, or a receive of its own failed. No thread ends
without its flag; `Start` returns true if and only if it got as far as looking
for a message; and it calls `RegisterPeer` eleven times at most. -/
theorem stopped_iff (app : EchoApp) (ip : Int32)
    (hrun : Run step Always (start app ip) acts t) :
    (t.signal.shouldContinue = true ↔
      tally step (fun p a => (p.stopsApp a).toNat) (start app ip) acts = 0) ∧
    (t.daemonSignal.shouldContinue = true ↔
      tally step (fun p a => (p.stopsDaemon a).toNat) (start app ip) acts = 0) ∧
    (∀ r, t.thread = .returned r → t.signal.shouldContinue = false ∧
      (r = true ↔
        0 < tally step (fun _ a => a.isPrint.toNat) (start app ip) acts)) ∧
    (t.daemon = .ended → t.daemonSignal.shouldContinue = false) ∧
    tally step (fun _ a => a.isRegister.toNat) (start app ip) acts ≤
      maxAttempts + 1 := by
  have hi := inv_run hrun
  refine ⟨?_, ?_, ?_, ?_, ?_⟩
  · have hlatch := flag_run (fun p => p.signal.exitFlag) Process.stopsApp rfl hrun
      fun _ _ _ hs => (stepped hs).flags.app
    rw [Signal.shouldContinue, Bool.not_eq_true', ← Bool.not_eq_true, hlatch, not_not]
  · have hlatch := flag_run (fun p => p.daemonSignal.exitFlag) Process.stopsDaemon rfl
      hrun fun _ _ _ hs => (stepped hs).flags.daemon
    rw [Signal.shouldContinue, Bool.not_eq_true', ← Bool.not_eq_true, hlatch, not_not]
  · intro r hr
    have hlooked := looked_run hrun
    refine ⟨?_, ?_⟩
    · rw [Signal.shouldContinue, hi.returned r hr]
      rfl
    · rw [hr] at hlooked
      cases r with
      | true => exact iff_of_true rfl hlooked
      | false => exact iff_of_false Bool.false_ne_true (Nat.not_lt.mpr hlooked.le)
  · intro hended
    rw [Signal.shouldContinue, hi.ended hended]
    rfl
  · have hattempts := hrun.tally_le (fun p => attemptsLeft p.thread)
      (fun _ a => a.isRegister.toNat) (inv_start app ip)
      (fun _ _ _ hi _ hs => (stepped hs).inv hi)
      fun _ _ _ hi hs => (stepped hs).attempts hi
    exact (Nat.le_add_left _ _).trans hattempts

/-- Connected at the second attempt; the daemon's first poll meets an error, and
that ends it. -/
def daemonLost : List Action :=
  [.openSocket ⟨3, 0, 0, 0, 0⟩, .ask [] true, .register [] [], .daemonRegister,
    .ask (ascii "1.2.3.4") true, .register (ascii "1.2.3.4") (ascii "1.2.3.5"), .compare 1,
    .poll (fun _ => 16) ⟨[], some (.other 104)⟩, .print ⟨[], none⟩, .store 1,
    .daemonCheck]

/-- The daemon's flag is set then, and the application's is not. -/
theorem stopped_iff_example : ∃ t,
    exec step Always (start .sample 1) daemonLost = some t ∧
    t.daemonSignal.shouldContinue = false ∧ t.signal.shouldContinue = true := by
  have hsome : (exec step Always (start .sample 1) daemonLost).isSome := by
    decide +kernel
  have hnone : tally step (fun p a => (p.stopsApp a).toNat) (start .sample 1)
      daemonLost = 0 := by
    decide +kernel
  have hone : tally step (fun p a => (p.stopsDaemon a).toNat) (start .sample 1)
      daemonLost ≠ 0 := by
    decide +kernel
  obtain ⟨t, ht⟩ := Option.isSome_iff_exists.mp hsome
  obtain ⟨happ, hdaemon, _⟩ := stopped_iff .sample 1 (.of_exec ht)
  exact ⟨t, ht, Bool.eq_false_iff.mpr (hdaemon.not.mpr hone), happ.mpr hnone⟩

/-! ## How a thread ends -/

def Action.ofThread : Action → Bool
  | .openSocket _ | .ask .. | .register .. | .print _ | .send | .check => true
  | .daemonRegister | .compare _ | .update | .poll .. | .store _ | .daemonCheck
  | .close | .stopDaemon | .exit => false

def Action.ofDaemon : Action → Bool
  | .daemonRegister | .compare _ | .update | .poll .. | .store _ | .daemonCheck =>
      true
  | .openSocket _ | .ask .. | .register .. | .print _ | .send | .check | .close
  | .stopDaemon | .exit => false

/-- The steps a thread whose flag is set has left. -/
def threadLeft : Thread → Nat
  | .opening => 26
  | .connecting backoff => 27 - 2 * backoff
  | .waiting backoff _ => 26 - 2 * backoff
  | .receiving => 3
  | .sending => 2
  | .checking => 1
  | .returned _ => 0

def daemonLeft : Daemon → Nat
  | .registering => 6
  | .comparing => 5
  | .updating => 4
  | .polling rest _ => rest.length + 2
  | .checking => 1
  | .ended => 0

theorem Stepped.threadLeft_le (h : Stepped p a q) (hi : Inv p)
    (hflag : p.signal.exitFlag = true) :
    threadLeft q.thread + a.ofThread.toNat ≤ threadLeft p.thread := by
  cases h with
  | opened hthread _ =>
      rw [hthread]
      exact Nat.le_refl 26
  | openFailed hthread _ =>
      rw [hthread]
      show 0 + 1 ≤ 26
      omega
  | printed hthread _ | printFailed hthread _ =>
      rw [hthread]
      exact Nat.le_refl 3
  | sent hthread =>
      rw [hthread]
      exact Nat.le_refl 2
  | asked hthread =>
      have hbackoff := hi.backoff.2
      rw [hthread] at hbackoff ⊢
      simp only [Thread.backoff, maxAttempts] at hbackoff
      show 26 - 2 * _ + 1 ≤ 27 - 2 * _
      omega
  | refused hthread hle _ =>
      rw [hthread]
      show 27 - 2 * (_ + 1) + 1 ≤ 26 - 2 * _
      rw [maxAttempts] at hle
      omega
  | gaveUp hthread _ _ | connected hthread _ =>
      have hbackoff := hi.backoff.2
      rw [hthread] at hbackoff ⊢
      simp only [Thread.backoff, maxAttempts] at hbackoff
      show _ + 1 ≤ 26 - 2 * _
      simp only [threadLeft]
      omega
  | checked hthread =>
      rw [hthread]
      simp only [Signal.shouldContinue, hflag]
      exact Nat.le_refl 1
  | daemonRegistered | compared | updated | polled | stored | daemonChecked
  | close | stopDaemon | exit => exact Nat.le_refl _

theorem Inv.daemonLeft_pollAll (hi : Inv p) : daemonLeft p.pollAll ≤ 3 := by
  show p.node.appSockets.entries.length + 2 ≤ 3
  have hone := hi.sockets
  omega

theorem Stepped.daemonLeft_le (h : Stepped p a q) (hi : Inv p)
    (hflag : p.daemonSignal.exitFlag = true) :
    daemonLeft q.daemon + a.ofDaemon.toNat ≤ daemonLeft p.daemon := by
  cases h with
  | daemonRegistered hdaemon =>
      rw [hdaemon]
      exact Nat.le_refl 6
  | stored hdaemon =>
      rw [hdaemon]
      exact Nat.le_refl 2
  | compared hdaemon =>
      rw [hdaemon]
      have hall := hi.daemonLeft_pollAll
      show _ + 1 ≤ 5
      simp only []
      split
      · exact Nat.le_refl 5
      · omega
  | updated hdaemon =>
      rw [hdaemon]
      exact Nat.succ_le_succ hi.daemonLeft_pollAll
  | polled hdaemon =>
      rw [hdaemon]
      exact Nat.le_refl _
  | daemonChecked hdaemon =>
      rw [hdaemon]
      simp only [Signal.shouldContinue, hflag]
      exact Nat.le_refl 1
  | opened | openFailed | asked | refused | gaveUp | connected | printed | printFailed
  | sent | checked | close | stopDaemon | exit => exact Nat.le_refl _

/-- Outside `RegisterPeer` a thread that is not through has a step. -/
theorem thread_enabled (hwaits : p.thread.waits = false)
    (h : ∀ r, p.thread ≠ .returned r) :
    ∃ a : Action, a.ofThread = true ∧ (step p a).isSome := by
  cases hthread : p.thread with
  | opening =>
      refine ⟨.openSocket ⟨-1, 0, 0, 0, 0⟩, rfl, ?_⟩
      rw [step, if_pos hthread]
      rfl
  | connecting backoff | waiting backoff rsAddr =>
      rw [hthread] at hwaits
      cases hwaits
  | receiving =>
      refine ⟨.print ⟨[], none⟩, rfl, ?_⟩
      rw [step, if_pos hthread]
      simp only []
      split <;> rfl
  | sending =>
      refine ⟨.send, rfl, ?_⟩
      rw [step, if_pos hthread]
      rfl
  | checking =>
      refine ⟨.check, rfl, ?_⟩
      rw [step, if_pos hthread]
      rfl
  | returned r => exact absurd hthread (h r)

theorem daemon_enabled (hwaits : p.daemon.waits = false) (h : p.daemon ≠ .ended) :
    ∃ a : Action, a.ofDaemon = true ∧ (step p a).isSome := by
  cases hdaemon : p.daemon with
  | registering | updating =>
      rw [hdaemon] at hwaits
      cases hwaits
  | comparing =>
      refine ⟨.compare 0, rfl, ?_⟩
      rw [step, hdaemon]
      rfl
  | polling rest server =>
      cases rest with
      | nil =>
          refine ⟨.store 0, rfl, ?_⟩
          rw [step, hdaemon]
          rfl
      | cons e rest =>
          refine ⟨.poll (fun _ => 0) ⟨[], none⟩, rfl, ?_⟩
          rw [step, hdaemon]
          rfl
  | checking =>
      refine ⟨.daemonCheck, rfl, ?_⟩
      rw [step, hdaemon]
      rfl
  | ended => exact absurd hdaemon h

/-- The daemon has ended, and the application has its peer or has given up. -/
structure Abandoned (p : Process) : Prop where
  daemon : p.daemon = .ended
  thread : p.thread.starting = false

theorem Stepped.abandoned (h : Stepped p a q) (hp : Abandoned p) :
    Abandoned q ∧ SameDuties p q := by
  obtain ⟨hended, hstarted⟩ := hp
  cases h with
  | opened hthread _ | openFailed hthread _ | asked hthread | refused hthread _ _
  | gaveUp hthread _ _ | connected hthread _ =>
      rw [hthread] at hstarted
      cases hstarted
  | printed | printFailed =>
      exact ⟨⟨hended, rfl⟩,
        sameDuties_of_samePeer (samePeer_printReceivedData _ _)⟩
  | sent =>
      exact ⟨⟨hended, rfl⟩, sameDuties_of_samePeer (samePeer_sendMessage _ _)⟩
  | checked =>
      refine ⟨⟨hended, ?_⟩, ⟨rfl, rfl, rfl, rfl⟩⟩
      simp only []
      split <;> rfl
  | daemonRegistered hdaemon | compared hdaemon | updated hdaemon | polled hdaemon
  | stored hdaemon | daemonChecked hdaemon =>
      rw [hended] at hdaemon
      cases hdaemon
  | close | stopDaemon | exit =>
      exact ⟨⟨hended, hstarted⟩, ⟨rfl, rfl, rfl, rfl⟩⟩

/-- A thread that was told to stop takes no more steps than are left to it. -/
theorem thread_steps_le (hi : Inv p) (hflag : p.signal.exitFlag = true)
    (hrun : Run step Always p acts q) :
    tally step (fun _ a => a.ofThread.toNat) p acts ≤ threadLeft p.thread := by
  have hleft := hrun.tally_le (I := fun p => Inv p ∧ p.signal.exitFlag = true)
    (fun p => threadLeft p.thread) (fun _ a => a.ofThread.toNat) ⟨hi, hflag⟩
    (fun _ _ _ h _ hs => ⟨(stepped hs).inv h.1, by
      rw [(stepped hs).flags.app, h.2, Bool.true_or]⟩)
    fun _ _ _ h hs => (stepped hs).threadLeft_le h.1 h.2
  exact (Nat.le_add_left _ _).trans hleft

theorem daemon_steps_le (hi : Inv p) (hflag : p.daemonSignal.exitFlag = true)
    (hrun : Run step Always p acts q) :
    tally step (fun _ a => a.ofDaemon.toNat) p acts ≤ daemonLeft p.daemon := by
  have hleft := hrun.tally_le (I := fun p => Inv p ∧ p.daemonSignal.exitFlag = true)
    (fun p => daemonLeft p.daemon) (fun _ a => a.ofDaemon.toNat) ⟨hi, hflag⟩
    (fun _ _ _ h _ hs => ⟨(stepped hs).inv h.1, by
      rw [(stepped hs).flags.daemon, h.2, Bool.true_or]⟩)
    fun _ _ _ h hs => (stepped hs).daemonLeft_le h.1 h.2
  exact (Nat.le_add_left _ _).trans hleft

theorem threadLeft_le_of_inv (hi : Inv p) :
    threadLeft p.thread ≤ if p.thread.starting then 26 else 3 := by
  have hbackoff := hi.backoff.1
  cases hthread : p.thread with
  | opening => exact Nat.le_refl 26
  | connecting backoff =>
      rw [hthread] at hbackoff
      show 27 - 2 * backoff ≤ 26
      simp only [Thread.backoff] at hbackoff
      omega
  | waiting backoff rsAddr => exact Nat.sub_le 26 _
  | receiving => exact Nat.le_refl 3
  | sending => exact Nat.le_succ 2
  | checking => exact Nat.le_add_right 1 2
  | returned r => exact Nat.zero_le 3

theorem daemonLeft_le_of_inv (hi : Inv p) : daemonLeft p.daemon ≤ 6 := by
  cases hdaemon : p.daemon with
  | registering => exact Nat.le_refl 6
  | comparing => exact Nat.le_succ 5
  | updating => exact Nat.le_add_right 4 2
  | polling rest server =>
      have hrest := hi.rest _ _ hdaemon
      show rest.length + 2 ≤ 6
      omega
  | checking => exact Nat.le_add_right 1 5
  | ended => exact Nat.zero_le 6

/-- Without a daemon the application's duties stay what they are. -/
theorem sameDuties_of_abandoned (h : Abandoned p) (hrun : Run step Always p acts q) :
    SameDuties p q := by
  have hsame := hrun.invariant (I := fun q => Abandoned q ∧ SameDuties p q)
    ⟨h, .refl p⟩ fun _ _ _ h _ hs => by
      obtain ⟨habandoned, hduties⟩ := (stepped hs).abandoned h.1
      exact ⟨habandoned, h.2.trans hduties⟩
  exact hsame.2

/-- How the two threads wind down, from any state a run reaches. Once its flag is
set the application's thread takes twenty-six more steps at most, and three if it
has connected; the daemon's takes six. Neither waits for the other: outside the
calls that wait for a server's answer, whatever its flag, a thread that is not
through always has a step to take. And once the daemon has ended the application
goes on without it: from then on the peer's address, the sockets that are polled
and the address that is registered stay as they are, whatever happens. -/
theorem winds_down (app : EchoApp) (ip : Int32)
    (hrun : Run step Always (start app ip) acts t) :
    (t.signal.shouldContinue = false → ∀ more v, Run step Always t more v →
      tally step (fun _ a => a.ofThread.toNat) t more ≤
        (if t.thread.starting then 26 else 3)) ∧
    (t.daemonSignal.shouldContinue = false → ∀ more v, Run step Always t more v →
      tally step (fun _ a => a.ofDaemon.toNat) t more ≤ 6) ∧
    (t.thread.waits = false → (∀ r, t.thread ≠ .returned r) →
      ∃ a : Action, a.ofThread = true ∧ (step t a).isSome) ∧
    (t.daemon.waits = false → t.daemon ≠ .ended →
      ∃ a : Action, a.ofDaemon = true ∧ (step t a).isSome) ∧
    (t.daemon = .ended → t.thread.starting = false →
      ∀ more v, Run step Always t more v → SameDuties t v) := by
  have hi := inv_run hrun
  have hset {signal : Signal} (h : signal.shouldContinue = false) :
      signal.exitFlag = true := by
    simpa [Signal.shouldContinue] using h
  refine ⟨fun hflag more v hmore => ?_, fun hflag more v hmore => ?_, thread_enabled,
    daemon_enabled, fun hended hstarted more v hmore => ?_⟩
  · exact (thread_steps_le hi (hset hflag) hmore).trans (threadLeft_le_of_inv hi)
  · exact (daemon_steps_le hi (hset hflag) hmore).trans (daemonLeft_le_of_inv hi)
  · exact sameDuties_of_abandoned ⟨hended, hstarted⟩ hmore

/-- The application whose daemon is lost hears from its peer and from the
rendezvous server, and its peer stays where it was. -/
theorem winds_down_example : ∃ t v,
    exec step Always (start .sample 1) daemonLost = some t ∧
    exec step Always t [.send, .check, .print ⟨[⟨⟨netV4, 9, 0x05030201⟩, ascii "yo"⟩,
      ⟨⟨netV4, 9, 0x04030201⟩, ascii "9.9.9.9"⟩], none⟩, .send, .exit] = some v ∧
    SameDuties t v := by
  have hend : ∀ t ∈ exec step Always (start .sample 1) daemonLost,
      t.daemon = .ended ∧ t.thread.starting = false ∧
      (exec step Always t [.send, .check,
        .print ⟨[⟨⟨netV4, 9, 0x05030201⟩, ascii "yo"⟩,
          ⟨⟨netV4, 9, 0x04030201⟩, ascii "9.9.9.9"⟩], none⟩,
        .send, .exit]).isSome := by
    decide +kernel
  obtain ⟨t, ht, hrun, hended, hstarted, hsome⟩ := Run.exists_of_exec hend
    (by decide +kernel)
  obtain ⟨v, hv⟩ := Option.isSome_iff_exists.mp hsome
  obtain ⟨_, _, _, _, hsame⟩ := winds_down .sample 1 hrun
  exact ⟨t, v, ht, hv, hsame hended hstarted _ v (.of_exec hv)⟩

end Process

end EchoApp

end PermanentIP

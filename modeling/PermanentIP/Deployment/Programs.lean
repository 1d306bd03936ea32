import PermanentIP.Common.Log
import PermanentIP.Proofs.Start
import PermanentIP.Proofs.NameServerStart
import PermanentIP.System.Wire

/-!
# The programs (`Deployment/Run*.cc`)

Three of the four `main`s check their arguments alike, make their component and
return what its `Start` returns. `Start` is a `bool`, true if all went well, and
`main` an `int`; so a component that did what it is for leaves the status 1, which
is also what `Die` and `EXIT_FAILURE` leave, and 0 is left for an application that
never connected to its peer (`statuses`). `RunMN` says that it is not supported.

What an application is given on the command line is all it ever says, except for
what it hears (`says_what_it_was_given`).

The arguments are C strings, without their NULs. What a constructor does not set
is as it was in the memory `new` found.
-/

namespace PermanentIP

open Lib

open SimpleRendezvousServer (ListenCalls)

open SimpleRendezvousServer.Process (Outcome)

namespace Deployment

/-! ## The `main`s -/

/-- How far a program is: at its end, the status and what `Die` had it say. -/
inductive Ending where
  | running
  | exited (status : Nat) (message : Bytes)
  | aborted
deriving DecidableEq

/-- `Die`, on a format without directives -/
def die (format : Bytes) : Ending := .exited 1 (format ++ [10])

/-- `exit(EXIT_FAILURE)` -/
def exitFailure : Ending := .exited 1 []

/-- `return component->Start()` -/
def ofOutcome : Outcome → Ending
  | .running => .running
  | .aborted => .aborted
  | .returned result => .exited result.toNat []

/-- `MIN_ARGUMENTS` -/
def minArguments : Nat := 2

/-- What the `main`s do first, and `none` where they go on to their component. -/
def checkArguments (missing component usage : Bytes) (count : Nat)
    (argv : List Bytes) : Option Ending :=
  if argv.length < minArguments then some (die missing)
  else if argv.getD 1 [] = component then
    if argv.length ≠ count then some (die usage) else none
  else some exitFailure

/-- `RunRS.cc` -/
def runRS (argv : List Bytes) (p : SimpleRendezvousServer.Process)
    (registration lookup : ListenCalls) (first : SimpleRendezvousServer.Process.Round)
    (rounds : List SimpleRendezvousServer.Process.Round) : Ending :=
  match checkArguments (ascii "Must specify an RS to use") (ascii "SRS")
      (ascii "Usage: ./RunRS SRS") 2 argv with
  | some ending => ending
  | none => ofOutcome (p.start registration lookup first rounds).outcome

/-- `RunDNS.cc` -/
def runDNS (argv : List Bytes) (p : SimpleDNS.Process) (calls : ListenCalls)
    (first : SimpleDNS.Process.Round) (rounds : List SimpleDNS.Process.Round) :
    Ending :=
  match checkArguments (ascii "Must specify an DNS to use") (ascii "SDNS")
      (ascii "Usage: ./RunDNS SDNS") 2 argv with
  | some ending => ending
  | none => ofOutcome (p.start calls first rounds).outcome

/-- An `int` as an `unsigned short` -/
def toUnsignedShort (n : Int32) : UInt16 := n.toUInt32.toUInt16

/-- `RunApp.cc`, up to `application->Start()` -/
def runApp (fresh : EchoApp) (argv : List Bytes) : Except Ending EchoApp :=
  match checkArguments (ascii "Must specify an application to use") (ascii "EchoApp")
      (ascii "Usage: ./RunApp EchoApp [Msg] [LA (Port)] [Peer (Port)] [DNS] [RS]") 9
      argv with
  | some ending => .error ending
  | none => .ok { fresh with
      keyword := argv.getD 2 []
      received := true
      logicalAddress := argv.getD 3 []
      appPort := toUnsignedShort (atoi (argv.getD 4 []))
      peerAddr := argv.getD 5 []
      peerPort := toUnsignedShort (atoi (argv.getD 6 []))
      dnsServer := argv.getD 7 []
      rendezvousServer := argv.getD 8 [] }

/-- `return application->Start()`, where the application is at `p`. -/
def ofThread (p : EchoApp.Process) : Ending :=
  match p.thread with
  | .returned result => .exited result.toNat []
  | .opening | .connecting _ | .waiting .. | .receiving | .sending | .checking =>
      .running

/-- `RunMN.cc` -/
def runMN (stderr : FilePtr) : Except Failure (Nat × Written) := do
  let logged ← logFiledes (some stderr) .fatal (ascii "MN not supported yet.") []
  return (1, logged.2)

/-! ## What an application says -/

variable {fresh app : EchoApp} {argv : List Bytes} {ip : Int32}
  {acts : List EchoApp.Process.Action} {t : EchoApp.Process}

theorem checkArguments_none_iff {missing component usage : Bytes} {count : Nat} :
    checkArguments missing component usage count argv = none ↔
      minArguments ≤ argv.length ∧ argv.getD 1 [] = component ∧ argv.length = count := by
  rw [checkArguments]
  split_ifs with hfew hcomponent hcount
  · exact iff_of_false (fun h => nomatch h) fun h => Nat.not_lt.mpr h.1 hfew
  · exact iff_of_false (fun h => nomatch h) fun h => hcount h.2.2
  · exact iff_of_true rfl ⟨Nat.not_lt.mp hfew, hcomponent, not_not.mp hcount⟩
  · exact iff_of_false (fun h => nomatch h) fun h => hcomponent h.2.1

theorem runApp_ok (happ : runApp fresh argv = .ok app) :
    ∃ program message la port peer peerPort dns rs,
      argv = [program, ascii "EchoApp", message, la, port, peer, peerPort, dns, rs] ∧
      app.keyword = message ∧ app.logicalAddress = la ∧ app.peerAddr = peer ∧
      app.peerPort = toUnsignedShort (atoi peerPort) := by
  rw [runApp] at happ
  split at happ
  · cases happ
  · next hnone =>
      obtain ⟨_, hcomponent, hlength⟩ := checkArguments_none_iff.mp hnone
      cases happ
      match argv, hlength with
      | [program, component, message, la, port, peer, peerPort, dns, rs], _ =>
          cases hcomponent
          exact ⟨program, message, la, port, peer, peerPort, dns, rs, rfl, rfl, rfl, rfl, rfl⟩

/-- In any run of `RunApp` with the arguments it takes, everything the process
sends on its app socket is the message of the command line, to the port of the
command line, or what somebody sent it, back to them or to that port, or a request
for the address of the peer of the command line, to the lookup port. -/
theorem says_what_it_was_given (happ : runApp fresh argv = .ok app)
    (hrun : Run EchoApp.Process.step Always (EchoApp.Process.start app ip) acts t) :
    ∃ program message la port peer peerPort dns rs,
      argv = [program, ascii "EchoApp", message, la, port, peer, peerPort, dns, rs] ∧
      ∀ d ∈ t.wire, EchoApp.Process.Given message
        (SimpleMobileNode.lookupRequest la peer)
        (htons (toUnsignedShort (atoi peerPort))) (EchoApp.Process.heard acts) d := by
  obtain ⟨program, message, la, port, peer, peerPort, dns, rs, hargv, hkey, hla, hpeer,
    hport⟩ := runApp_ok happ
  have hgiven := EchoApp.Process.wire_given app ip hrun
  rw [hkey, hla, hpeer, hport] at hgiven
  exact ⟨program, message, la, port, peer, peerPort, dns, rs, hargv, hgiven⟩

def sampleArguments : List Bytes :=
  [ascii "RunApp", ascii "EchoApp", ascii "hey", ascii "A", ascii "16000", ascii "B",
    ascii "81536", ascii "1.2.3.9", ascii "1.2.3.4"]

/-- The application asks for its peer, hears "ho", and says it back, and then its own
message to port 16000, which is 81536 modulo 65536. -/
def sampleRun : List EchoApp.Process.Action :=
  [.openSocket ⟨3, 0, 0, 0, 0⟩, .ask (ascii "1.2.3.4") true,
    .register (ascii "1.2.3.4") (ascii "1.2.3.5"),
    .print ⟨[⟨⟨netV4, 21, 77⟩, ascii "ho"⟩], none⟩, .send]

theorem says_what_it_was_given_example : ∃ app t,
    runApp .sample sampleArguments = .ok app ∧
    exec EchoApp.Process.step Always (EchoApp.Process.start app 1) sampleRun = some t ∧
    t.wire.length = 3 ∧
    ∀ d ∈ t.wire, EchoApp.Process.Given (ascii "hey") (ascii "A|B") (htons 16000)
      [⟨⟨netV4, 21, 77⟩, ascii "ho"⟩] d := by
  obtain ⟨app, happ⟩ : ∃ app, runApp .sample sampleArguments = .ok app := ⟨_, rfl⟩
  have hrun : ∀ app', runApp .sample sampleArguments = .ok app' →
      ∃ t, exec EchoApp.Process.step Always (EchoApp.Process.start app' 1) sampleRun =
        some t ∧ t.wire.length = 3 := by
    intro app' happ'
    cases happ'
    exact ⟨_, rfl, rfl⟩
  obtain ⟨t, ht, hlength⟩ := hrun app happ
  obtain ⟨program, message, la, port, peer, peerPort, dns, rs, hargv, hgiven⟩ :=
    says_what_it_was_given happ (.of_exec ht)
  simp only [sampleArguments, List.cons.injEq] at hargv
  obtain ⟨-, -, rfl, rfl, -, rfl, rfl, -⟩ := hargv
  exact ⟨app, t, happ, ht, hlength, hgiven⟩

/-! ## The status it leaves -/

/-- What a call of `RegisterPeer` was answered. -/
def answer? : EchoApp.Process.Action → Option (PhysicalAddress × PhysicalAddress)
  | .register rsAddr peerLoc => some (rsAddr, peerLoc)
  | .openSocket _ | .ask .. | .print _ | .send | .check | .daemonRegister | .compare _
  | .update | .poll .. | .store _ | .daemonCheck | .close | .stopDaemon | .exit => none

def answers (acts : List EchoApp.Process.Action) :
    List (PhysicalAddress × PhysicalAddress) := acts.filterMap answer?

/-- One of the two servers had no answer. -/
def Refused (answer : PhysicalAddress × PhysicalAddress) : Prop :=
  answer.1 = [] ∨ answer.2 = []

/-- How the calls of `RegisterPeer` have come out, by where the application is. -/
def Tried : EchoApp.Thread → List (PhysicalAddress × PhysicalAddress) → Prop
  | .opening, l => l = []
  | .connecting backoff, l | .waiting backoff _, l =>
      l.length + 1 = backoff ∧ ∀ x ∈ l, Refused x
  | .receiving, l | .sending, l | .checking, l | .returned true, l =>
      ∃ x ∈ l, ¬ Refused x
  | .returned false, l =>
      (l.length = 0 ∨ l.length = maxAttempts + 1) ∧ ∀ x ∈ l, Refused x

theorem answers_snoc (acts : List EchoApp.Process.Action) (a : EchoApp.Process.Action) :
    answers (acts ++ [a]) = answers acts ++ (answer? a).toList := by
  rw [answers, List.filterMap_append]
  cases h : answer? a with
  | none => rw [List.filterMap_cons_none h]; rfl
  | some x => rw [List.filterMap_cons_some h]; rfl

theorem refused_iff {rsAddr peerLoc : PhysicalAddress} :
    (app.registerPeer rsAddr peerLoc).peerInfo = none ↔ Refused (rsAddr, peerLoc) := by
  rcases app.registerPeer_cases rsAddr peerLoc with ⟨hrs, hloc, heq⟩ | ⟨hnil, heq⟩
  · rw [heq]
    exact iff_of_false (fun h => nomatch h) fun h => h.elim hrs hloc
  · rw [heq]
    exact iff_of_true rfl hnil

theorem tried_step {p q : EchoApp.Process} {a : EchoApp.Process.Action}
    {l : List (PhysicalAddress × PhysicalAddress)} (h : EchoApp.Process.Stepped p a q)
    (hi : EchoApp.Process.Inv p) (hl : Tried p.thread l) :
    Tried q.thread (l ++ (answer? a).toList) := by
  cases h with
  | opened hthread _ =>
      rw [hthread] at hl
      cases hl
      exact ⟨rfl, fun _ hx => nomatch hx⟩
  | openFailed hthread _ =>
      rw [hthread] at hl
      cases hl
      exact ⟨Or.inl rfl, fun _ hx => nomatch hx⟩
  | asked hthread =>
      rw [hthread] at hl
      rw [answer?, Option.toList_none, List.append_nil]
      exact hl
  | refused hthread _ hnull =>
      rw [hthread] at hl
      refine ⟨?_, fun x hx => ?_⟩
      · rw [List.length_append]
        exact congrArg (· + 1) hl.1
      · rcases List.mem_append.mp hx with hold | hnew
        · exact hl.2 x hold
        · cases List.mem_singleton.mp hnew
          exact refused_iff.mp hnull
  | gaveUp hthread hlt hnull =>
      have hle := hi.backoff.2
      rw [hthread] at hl hle
      refine ⟨Or.inr ?_, fun x hx => ?_⟩
      · rw [List.length_append]
        exact hl.1.trans (Nat.le_antisymm hle hlt)
      · rcases List.mem_append.mp hx with hold | hnew
        · exact hl.2 x hold
        · cases List.mem_singleton.mp hnew
          exact refused_iff.mp hnull
  | connected hthread hsome =>
      exact ⟨_, List.mem_append_right l (List.mem_singleton_self _),
        refused_iff.not.mp hsome⟩
  | printed hthread _ | printFailed hthread _ | sent hthread =>
      rw [hthread] at hl
      rw [answer?, Option.toList_none, List.append_nil]
      exact hl
  | checked hthread =>
      rw [hthread] at hl
      rw [answer?, Option.toList_none, List.append_nil]
      simp only []
      split <;> exact hl
  | daemonRegistered | compared | updated | polled | stored | daemonChecked | close
  | stopDaemon | exit =>
      rw [answer?, Option.toList_none, List.append_nil]
      exact hl

theorem tried_run
    (hrun : Run EchoApp.Process.step Always (EchoApp.Process.start app ip) acts t) :
    Tried t.thread (answers acts) := by
  induction hrun with
  | nil => rfl
  | snoc h _ hs ih =>
      rw [answers_snoc]
      exact tried_step (EchoApp.Process.stepped hs) (EchoApp.Process.inv_run h) ih

theorem status_of_outcome {o : Outcome} (ho : o ≠ .returned false) {status : Nat}
    {message : Bytes} (h : ofOutcome o = .exited status message) : status = 1 := by
  match o with
  | .running => cases h
  | .aborted => cases h
  | .returned true =>
      cases h
      rfl
  | .returned false => exact absurd rfl ho

theorem status_of_arguments {missing component usage : Bytes} {count : Nat}
    {ending : Ending}
    (h : checkArguments missing component usage count argv = some ending) :
    ∃ message, ending = .exited 1 message := by
  rw [checkArguments] at h
  split_ifs at h with hfew hcomponent hcount
  · cases h
    exact ⟨_, rfl⟩
  · cases h
    exact ⟨_, rfl⟩
  · cases h
    exact ⟨_, rfl⟩

theorem status_runRS {p : SimpleRendezvousServer.Process}
    {registration lookup : ListenCalls} {first : SimpleRendezvousServer.Process.Round}
    {rounds : List SimpleRendezvousServer.Process.Round} {status : Nat}
    {message : Bytes}
    (h : runRS argv p registration lookup first rounds = .exited status message) :
    status = 1 := by
  rw [runRS] at h
  split at h
  · next ending hcheck =>
      obtain ⟨message', rfl⟩ := status_of_arguments hcheck
      cases h
      rfl
  · exact status_of_outcome
      (SimpleRendezvousServer.Process.outcome_start _ _ _ _ _) h

theorem status_runDNS {p : SimpleDNS.Process} {calls : ListenCalls}
    {first : SimpleDNS.Process.Round} {rounds : List SimpleDNS.Process.Round}
    {status : Nat} {message : Bytes}
    (h : runDNS argv p calls first rounds = .exited status message) : status = 1 := by
  rw [runDNS] at h
  split at h
  · next ending hcheck =>
      obtain ⟨message', rfl⟩ := status_of_arguments hcheck
      cases h
      rfl
  · exact status_of_outcome (SimpleDNS.Process.outcome_start _ _ _ _) h

theorem status_runApp {ending : Ending} (h : runApp fresh argv = .error ending) :
    ∃ message, ending = .exited 1 message := by
  rw [runApp] at h
  split at h
  · next ending' hcheck =>
      cases h
      exact status_of_arguments hcheck
  · cases h

/-- No program says by its status that it did what it is for. The servers never
leave 0, whatever their arguments and however they end; nor does `RunApp` with
arguments it does not take. An application leaves 0 if and only if it never
connected: it got no socket, or its eleven calls of `RegisterPeer` were all refused;
and 1 if it did. -/
theorem statuses
    (hrun : Run EchoApp.Process.step Always (EchoApp.Process.start app ip) acts t) :
    (∀ argv p registration lookup first rounds status message,
      runRS argv p registration lookup first rounds = .exited status message →
        status = 1) ∧
    (∀ argv p calls first rounds status message,
      runDNS argv p calls first rounds = .exited status message → status = 1) ∧
    (∀ fresh argv ending, runApp fresh argv = .error ending →
      ∃ message, ending = .exited 1 message) ∧
    ∀ status message, ofThread t = .exited status message → message = [] ∧
      (status = 0 ∧ (∀ x ∈ answers acts, Refused x) ∧
          ((answers acts).length = 0 ∨ (answers acts).length = maxAttempts + 1) ∨
        status = 1 ∧ ∃ x ∈ answers acts, ¬ Refused x) := by
  refine ⟨fun _ _ _ _ _ _ _ _ => status_runRS, fun _ _ _ _ _ _ _ => status_runDNS,
    fun _ _ _ => status_runApp, fun status message h => ?_⟩
  have htried := tried_run hrun
  rw [ofThread] at h
  split at h
  · next result hthread =>
      rw [hthread] at htried
      cases h
      refine ⟨rfl, ?_⟩
      cases result with
      | false => exact Or.inl ⟨rfl, htried.2, htried.1⟩
      | true => exact Or.inr ⟨rfl, htried⟩
  all_goals cases h

/-- Eleven calls of `RegisterPeer`: the name server knows nobody, or the rendezvous
server does not. -/
def refusedRun : List EchoApp.Process.Action :=
  .openSocket ⟨3, 0, 0, 0, 0⟩ :: (List.replicate 5 ([], [])
    ++ List.replicate 6 (ascii "1.2.3.4", [])).flatMap EchoApp.Process.registering

/-- All eleven are refused, and the status is 0. -/
theorem statuses_example : ∃ t,
    exec EchoApp.Process.step Always (EchoApp.Process.start .sample 1) refusedRun =
      some t ∧
    ofThread t = .exited 0 [] ∧ ∀ status message, ofThread t = .exited status message →
      message = [] ∧
        (status = 0 ∧ (∀ x ∈ answers refusedRun, Refused x) ∧
            ((answers refusedRun).length = 0 ∨
              (answers refusedRun).length = maxAttempts + 1) ∨
          status = 1 ∧ ∃ x ∈ answers refusedRun, ¬ Refused x) := by
  have hend : ∀ t ∈ exec EchoApp.Process.step Always
      (EchoApp.Process.start .sample 1) refusedRun, ofThread t = .exited 0 [] := by
    decide +kernel
  obtain ⟨t, ht, hrun, hstatus⟩ := Run.exists_of_exec hend (by decide +kernel)
  exact ⟨t, ht, hstatus, (statuses hrun).2.2.2⟩

end Deployment

end PermanentIP

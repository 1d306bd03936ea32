import PermanentIP.Proofs.NameServerLog

/-!
# The life of a name server

`SimpleDNS::Start` from its first line to its last, on any answers of the
system calls of `BeginListening`, any datagrams and errors on the listener, and
whatever another thread or a signal does meanwhile.

It does not serve without its listener, and on one it answers the requests in
the order they came in, each pass one, up to the first whose line it cannot write
(`start_serves`); the passes that answer are `made`. How it ends, if no line ends it,
is decided by the first pass in which something happens from outside or fails
(`stops_cleanly_iff`). For a `ShutDown` in another thread,
which closes the listener and then sets the flag, that is a matter of luck: it
ends the server as it should only if both fall between one `HandleRequests` and
the check after it, and otherwise the assertion on a `HandleRequests` ends the
process.
-/

namespace PermanentIP

open Lib SimpleMobileNode

open SimpleRendezvousServer (replyBuffer ListenCalls)

open SimpleRendezvousServer.Process (Outcome)

namespace SimpleDNS.Process

/-- Whether a `ShutDown` closes the listener during a pass. -/
def Round.Closes (r : Round) : Prop := .close ∈ r.early ++ r.late

/-- Whether something tells the program to exit during a pass. -/
def Round.Exits (r : Round) : Prop := .exit ∈ r.early ++ r.late

instance (r : Round) : Decidable r.Closes := inferInstanceAs (Decidable (_ ∈ _))

instance (r : Round) : Decidable r.Exits := inferInstanceAs (Decidable (_ ∈ _))

/-- A receive that does not fail, on a listener that was open before. -/
def Round.Receives (r : Round) : Prop := .close ∉ r.early ∧ r.error = none

instance (r : Round) : Decidable r.Receives := inferInstanceAs (Decidable (_ ∧ _))

/-- The passes that are made with a receive that does not fail. -/
def made : List Round → List Round
  | [] => []
  | r :: rounds =>
      if r.Receives then
        if r.Exits ∨ r.Closes then [r] else r :: made rounds
      else []

/-- What a server with these names answers to a datagram. -/
def answer (fd : Int) (names : UnorderedMap LogicalAddress PhysicalAddress)
    (p : Packet) : List Sent :=
  if p.payload = [] then []
  else sendto fd (replyBuffer (cstr (UnorderedMap.get names p.text)) p) p.src

/-- What passes that receive take off the listener's queue, in order, and what
they leave on it. -/
def polled (queue : List Packet) (rounds : List Round) :
    List Packet × List Packet :=
  let r := Polling.passes [()] (rounds.map fun r _ => r.arrived) fun _ => queue
  (Polling.takenFrom () r.1, r.2 ())

variable {p : Process} {r : Round} {rounds pre post : List Round}
  {queue : List Packet} {calls : ListenCalls}

/-! ## One pass -/

theorem foldl_outside (l : List Outside) :
    l.foldl outside p = { p with
      closed := p.closed || decide (.close ∈ l)
      signal := ⟨p.signal.exitFlag || decide (.exit ∈ l)⟩ } := by
  induction l generalizing p with
  | nil => simp
  | cons o l ih =>
      rw [List.foldl_cons, ih]
      cases o with
      | close => simp [outside]
      | exit => simp [outside, Signal.exitProgram]

theorem handleRequests_eq (dns : SimpleDNS) (queue : List Packet) :
    dns.handleRequests ⟨queue, none⟩ =
      { ok := true
        sent := queue.head?.toList.flatMap (answer dns.listener dns.registeredNames)
        dns := dns
        socket := ⟨queue.tail, none⟩ } := by
  cases queue with
  | nil => exact handleRequests_nil
  | cons p rest =>
      by_cases h : p.payload = []
      · rw [handleRequests_empty h]
        simp [answer, h]
      · rw [handleRequests_cons h]
        simp [answer, h]

theorem handleRequests_error (dns : SimpleDNS) (queue : List Packet) (code : Nat) :
    dns.handleRequests ⟨queue, some (.other code)⟩ =
      { ok := false, sent := [], dns := dns, socket := ⟨queue, none⟩ } := rfl

/-- A receive that fails: the listener has been closed, or there is an error. -/
theorem found_of_failed (h : p.closed ∨ ¬ r.Receives) :
    ∃ queue code, (r.early.foldl outside p).found r = ⟨queue, some (.other code)⟩ := by
  rw [foldl_outside, found]
  by_cases hclosed : p.closed || decide (.close ∈ r.early)
  · exact ⟨[], 9, if_pos hclosed⟩
  · simp only [if_neg hclosed]
    rw [Bool.or_eq_true, decide_eq_true_eq, not_or] at hclosed
    rcases herror : r.error with _ | code
    · exact absurd ⟨hclosed.2, herror⟩ (h.resolve_left hclosed.1)
    · exact ⟨_, code, rfl⟩

theorem pass_of_failed (h : p.closed ∨ ¬ r.Receives) : p.pass r = ([], none) := by
  obtain ⟨queue, code, hfound⟩ := found_of_failed h
  rw [pass]
  simp only [hfound, handleRequests_error]
  rfl

theorem pass_of_receives (hopen : p.closed = false) (h : r.Receives) :
    p.pass r =
      ((p.queue ++ r.arrived).head?.toList.flatMap
          (answer p.dns.listener p.dns.registeredNames),
        some { p with
          queue := (p.queue ++ r.arrived).tail
          closed := decide r.Closes
          signal := ⟨p.signal.exitFlag || decide r.Exits⟩ }) := by
  obtain ⟨hearly, herror⟩ := h
  rw [pass]
  simp only [foldl_outside, found, hopen, hearly, herror, decide_false,
    Bool.or_false, Bool.false_eq_true, if_false, Option.map_none,
    handleRequests_eq, if_true, Round.Closes, Round.Exits, List.mem_append,
    false_or, Bool.false_or, Bool.decide_or, Bool.or_assoc]

/-! ## The loop -/

/-- How the loop ends on these passes, or that it has not. -/
def ending : List Round → Outcome
  | [] => .running
  | r :: rounds =>
      if r.Receives then
        if r.Exits then .returned true
        else if r.Closes then if rounds = [] then .running else .aborted
        else ending rounds
      else .aborted

theorem polled_nil : polled queue [] = ([], queue) := rfl

theorem polled_cons :
    polled queue (r :: rounds) =
      ((queue ++ r.arrived).head?.toList ++
          (polled (queue ++ r.arrived).tail rounds).1,
        (polled (queue ++ r.arrived).tail rounds).2) := by
  have hupdate : Function.update (fun _ : Unit => queue) ()
      (queue ++ r.arrived).tail = fun _ => (queue ++ r.arrived).tail :=
    funext fun _ => Function.update_self ..
  rw [polled, polled, List.map_cons, Polling.passes]
  simp only [Polling.pass, hupdate, List.append_nil, Polling.takenFrom_append,
    Polling.takenFrom_map_self]

theorem made_of_failed (hr : ¬ r.Receives) : made (r :: rounds) = [] := if_neg hr

/-- The last pass that is made. -/
theorem made_last (hr : r.Receives) (hlast : r.Exits ∨ r.Closes) :
    made (r :: rounds) = [r] := (if_pos hr).trans (if_pos hlast)

theorem made_next (hr : r.Receives) (hnext : ¬ (r.Exits ∨ r.Closes)) :
    made (r :: rounds) = r :: made rounds := (if_pos hr).trans (if_neg hnext)

theorem andThen_go {sent : List Sent} {next : Process → Served}
    (h : p.signal.exitFlag = false) :
    andThen (sent, some p) next = ⟨(next p).outcome, sent ++ (next p).sent⟩ := by
  rw [andThen]
  simp only [Signal.shouldContinue, h, Bool.not_false, if_true]

theorem andThen_stop {sent : List Sent} {next : Process → Served}
    (h : p.signal.exitFlag = true) :
    andThen (sent, some p) next = ⟨.returned true, sent⟩ := by
  rw [andThen]
  simp only [Signal.shouldContinue, h, Bool.not_true, Bool.false_eq_true, if_false]

theorem loop_of_failed (h : p.closed ∨ ¬ r.Receives) :
    p.loop r rounds = ⟨.aborted, []⟩ := by
  cases rounds with
  | nil =>
      rw [loop, pass_of_failed h]
      rfl
  | cons next rounds =>
      rw [loop, pass_of_failed h]
      rfl

theorem loop_of_exits (hopen : p.closed = false) (hr : r.Receives)
    (hexits : r.Exits) :
    p.loop r rounds = ⟨.returned true, (p.queue ++ r.arrived).head?.toList.flatMap
      (answer p.dns.listener p.dns.registeredNames)⟩ := by
  have hstop : (p.signal.exitFlag || decide r.Exits) = true := by simp [hexits]
  cases rounds with
  | nil => rw [loop, pass_of_receives hopen hr, andThen_stop hstop]
  | cons next rounds => rw [loop, pass_of_receives hopen hr, andThen_stop hstop]

/-- On an open listener the loop ends as `ending` says, and has answered what
its passes took. -/
theorem loop_eq (hopen : p.closed = false) (hgo : p.signal.exitFlag = false) :
    p.loop r rounds = ⟨ending (r :: rounds),
      (polled p.queue (made (r :: rounds))).1.flatMap
        (answer p.dns.listener p.dns.registeredNames)⟩ := by
  induction rounds generalizing p r with
  | nil =>
      by_cases hr : r.Receives
      · by_cases hexits : r.Exits
        · rw [loop_of_exits hopen hr hexits, made_last hr (Or.inl hexits), polled_cons,
            polled_nil, List.append_nil, ending, if_pos hr, if_pos hexits]
        · have hgo' : (p.signal.exitFlag || decide r.Exits) = false := by
            simp [hgo, hexits]
          have hmade : made [r] = [r] := by
            rw [made, if_pos hr, made, ite_self]
          rw [loop, pass_of_receives hopen hr, andThen_go hgo', ending, if_pos hr,
            if_neg hexits, ending, if_pos rfl, ite_self, hmade, polled_cons,
            polled_nil, List.append_nil, List.append_nil]
      · rw [loop_of_failed (Or.inr hr), ending, if_neg hr, made_of_failed hr]
        rfl
  | cons next rounds ih =>
      by_cases hr : r.Receives
      · by_cases hexits : r.Exits
        · rw [loop_of_exits hopen hr hexits, made_last hr (Or.inl hexits), polled_cons,
            polled_nil, List.append_nil, ending, if_pos hr, if_pos hexits]
        · have hgo' : (p.signal.exitFlag || decide r.Exits) = false := by
            simp [hgo, hexits]
          rw [loop, pass_of_receives hopen hr, andThen_go hgo', ending, if_pos hr,
            if_neg hexits]
          by_cases hcloses : r.Closes
          · rw [loop_of_failed (Or.inl (by simp [hcloses])), if_pos hcloses,
              if_neg (List.cons_ne_nil _ _), made_last hr (Or.inr hcloses),
              polled_cons, polled_nil]
            simp only [List.append_nil]
          · rw [ih (by simp [hcloses]) hgo', if_neg hcloses,
              made_next hr (not_or.mpr ⟨hexits, hcloses⟩), polled_cons,
              List.flatMap_append]
      · rw [loop_of_failed (Or.inr hr), ending, if_neg hr, made_of_failed hr]
        rfl

/-! ## What it logs on the way -/

/-- The line a pass writes can be written. -/
def LogsPass (p : Process) (r : Round) : Prop :=
  ∀ x rest, (r.early.foldl outside p).found r = ⟨x :: rest, none⟩ → p.dns.Logs x

/-- The lines of all passes that are made can be. -/
def LogsLoop (p : Process) (r : Round) : List Round → Prop
  | [] => p.LogsPass r
  | next :: rounds => p.LogsPass r ∧ ∀ q, (p.pass r).2 = some q →
      q.signal.shouldContinue = true → q.LogsLoop next rounds

theorem does_pass (p : Process) (stderr : FilePtr) (r : Round) :
    Does (p.passWithLog stderr r) (p.LogsPass r) (p.pass r).1 (p.pass r).2 := by
  have hdns : (r.early.foldl outside p).dns = p.dns := by rw [foldl_outside]
  rw [LogsPass, ← hdns]
  exact does_handleRequests.map fun handled =>
    if handled.1 then some (r.late.foldl outside { r.early.foldl outside p with
      dns := handled.2.1, queue := handled.2.2.queue }) else none

/-- What a pass and the rest of the loop sent, one after the other -/
theorem sent_andThen (pass : List Sent × Option Process) (next : Process → Served) :
    (pass.2 = none →
      (andThen pass next).sent = pass.1 ∧ (andThen pass next).outcome = .aborted) ∧
    (∀ q, pass.2 = some q → q.signal.shouldContinue = false →
      (andThen pass next).sent = pass.1 ∧
        (andThen pass next).outcome = .returned true) ∧
    ∀ q, pass.2 = some q → q.signal.shouldContinue = true →
      (andThen pass next).sent = pass.1 ++ (next q).sent ∧
        (andThen pass next).outcome = (next q).outcome := by
  refine ⟨fun h => ?_, fun q h hgo => ?_, fun q h hgo => ?_⟩
  · simp only [andThen, h, and_self]
  · simp only [andThen, h, hgo, Bool.false_eq_true, if_false, and_self]
  · simp only [andThen, h, hgo, if_true, and_self]

/-- The loop comes as far as the loop without its lines, if it can write them. -/
theorem does_loop (p : Process) (stderr : FilePtr) (r : Round) (rounds : List Round) :
    Does (p.loopWithLog stderr r rounds) (p.LogsLoop r rounds) (p.loop r rounds).sent
      (p.loop r rounds).outcome := by
  induction rounds generalizing p r with
  | nil =>
      obtain ⟨hnone, hend, hgoes⟩ := sent_andThen (p.pass r) fun _ => ⟨.running, []⟩
      have hlast (q : Process) : Does (pure .running : Lib.Outcome Sent Failure Outcome)
        True [] .running := does_pure _
      exact (does_andThen (does_pass p stderr r) hlast hnone hend hgoes).congr
        (and_iff_left fun _ _ _ => trivial)
  | cons next rounds ih =>
      obtain ⟨hnone, hend, hgoes⟩ := sent_andThen (p.pass r) fun q => q.loop next rounds
      exact does_andThen (does_pass p stderr r) (fun q => ih q next) hnone hend hgoes

theorem logsPass_of_failed (h : p.closed ∨ ¬ r.Receives) : p.LogsPass r := by
  obtain ⟨queue, code, hfound⟩ := found_of_failed h
  intro x rest heq
  rw [hfound] at heq
  cases heq

theorem logsPass_iff (hopen : p.closed = false) (hr : r.Receives) :
    p.LogsPass r ↔ ∀ x ∈ (p.queue ++ r.arrived).head?.toList, p.dns.Logs x := by
  have hfound : (r.early.foldl outside p).found r = ⟨p.queue ++ r.arrived, none⟩ := by
    obtain ⟨hearly, herror⟩ := hr
    rw [foldl_outside, found]
    simp [hopen, hearly, herror]
  rw [LogsPass, hfound]
  cases p.queue ++ r.arrived with
  | nil => exact iff_of_true (fun x rest h => nomatch h) fun x hx => nomatch hx
  | cons y ys =>
      constructor
      · intro h x hx
        cases List.mem_singleton.mp hx
        exact h y ys rfl
      · intro h x rest heq
        cases heq
        exact h y (List.mem_singleton_self y)

theorem logsLoop_of_failed (h : p.closed ∨ ¬ r.Receives) : p.LogsLoop r rounds := by
  have hpass := logsPass_of_failed h
  cases rounds with
  | nil => exact hpass
  | cons next rounds =>
      refine ⟨hpass, fun q hq => ?_⟩
      rw [pass_of_failed h] at hq
      cases hq

/-- On an open listener they are the lines about what the passes take. -/
theorem logsLoop_iff (hopen : p.closed = false) (hgo : p.signal.exitFlag = false) :
    p.LogsLoop r rounds ↔
      ∀ x ∈ (polled p.queue (made (r :: rounds))).1, p.dns.Logs x := by
  induction rounds generalizing p r with
  | nil =>
      by_cases hr : r.Receives
      · have hmade : made [r] = [r] := by
          rw [made, if_pos hr, made, ite_self]
        rw [LogsLoop, logsPass_iff hopen hr, hmade, polled_cons, polled_nil,
          List.append_nil]
      · rw [made_of_failed hr, polled_nil]
        exact iff_of_true (logsLoop_of_failed (Or.inr hr)) fun x hx => nomatch hx
  | cons next rounds ih =>
      by_cases hr : r.Receives
      · rw [LogsLoop, logsPass_iff hopen hr, pass_of_receives hopen hr]
        by_cases hexits : r.Exits
        · rw [made_last hr (Or.inl hexits), polled_cons, polled_nil, List.append_nil]
          refine and_iff_left fun q hq hgo' => ?_
          cases hq
          simp [Signal.shouldContinue, hexits] at hgo'
        · by_cases hcloses : r.Closes
          · rw [made_last hr (Or.inr hcloses), polled_cons, polled_nil, List.append_nil]
            refine and_iff_left fun q hq _ => ?_
            cases hq
            exact logsLoop_of_failed (Or.inl (by simp [hcloses]))
          · have hgo' : (p.signal.exitFlag || decide r.Exits) = false := by
              simp [hgo, hexits]
            rw [made_next hr (not_or.mpr ⟨hexits, hcloses⟩), polled_cons,
              List.forall_mem_append]
            refine and_congr_right fun _ => ?_
            have hrest := ih (p := { p with
              queue := (p.queue ++ r.arrived).tail
              closed := decide r.Closes
              signal := ⟨p.signal.exitFlag || decide r.Exits⟩ }) (r := next)
              (by simp [hcloses]) hgo'
            rw [← hrest]
            constructor
            · intro h
              exact h _ rfl (by simp [Signal.shouldContinue, hgo'])
            · intro h q hq _
              cases hq
              exact h
      · rw [made_of_failed hr, polled_nil]
        exact iff_of_true (logsLoop_of_failed (Or.inr hr)) fun x hx => nomatch hx

/-! ## How it ends -/

/-- A pass in which nothing fails and nothing happens outside. -/
structure Round.Quiet (r : Round) : Prop where
  receives : r.Receives
  exits : ¬ r.Exits
  closes : ¬ r.Closes

theorem ending_append (post : List Round) (hpre : ∀ x ∈ pre, x.Quiet) :
    ending (pre ++ post) = ending post := by
  induction pre with
  | nil => rfl
  | cons x pre ih =>
      obtain ⟨hx, hpre⟩ := List.forall_mem_cons.mp hpre
      rw [List.cons_append, ending, if_pos hx.receives, if_neg hx.exits,
        if_neg hx.closes, ih hpre]

theorem ending_of_quiet (h : ∀ x ∈ rounds, x.Quiet) : ending rounds = .running := by
  have hall := ending_append [] h
  rwa [List.append_nil] at hall

/-- The first pass that is not quiet decides. -/
theorem ending_of_loud (hr : ¬ r.Quiet) :
    (ending (r :: post) = .returned true ↔ r.Receives ∧ r.Exits) ∧
    (ending (r :: post) = .aborted ↔
      ¬ r.Receives ∨ ¬ r.Exits ∧ post ≠ []) := by
  rw [ending]
  split_ifs with hreceives hexits hcloses hpost
  · simp [hreceives, hexits]
  · simp [hreceives, hexits, hpost]
  · simp [hreceives, hexits, hpost]
  · exact absurd ⟨hreceives, hexits, hcloses⟩ hr
  · simp [hreceives]

/-! ## `Start` -/

theorem ok_iff : calls.ok ↔ ¬ calls.socket < 0 ∧ ¬ calls.bind ≠ 0 ∧
    ¬ calls.setsockopt < 0 ∧ ¬ calls.getfl < 0 ∧ ¬ calls.setfl < 0 := by
  simp only [ListenCalls.ok, Bool.and_eq_true, decide_eq_true_eq, beq_iff_eq]
  omega

/-- The process with a listener that has just been assigned. -/
def assigned (p : Process) (fd : Int) : Process :=
  { p with dns := { p.dns with listener := fd }, queue := [], closed := false }

theorem beginListening_eq :
    p.beginListening calls =
      if calls.ok then (true, p.assigned calls.socket)
      else (p.assigned calls.socket).shutDown := by
  rw [beginListening]
  by_cases h : calls.ok
  · obtain ⟨hsocket, hbind, hset, hget, hsetfl⟩ := ok_iff.mp h
    rw [if_pos h, if_neg hsocket, if_neg hbind, if_neg hset, if_neg hget,
      if_neg hsetfl]
    rfl
  · rw [if_neg h]
    split_ifs with hsocket hbind hset hget hsetfl
    · rfl
    · rfl
    · rfl
    · rfl
    · rfl
    · exact absurd (ok_iff.mpr ⟨hsocket, hbind, hset, hget, hsetfl⟩) h

/-- The loop returns no failure that what comes after a pass does not. -/
theorem outcome_andThen {pass : List Sent × Option Process} {next : Process → Served}
    (h : ∀ q, (next q).outcome ≠ .returned false) :
    (andThen pass next).outcome ≠ .returned false := by
  rw [andThen]
  split
  · exact fun h => nomatch h
  · split
    · exact h _
    · exact fun h => nomatch h

theorem outcome_loop (p : Process) (r : Round) (rounds : List Round) :
    (p.loop r rounds).outcome ≠ .returned false := by
  induction rounds generalizing p r with
  | nil => exact outcome_andThen fun _ h => nomatch h
  | cons next rounds ih => exact outcome_andThen fun q => ih q next

theorem outcome_start (p : Process) (calls : ListenCalls) (first : Round)
    (rounds : List Round) :
    (p.start calls first rounds).outcome ≠ .returned false := by
  rw [start]
  simp only []
  split
  · exact outcome_loop _ _ _
  · exact fun h => nomatch h

/-- The address of the rendezvous server of both names, and no address for any
other. -/
def demoAddress (name : LogicalAddress) : PhysicalAddress :=
  if name = ascii "python" ∨ name = ascii "tick" then ascii "128.36.232.37" else []

def demoReply (p : Packet) : Bytes := replyBuffer (demoAddress p.text) p

theorem get_demoNames (fd : Int) (name : LogicalAddress) :
    UnorderedMap.get (demoNames.foldl (fun dns n => dns.addName n.1 n.2)
      (new fd)).registeredNames name = demoAddress name := by
  simp only [demoNames, List.foldl_cons, List.foldl_nil, addName, demoAddress]
  by_cases htick : name = ascii "tick"
  · subst htick
    rw [UnorderedMap.get_insert, if_pos (Or.inr rfl)]
  · rw [UnorderedMap.get_insert_ne htick]
    by_cases hpython : name = ascii "python"
    · subst hpython
      rw [UnorderedMap.get_insert, if_pos (Or.inl rfl)]
    · rw [UnorderedMap.get_insert_ne hpython, if_neg (not_or.mpr ⟨hpython, htick⟩)]
      rfl

theorem nulFree_demoAddress (name : LogicalAddress) : NulFree (demoAddress name) := by
  rw [demoAddress]
  split
  · decide
  · exact List.not_mem_nil

theorem readReply_demoReply (p : Packet) (server : SockAddr) :
    readReply ⟨server, demoReply p⟩ = demoAddress p.text := by
  rw [demoReply, readReply_replyBuffer_take (nulFree_demoAddress _)]
  refine List.take_of_length_le ?_
  rw [demoAddress]
  split
  · decide
  · exact Nat.zero_le _

/-- What `Start` answers to a request on its listener. -/
def demoAnswer (fd : Int) (p : Packet) : List Sent :=
  if p.payload = [] then [] else [⟨fd, p.src, demoReply p⟩]

theorem answer_demoNames (fd : Int) {fd' : Int} (hfd : 0 ≤ fd') :
    answer fd' (demoNames.foldl (fun dns n => dns.addName n.1 n.2)
      (new fd)).registeredNames = demoAnswer fd' := by
  have hnot : ¬ fd' < 0 := Int.not_lt.mpr hfd
  funext p
  rw [answer, demoAnswer, get_demoNames, cstr_eq_self (nulFree_demoAddress _),
    sendto]
  simp only [if_neg hnot]
  rfl

/-- `Start`, from the constructor on. -/
theorem start_eq (fd : Int) (queue : List Packet) (closed : Bool) (signal : Signal)
    (calls : ListenCalls) (first : Round) (rounds : List Round) :
    start ⟨new fd, queue, closed, signal⟩ calls first rounds =
      if calls.ok then
        ⟨ending (first :: rounds),
          (polled [] (made (first :: rounds))).1.flatMap (demoAnswer calls.socket)⟩
      else ⟨.aborted, []⟩ := by
  rw [start]
  simp only [beginListening_eq]
  by_cases h : calls.ok
  · simp only [if_pos h, if_true]
    rw [loop_eq rfl rfl]
    have hfd : 0 ≤ calls.socket := Int.not_lt.mp (ok_iff.mp h).1
    rw [← answer_demoNames fd hfd]
    rfl
  · simp only [if_neg h]
    rfl

theorem arrived_polled :
    (polled queue rounds).1 ++ (polled queue rounds).2 =
      queue ++ rounds.flatMap Round.arrived := by
  have hkept := Polling.takenFrom_append_passes
    (rounds.map fun (r : Round) (_ : Unit) => r.arrived) (fun _ => queue)
    (List.nodup_singleton ()) List.mem_cons_self
  rwa [Polling.arrivedAt, List.flatMap_map] at hkept

theorem prompt_polled {before after : List Round}
    (hle : (polled queue before).2.length ≤ after.length) :
    queue ++ before.flatMap Round.arrived <+:
      (polled queue (before ++ after)).1 := by
  have hprompt := Polling.arrivedAt_prefix_takenFrom
    (before.map fun (r : Round) (_ : Unit) => r.arrived)
    (after.map fun r _ => r.arrived) (fun _ => queue)
    (List.nodup_singleton ()) List.mem_cons_self (by rwa [List.length_map])
  rwa [Polling.arrivedAt, List.flatMap_map, ← List.map_append] at hprompt

/-- What it is given to log of a request -/
def DemoLogs (p : Packet) : Prop :=
  p.payload ≠ [] → Printable (requestText p.text (demoAddress p.text) p.src)

instance (x : Packet) : Decidable (DemoLogs x) := inferInstanceAs (Decidable (_ → _))

/-- `Start` with its lines, from the constructor on -/
theorem does_start (fd : Int) (queue : List Packet) (closed : Bool) (signal : Signal)
    (stderr : FilePtr) (calls : ListenCalls) (first : Round) (rounds : List Round) :
    Does (startWithLog ⟨new fd, queue, closed, signal⟩ stderr calls first rounds)
      (calls.ok → ∀ x ∈ (polled [] (made (first :: rounds))).1, DemoLogs x)
      (start ⟨new fd, queue, closed, signal⟩ calls first rounds).sent
      (start ⟨new fd, queue, closed, signal⟩ calls first rounds).outcome := by
  rw [start, startWithLog]
  simp only [beginListening_eq]
  by_cases h : calls.ok
  · simp only [if_pos h, if_true]
    refine (does_loop _ stderr first rounds).congr ?_
    rw [logsLoop_iff rfl rfl, forall_prop_of_true h]
    refine forall₂_congr fun x _ => ?_
    rw [DemoLogs, ← get_demoNames fd x.text]
    rfl
  · simp only [if_neg h]
    exact (does_pure _).congr (iff_of_true trivial fun hok => absurd hok h)

/-- A name server that could not open its listener does nothing, and one that
did answers what comes to it: in order, each request once, and as soon as the
passes come to it, until it takes a request whose line it cannot write; a client
reads the address of the name's rendezvous server from the reply, or nothing. -/
theorem start_serves (fd : Int) (queue : List Packet) (closed : Bool)
    (signal : Signal) (stderr : FilePtr) (calls : ListenCalls) (first : Round)
    (rounds : List Round) :
    let served := startWithLog ⟨new fd, queue, closed, signal⟩ stderr calls first rounds
    let passes := made (first :: rounds)
    let taken := (polled [] passes).1
    (¬ calls.ok → served = ⟨[], .ok .aborted⟩) ∧
    (calls.ok → ∃ outcome, Does served (∀ p ∈ taken, DemoLogs p)
      (taken.flatMap (demoAnswer calls.socket)) outcome) ∧
    (∀ p server, readReply ⟨server, demoReply p⟩ = demoAddress p.text) ∧
    taken ++ (polled [] passes).2 = passes.flatMap Round.arrived ∧
    ∀ before after, passes = before ++ after →
      (polled [] before).2.length ≤ after.length →
      before.flatMap Round.arrived <+: taken := by
  intro served passes taken
  have hdoes := does_start fd queue closed signal stderr calls first rounds
  refine ⟨?_, ?_, readReply_demoReply, arrived_polled, ?_⟩
  · intro h
    rw [start_eq, if_neg h] at hdoes
    exact hdoes.eq fun hok => absurd hok h
  · intro h
    rw [start_eq, if_pos h] at hdoes
    exact ⟨_, hdoes.congr (forall_prop_of_true h)⟩
  · intro before after hpasses hle
    have hprompt := prompt_polled hle
    rwa [← hpasses] at hprompt

/-- What comes first decides how a name server ends that has opened its listener and
can log what it takes: it is told to exit, after a receive that did not fail, and
returns; or its receive fails, on an error or on a listener that a `ShutDown` has
closed, and the assertion ends the process. It is its log that ends it otherwise. -/
theorem stops_cleanly_iff (fd : Int) (queue : List Packet) (closed : Bool)
    (signal : Signal) (stderr : FilePtr) (calls : ListenCalls) (first : Round)
    (rounds : List Round) :
    let served := startWithLog ⟨new fd, queue, closed, signal⟩ stderr calls first rounds
    (¬ calls.ok → served.result = .ok .aborted) ∧
    (calls.ok →
      (served.Returns ↔ ∀ p ∈ (polled [] (made (first :: rounds))).1, DemoLogs p)) ∧
    (calls.ok → served.Returns → (∀ x ∈ first :: rounds, x.Quiet) →
      served.result = .ok .running) ∧
    ∀ pre r post, calls.ok → served.Returns → first :: rounds = pre ++ r :: post →
      (∀ x ∈ pre, x.Quiet) → ¬ r.Quiet →
      (served.result = .ok (.returned true) ↔ r.Receives ∧ r.Exits) ∧
      (served.result = .ok .aborted ↔ ¬ r.Receives ∨ ¬ r.Exits ∧ post ≠ []) := by
  intro served
  have hdoes := does_start fd queue closed signal stderr calls first rounds
  have hresult (hok : calls.ok) (hreturns : served.Returns) :
      served.result = .ok (ending (first :: rounds)) := by
    rw [start_eq, if_pos hok] at hdoes
    exact congrArg Outcome.result (hdoes.whole hreturns)
  refine ⟨?_, ?_, ?_, ?_⟩
  · intro hfailed
    rw [start_eq, if_neg hfailed] at hdoes
    exact congrArg Outcome.result (hdoes.eq fun hok => absurd hok hfailed)
  · intro hok
    exact hdoes.returns.trans (forall_prop_of_true hok)
  · intro hok hreturns hquiet
    rw [hresult hok hreturns, ending_of_quiet hquiet]
  · intro pre r post hok hreturns hsplit hpre hr
    rw [hresult hok hreturns, hsplit, ending_append _ hpre]
    simp only [Except.ok.injEq]
    exact ending_of_loud hr

end SimpleDNS.Process

end PermanentIP

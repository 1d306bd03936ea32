import PermanentIP.System.Followers

/-!
# More than one rendezvous server

A node registers with the server it was given, and looks its peer up at the one
the name service gives for the peer. `UpdateAddress` finds where a subscriber is
in the server's own registry, "for now" on the assumption that all share one
server. Here they need not: any number of servers, each of which handles what
comes in; and any number of followers, each with a server it registers with,
`home`, and one at which it is subscribed to its peer, `asked`.

Between one follower and its own server the others are so much other traffic, so
what is between the two is a run of `Followers` with that follower alone
(`seen_step`). A follower whose own server was asked hears of its peer's moves
as it would if there were no other. One that asked elsewhere is subscribed there
and never heard of there: each push to it goes to 0.0.0.0, and it keeps the
address it was first given (`told_by_own_server`).
-/

namespace PermanentIP

open Lib SimpleMobileNode SimpleRendezvousServer

namespace ManyServers

/-- The servers' addresses, and the followers as in `Followers`, each with its own
server and the one it asked for its peer. -/
structure Config (κ ι : Type*) where
  server : κ → PhysicalAddress
  name : ι → LogicalAddress
  port : ι → UInt16
  peer : ι → LogicalAddress
  ptr : ι → Ptr
  home : ι → κ
  asked : ι → κ
  owner : UInt32 → Option ι
  owner_zero : owner 0 = none
  distinct : ∀ j k, ipStringToInt (server j) = ipStringToInt (server k) → j = k

/-- One device, where it is, and what each server sends to its app socket. -/
structure Node (κ : Type*) where
  device : Device
  ip : UInt32
  pushes : κ → Channel Sent

structure State (κ ι : Type*) where
  server : κ → SimpleRendezvousServer
  log : κ → List Event
  node : ι → Node κ

inductive Action (κ ι : Type*) where
  | handle (k : κ) (e : Event)
  | move (c : ι) (ip : UInt32)
  | arrive (c : ι) (k : κ) (port : UInt16)
  | lose (c : ι) (k : κ)
  | message (c : ι) (p : Packet)
  | poll (c : ι) (serverSize : Int → Int32) (server : SockAddr)
  | print (c : ι)
  | send (c : ι) (message : NetworkMsg)

variable {κ ι : Type*}

def Config.subscriber (cfg : Config κ ι) (c : ι) : Subscriber :=
  ⟨cfg.name c, cfg.port c⟩

/-- A datagram from a server as the app socket gets it. -/
def Config.update (cfg : Config κ ι) (k : κ) (port : UInt16) (d : Sent) : Packet :=
  ⟨⟨netV4, port, (ipStringToInt (cfg.server k)).toUInt32⟩, d.payload⟩

def Node.receive (n : Node κ) (p : Packet) : Node κ :=
  { n with device := { n.device with
      socket := { n.device.socket with queue := n.device.socket.queue ++ [p] } } }

/-- What the follower has of one server. -/
def Node.toward (n : Node κ) (k : κ) : Followers.Follower :=
  ⟨n.device, n.ip, n.pushes k⟩

section Step

variable [DecidableEq ι] [DecidableEq κ]

/-- A datagram of a server's that is for the follower's app socket. -/
def Config.bound (cfg : Config κ ι) (c : ι) (addr : SockAddr) : Bool :=
  cfg.owner addr.sinAddr = some c && addr.sinPort == cfg.port c

def State.set (s : State κ ι) (c : ι) (n : Node κ) : State κ ι :=
  { s with node := Function.update s.node c n }

def Node.set (n : Node κ) (k : κ) (pushes : Channel Sent) : Node κ :=
  { n with pushes := Function.update n.pushes k pushes }

def step (cfg : Config κ ι) (s : State κ ι) : Action κ ι → Option (State κ ι)
  | .handle k e =>
      some
        { server := Function.update s.server k ((s.server k).next e)
          log := Function.update s.log k (s.log k ++ [e])
          node := fun c =>
            let n := s.node c
            let sent := ((s.server k).receive e).sent.filter (cfg.bound c ·.dst)
            n.set k ((n.pushes k).send sent) }
  | .move c ip =>
      if cfg.owner ip = some c then some (s.set c { s.node c with ip := ip })
      else none
  | .arrive c k port =>
      let n := s.node c
      match (n.pushes k).flight with
      | [] => none
      | d :: _ =>
          if d.dst.sinAddr = n.ip then
            some (s.set c ((n.receive (cfg.update k port d)).set k
              (n.pushes k).deliver))
          else some (s.set c (n.set k (n.pushes k).lose))
  | .lose c k =>
      let n := s.node c
      match (n.pushes k).flight with
      | [] => none
      | _ :: _ => some (s.set c (n.set k (n.pushes k).lose))
  | .message c p =>
      if Device.fromServer (cfg.server (cfg.home c)) p then none
      else some (s.set c ((s.node c).receive p))
  | .poll c serverSize server =>
      let n := s.node c
      let st := n.device.poll (cfg.ptr c) serverSize server
      some (s.set c { n with device :=
        { app := { n.device.app with mobileNode := st.node }
          socket := st.sockets n.device.app.appSocket } })
  | .print c =>
      let n := s.node c
      let r := n.device.app.printReceivedData n.device.socket
      some (s.set c { n with device := ⟨r.app, r.socket⟩ })
  | .send c message =>
      let n := s.node c
      some (s.set c { n with device := { n.device with
        app := (n.device.app.sendMessage message none).2.2 } })

/-- What the others keep to, as in `Followers`; and a follower registers with its
own server only, as its daemon does. -/
def Assumed (cfg : Config κ ι) (s : State κ ι) : Action κ ι → Prop
  | .handle k e =>
      (∀ r ∈ e.registers?, 0 ≤ e.updateSocket ∧
        ∀ c, (cfg.owner r.2 = some c ↔ r.1 = cfg.name c) ∧
          (r.1 = cfg.name c → k = cfg.home c)) ∧
      ∀ c, cfg.bound c e.packet.src = false ∧
        ∀ r ∈ e.lookup?, r.1 ≠ cfg.subscriber c
  | .poll c serverSize server =>
      Device.FillsAddress (s.node c).device (.poll serverSize server)
  | .move .. | .arrive .. | .lose .. | .message .. | .print _ | .send .. => True

/-- The servers and the followers' processes can write the lines they have to. -/
def Logs (cfg : Config κ ι) (s : State κ ι) : Action κ ι → Prop
  | .handle k e => (s.server k).LogsEvent e
  | .poll c serverSize server =>
      (s.node c).device.Logs (cfg.ptr c) (.poll serverSize server)
  | .print c => (s.node c).device.Logs (cfg.ptr c) .printReceivedData
  | .send c message => (s.node c).device.Logs (cfg.ptr c) (.sendMessage message)
  | .move .. | .arrive .. | .lose .. | .message .. => True

/-- The others keep to it, and the servers and the followers live. -/
def Expected (cfg : Config κ ι) (s : State κ ι) (a : Action κ ι) : Prop :=
  Assumed cfg s a ∧ Logs cfg s a

end Step

/-- The address that the follower's messages go to. -/
def State.location (s : State κ ι) (c : ι) : Option UInt32 :=
  ((s.node c).device.app.destination none).map SockAddr.sinAddr

/-- Each follower is registered with its own server and no other, subscribed to
its peer where it asked and nowhere else, and has the peer's address, `b`; nothing
is under way to it. -/
structure Initial (cfg : Config κ ι) (b : ι → UInt32) (rl ll : κ → Int)
    (s : State κ ι) : Prop where
  server : ∀ k, s.server k = (new (rl k) (ll k)).run (s.log k)
  subscribed : ∀ k c n, cfg.subscriber c ∈ (s.server k).subscribers n ↔
    k = cfg.asked c ∧ n = cfg.peer c
  owned : ∀ k n a, lastRegistration n (s.log k) = some a →
    ∀ c, cfg.owner a = some c ↔ n = cfg.name c
  registered : ∀ k c, (lastRegistration (cfg.name c) (s.log k)).isSome ↔ k = cfg.home c
  located : ∀ c, lastRegistration (cfg.peer c) (s.log (cfg.asked c)) = some (b c)
  peer : ∀ c, Device.AtLastUpdate (cfg.server (cfg.home c)) (cfg.ptr c) (b c) []
    (s.node c).device
  pushes : ∀ c k, (s.node c).pushes k = .empty

variable {cfg : Config κ ι} {b : ι → UInt32} {rl ll : κ → Int}
  {s t u : State κ ι} {a : Action κ ι} {acts : List (Action κ ι)}
  {c d : ι} {k : κ} {n : Node κ} {e : Event}

/-! ## One follower and its own server -/

/-- What comes from another server is not from the follower's own. -/
theorem not_fromServer_update (h : k ≠ cfg.home c) (port : UInt16) (x : Sent) :
    Device.fromServer (cfg.server (cfg.home c)) (cfg.update k port x) = false := by
  refine decide_eq_false fun heq => h (cfg.distinct k (cfg.home c) ?_)
  exact congrArg Int32.ofUInt32 heq

section Other

variable [DecidableEq κ]

theorem toward_set_self (p : Channel Sent) :
    (n.set k p).toward k = { n.toward k with pushes := p } := by
  simp only [Node.toward, Node.set, Function.update_self]

theorem toward_set_ne {j : κ} (h : j ≠ k) (p : Channel Sent) :
    (n.set k p).toward j = n.toward j := by
  simp only [Node.toward, Node.set, Function.update_of_ne h]

end Other

variable [DecidableEq ι]

/-- The system of the follower and its own server. -/
def Config.alone (cfg : Config κ ι) (c : ι) : Followers.Config Unit where
  name _ := cfg.name c
  port _ := cfg.port c
  peer _ := cfg.peer c
  ptr _ := cfg.ptr c
  owner ip := if cfg.owner ip = some c then some () else none
  rendezvousServer := cfg.server (cfg.home c)
  owner_zero := by simp [cfg.owner_zero]

def State.seen (cfg : Config κ ι) (c : ι) (s : State κ ι) : Followers.State Unit where
  server := s.server (cfg.home c)
  log := s.log (cfg.home c)
  follower _ := (s.node c).toward (cfg.home c)

theorem owner_alone_iff {ip : UInt32} {x : Unit} :
    (cfg.alone c).owner ip = some x ↔ cfg.owner ip = some c := by
  simp [Config.alone]

theorem bound_alone (x : Unit) (addr : SockAddr) :
    (cfg.alone c).bound x addr = cfg.bound c addr := by
  rw [Followers.Config.bound, Config.bound]
  refine congrArg (· && _) (decide_eq_decide.mpr ?_)
  exact owner_alone_iff

theorem set_alone (s : Followers.State Unit) (f : Followers.Follower) :
    s.set () f = { s with follower := fun _ => f } := by
  rw [Followers.State.set]
  exact congrArg _ (funext fun _ => Function.update_self ..)

theorem seen_set_self : (s.set c n).seen cfg c =
    (s.seen cfg c).set () (n.toward (cfg.home c)) := by
  rw [set_alone]
  simp only [State.seen, State.set, Function.update_self]

theorem seen_set_ne (h : c ≠ d) : (s.set d n).seen cfg c = s.seen cfg c := by
  simp only [State.seen, State.set, Function.update_of_ne h]

theorem alone_arrive {x : Sent} {rest : List Sent}
    (hflight : ((s.node c).pushes (cfg.home c)).flight = x :: rest) (port : UInt16) :
    Followers.step (cfg.alone c) (s.seen cfg c) (.arrive () port) =
      if x.dst.sinAddr = (s.node c).ip then
        some ((s.seen cfg c).set () { (((s.seen cfg c).follower ()).receive
          ((cfg.alone c).update port x)) with
            pushes := ((s.node c).pushes (cfg.home c)).deliver })
      else some ((s.seen cfg c).set () { (s.seen cfg c).follower () with
        pushes := ((s.node c).pushes (cfg.home c)).lose }) := by
  have hseen : ((s.seen cfg c).follower ()).pushes.flight = x :: rest := hflight
  rw [Followers.step]
  simp only [hseen]
  rfl

theorem alone_lose {x : Sent} {rest : List Sent}
    (hflight : ((s.node c).pushes (cfg.home c)).flight = x :: rest) :
    Followers.step (cfg.alone c) (s.seen cfg c) (.lose ()) =
      some ((s.seen cfg c).set () { (s.seen cfg c).follower () with
        pushes := ((s.node c).pushes (cfg.home c)).lose }) := by
  have hseen : ((s.seen cfg c).follower ()).pushes.flight = x :: rest := hflight
  rw [Followers.step]
  simp only [hseen]
  rfl

/-- A step of one device is nothing to another follower. -/
theorem seen_set (bs : List (Followers.Action Unit)) (c : ι)
    (hself : c = d → Run (Followers.step (cfg.alone c))
      (Followers.Assumed (cfg.alone c)) (s.seen cfg c) bs
      ((s.seen cfg c).set () (n.toward (cfg.home c))))
    (hmoves : (cfg.alone c).moves () bs = []) :
    ∃ bs, Run (Followers.step (cfg.alone c)) (Followers.Assumed (cfg.alone c))
        (s.seen cfg c) bs ((s.set d n).seen cfg c) ∧
      (cfg.alone c).moves () bs = [] := by
  rcases eq_or_ne c d with rfl | hne
  · refine ⟨bs, ?_, hmoves⟩
    rw [seen_set_self]
    exact hself rfl
  · refine ⟨[], ?_, rfl⟩
    rw [seen_set_ne hne]
    exact .nil

/-! ## A follower its own server does not tell -/

/-- Its own server has no subscription of the follower's, and sends it nothing. -/
structure Untold (cfg : Followers.Config Unit) (b : UInt32) (rl ll : Int)
    (s : Followers.State Unit) : Prop extends Followers.Known cfg rl ll s where
  unsubscribed : ∀ n, cfg.subscriber () ∉ s.server.subscribers n
  silent : ∀ c, (s.follower c).pushes.sent = []
  follower : ∀ c, Followers.FollowerInv cfg (fun _ => b) c (s.follower c)

section Untold

variable {cfg : Followers.Config Unit} {b : UInt32} {rl ll : Int}
  {s u : Followers.State Unit} {a : Followers.Action Unit}

theorem Untold.location (h : Untold cfg b rl ll s) : s.location () = some b := by
  have hsub := (h.follower ()).applied_sublist
  rw [h.silent, List.map_nil, List.sublist_nil] at hsub
  have hdestination := (h.follower ()).destination
  rwa [hsub] at hdestination

theorem Untold.handle (h : Untold cfg b rl ll s)
    (he : Followers.Assumed cfg s (.handle e))
    (hs : Followers.step cfg s (.handle e) = some u) : Untold cfg b rl ll u := by
  have hknown := h.toKnown.handle he hs
  injection hs with hs
  subst hs
  obtain ⟨hregisters, hquiet⟩ := he
  have hnone : (s.server.receive e).sent.filter (cfg.bound () ·.dst) = [] := by
    rcases hr : e.registers? with _ | ⟨n, x⟩
    · exact Followers.sent_of_other hr (hquiet ()).1
    · have hsent := Followers.sent_of_registration rl ll hr
        (hknown.registered ()) hknown.owned (hregisters _ hr).1 (hquiet ()).1
      rw [← h.server, if_neg (h.unsubscribed n), List.map_eq_nil_iff] at hsent
      exact hsent
  refine ⟨hknown, fun n hmem => ?_, fun _ => ?_, fun c =>
    ⟨?_, (h.follower c).ordered.send _⟩⟩
  · refine h.unsubscribed n ((mem_subscribers_next ?_).mp hmem)
    exact fun m hm => (hquiet ()).2 _ hm rfl
  · show (s.follower ()).pushes.sent ++ _ = []
    rw [h.silent, hnone, List.append_nil]
  · exact (h.follower c).device

theorem Untold.step (h : Untold cfg b rl ll s) (he : Followers.Assumed cfg s a)
    (hs : Followers.step cfg s a = some u) : Untold cfg b rl ll u := by
  rcases Followers.step_cases h.follower he hs with ⟨e, rfl⟩ | ⟨_, d, f, rfl, hf⟩
  · exact h.handle he hs
  · rw [set_alone]
    refine ⟨⟨h.server, h.owned, h.registered⟩, h.unsubscribed, fun _ => ?_, fun _ => ?_⟩
    · exact hf.sent.trans (h.silent d)
    · exact hf.inv

end Untold

theorem Initial.untold (h : Initial cfg b rl ll s) (hhome : cfg.home c ≠ cfg.asked c) :
    Untold (cfg.alone c) (b c) (rl (cfg.home c)) (ll (cfg.home c)) (s.seen cfg c) where
  server := h.server (cfg.home c)
  owned n a hl _ := owner_alone_iff.trans (h.owned (cfg.home c) n a hl c)
  registered _ := (h.registered (cfg.home c) c).mpr rfl
  unsubscribed n hmem := hhome ((h.subscribed (cfg.home c) c n).mp hmem).1
  silent _ := congrArg Channel.sent (h.pushes c (cfg.home c))
  follower _ := by
    have hempty : ((s.node c).toward (cfg.home c)).pushes = .empty :=
      h.pushes c (cfg.home c)
    refine ⟨⟨[], h.peer c, ?_⟩, ?_⟩
    · exact (congrArg (·.received.map TwoNodes.address) hempty).symm
    · show Channel.Ordered ((s.node c).toward (cfg.home c)).pushes
      rw [hempty]
      exact Channel.ordered_empty

/-! ## Every server's run -/

/-- To a follower that asked its own server this is how `Followers` begins. -/
theorem Initial.alone (h : Initial cfg b rl ll s) (hhome : cfg.home c = cfg.asked c) :
    Followers.Initial (cfg.alone c) (fun _ => b c) (rl (cfg.home c)) (ll (cfg.home c))
      (s.seen cfg c) where
  server := h.server (cfg.home c)
  subscribed _ n := (h.subscribed (cfg.home c) c n).trans (and_iff_right hhome)
  owned n a hl _ := owner_alone_iff.trans (h.owned (cfg.home c) n a hl c)
  registered _ := (h.registered (cfg.home c) c).mpr rfl
  located _ := by
    have hlocated := h.located c
    rwa [← hhome] at hlocated
  peer _ := h.peer c
  pushes _ := h.pushes c (cfg.home c)

variable [DecidableEq κ]

/-- Where the follower's peer registered from, at the follower's own server. -/
def Config.moved (cfg : Config κ ι) (c : ι) : Action κ ι → Option UInt32
  | .handle k e => if k = cfg.home c then (cfg.alone c).moved () e else none
  | .move .. | .arrive .. | .lose .. | .message .. | .poll .. | .print _
  | .send .. => none

/-- The moves of the follower's peer that the follower's own server has handled. -/
def Config.moves (cfg : Config κ ι) (c : ι) (acts : List (Action κ ι)) :
    List UInt32 := acts.filterMap (cfg.moved c)

/-- What another server's channel does leaves the follower as its own server has
it. -/
theorem seen_other (hk : k ≠ cfg.home c) (p : Channel Sent) :
    Run (Followers.step (cfg.alone c)) (Followers.Assumed (cfg.alone c))
      (s.seen cfg c) [] ((s.seen cfg c).set ()
        (((s.node c).set k p).toward (cfg.home c))) := by
  rw [toward_set_ne (Ne.symm hk), set_alone]
  exact .nil

/-- Every step is, to one follower and its server, a step of theirs or none. -/
theorem seen_step (he : Assumed cfg s a) (hs : step cfg s a = some u) (c : ι) :
    ∃ bs, Run (Followers.step (cfg.alone c)) (Followers.Assumed (cfg.alone c))
        (s.seen cfg c) bs (u.seen cfg c) ∧
      (cfg.alone c).moves () bs = (cfg.moved c a).toList := by
  cases a with
  | handle k e =>
      injection hs with hs
      subst hs
      by_cases hk : k = cfg.home c
      · subst hk
        refine ⟨[.handle e], .cons ⟨fun r hr => ⟨(he.1 r hr).1, fun _ => ?_⟩,
          fun _ => ⟨?_, (he.2 c).2⟩⟩ (congrArg some ?_) .nil, ?_⟩
        · exact owner_alone_iff.trans ((he.1 r hr).2 c).1
        · rw [bound_alone]
          exact (he.2 c).1
        · simp only [State.seen, toward_set_self, Function.update_self, bound_alone]
          rfl
        · rw [Config.moved, if_pos rfl]
          exact Followers.moves_handle () e
      · refine ⟨[], ?_, ?_⟩
        · simp only [State.seen, toward_set_ne (Ne.symm hk),
            Function.update_of_ne (Ne.symm hk)]
          exact .nil
        · rw [Config.moved, if_neg hk]
          rfl
  | move d ip =>
      rw [step] at hs
      split at hs
      · next howner =>
          cases hs
          refine seen_set [.move () ip] c (fun hc => ?_) rfl
          subst hc
          exact .cons trivial (if_pos (owner_alone_iff.mpr howner)) .nil
      · cases hs
  | arrive d k port =>
      rw [step] at hs
      split at hs
      · cases hs
      · next x rest hflight =>
          split at hs
          · next hip =>
              cases hs
              by_cases hk : k = cfg.home c
              · refine seen_set [.arrive () port] c (fun hc => ?_) rfl
                subst hc hk
                rw [toward_set_self]
                exact .cons trivial
                  ((alone_arrive hflight port).trans (if_pos hip)) .nil
              · -- to the follower and its server this is one more message
                refine seen_set [.message () (cfg.update k port x)] c (fun hc => ?_) rfl
                subst hc
                rw [toward_set_ne (Ne.symm hk)]
                refine .cons trivial (if_neg ?_) .nil
                rw [Bool.not_eq_true]
                exact not_fromServer_update hk port x
          · next hip =>
              cases hs
              by_cases hk : k = cfg.home c
              · refine seen_set [.arrive () port] c (fun hc => ?_) rfl
                subst hc hk
                rw [toward_set_self]
                exact .cons trivial
                  ((alone_arrive hflight port).trans (if_neg hip)) .nil
              · exact seen_set [] c (fun hc => hc ▸ seen_other hk _) rfl
  | lose d k =>
      rw [step] at hs
      split at hs
      · cases hs
      · next x rest hflight =>
          cases hs
          by_cases hk : k = cfg.home c
          · refine seen_set [.lose ()] c (fun hc => ?_) rfl
            subst hc hk
            rw [toward_set_self]
            exact .cons trivial (alone_lose hflight) .nil
          · exact seen_set [] c (fun hc => hc ▸ seen_other hk _) rfl
  | message d p =>
      rw [step] at hs
      split at hs
      · cases hs
      · next hp =>
          cases hs
          refine seen_set [.message () p] c (fun hc => ?_) rfl
          subst hc
          exact .cons trivial (if_neg hp) .nil
  | poll d serverSize server =>
      cases hs
      refine seen_set [.poll () serverSize server] c (fun hc => ?_) rfl
      subst hc
      exact .cons he rfl .nil
  | print d =>
      cases hs
      refine seen_set [.print ()] c (fun hc => ?_) rfl
      subst hc
      exact .cons trivial rfl .nil
  | send d m =>
      cases hs
      refine seen_set [.send () m] c (fun hc => ?_) rfl
      subst hc
      exact .cons trivial rfl .nil

theorem seen_run (hrun : Run (step cfg) (Assumed cfg) s acts t) (c : ι) :
    ∃ bs, Run (Followers.step (cfg.alone c)) (Followers.Assumed (cfg.alone c))
        (s.seen cfg c) bs (t.seen cfg c) ∧
      (cfg.alone c).moves () bs = cfg.moves c acts :=
  hrun.simulate (State.seen cfg c) (cfg.moved c) _ fun _ _ _ hg hs => seen_step hg hs c

/-! ## A follower that asked its own server -/

theorem moves_append (more : List (Action κ ι)) :
    cfg.moves c (acts ++ more) = cfg.moves c acts ++ cfg.moves c more :=
  List.filterMap_append

theorem heard (h : Initial cfg b rl ll s)
    (hrun : Run (step cfg) (Assumed cfg) s acts t) (hhome : cfg.home c = cfg.asked c) :
    ∃ heard : List UInt32, heard.Sublist (cfg.moves c acts) ∧
      t.location c = some (heard.getLastD (b c)) ∧
      ∀ more v, Run (step cfg) (Assumed cfg) t more v →
        ∃ later : List UInt32, (heard ++ later).Sublist (cfg.moves c (acts ++ more)) ∧
          v.location c = some ((heard ++ later).getLastD (b c)) := by
  obtain ⟨bs, hbs, hmoves⟩ := seen_run hrun c
  obtain ⟨hi, _⟩ := Followers.inv_run (h.alone hhome).inv hbs
  obtain ⟨heard, hsub, hlocation, hlater⟩ := hi.heard ()
  rw [List.nil_append, hmoves] at hsub
  refine ⟨heard, hsub, hlocation, fun more v hmore => ?_⟩
  obtain ⟨bs', hbs', hmoves'⟩ := seen_run hmore c
  obtain ⟨later, hsub', hlocation'⟩ := hlater bs' _ hbs'
  rw [List.nil_append, Followers.moves_append, hmoves, hmoves', ← moves_append] at hsub'
  exact ⟨later, hsub', hlocation'⟩

/-! ## A follower that asked another -/

/-- The server it asked has its subscription, and does not know where it is. -/
structure Elsewhere (cfg : Config κ ι) (c : ι) (rl ll : κ → Int) (s : State κ ι) :
    Prop where
  server : s.server (cfg.asked c) =
    (new (rl (cfg.asked c)) (ll (cfg.asked c))).run (s.log (cfg.asked c))
  subscribed : cfg.subscriber c ∈ (s.server (cfg.asked c)).subscribers (cfg.peer c)
  unknown : lastRegistration (cfg.name c) (s.log (cfg.asked c)) = none

omit [DecidableEq ι] [DecidableEq κ] in
theorem Initial.elsewhere (h : Initial cfg b rl ll s)
    (hhome : cfg.home c ≠ cfg.asked c) : Elsewhere cfg c rl ll s where
  server := h.server (cfg.asked c)
  subscribed := (h.subscribed (cfg.asked c) c (cfg.peer c)).mpr ⟨rfl, rfl⟩
  unknown := by
    rw [← Option.not_isSome_iff_eq_none, h.registered]
    exact Ne.symm hhome

omit [DecidableEq κ] in
theorem lastRegistration_of_assumed {log : List Event}
    (he : Assumed cfg s (.handle (cfg.asked c) e)) (hhome : cfg.home c ≠ cfg.asked c) :
    lastRegistration (cfg.name c) (log ++ [e]) = lastRegistration (cfg.name c) log := by
  rw [Followers.lastRegistration_snoc]
  rcases hr : e.registers? with _ | ⟨n, x⟩
  · rfl
  · have hname : n ≠ cfg.name c := fun hn =>
      hhome (((he.1 _ hr).2 c).2 hn).symm
    rw [Option.filter_some_neg (by simpa using hname)]
    rfl

theorem step_cases (hs : step cfg s a = some u) :
    (∃ k e, a = .handle k e) ∨ ∃ d n, u = s.set d n := by
  cases a with
  | handle k e => exact Or.inl ⟨k, e, rfl⟩
  | move d ip =>
      rw [step] at hs
      split at hs
      · cases hs
        exact Or.inr ⟨d, _, rfl⟩
      · cases hs
  | arrive d k port =>
      rw [step] at hs
      split at hs
      · cases hs
      · split at hs
        · cases hs
          exact Or.inr ⟨d, _, rfl⟩
        · cases hs
          exact Or.inr ⟨d, _, rfl⟩
  | lose d k =>
      rw [step] at hs
      split at hs
      · cases hs
      · cases hs
        exact Or.inr ⟨d, _, rfl⟩
  | message d p =>
      rw [step] at hs
      split at hs
      · cases hs
      · cases hs
        exact Or.inr ⟨d, _, rfl⟩
  | poll d serverSize server =>
      cases hs
      exact Or.inr ⟨d, _, rfl⟩
  | print d =>
      cases hs
      exact Or.inr ⟨d, _, rfl⟩
  | send d m =>
      cases hs
      exact Or.inr ⟨d, _, rfl⟩

theorem Elsewhere.step (h : Elsewhere cfg c rl ll s) (hhome : cfg.home c ≠ cfg.asked c)
    (he : Assumed cfg s a) (hs : ManyServers.step cfg s a = some u) :
    Elsewhere cfg c rl ll u := by
  rcases step_cases hs with ⟨k, e, rfl⟩ | ⟨d, n, rfl⟩
  · injection hs with hs
    subst hs
    by_cases hk : k = cfg.asked c
    · subst hk
      refine ⟨?_, ?_, ?_⟩
      · simp only [Function.update_self]
        rw [run_snoc, ← h.server]
      · simp only [Function.update_self]
        refine (mem_subscribers_next fun m hm => ?_).mpr h.subscribed
        exact (he.2 c).2 _ hm rfl
      · simp only [Function.update_self]
        exact (lastRegistration_of_assumed he hhome).trans h.unknown
    · have hne : cfg.asked c ≠ k := Ne.symm hk
      refine ⟨?_, ?_, ?_⟩
      · simp only [Function.update_of_ne hne]
        exact h.server
      · simp only [Function.update_of_ne hne]
        exact h.subscribed
      · simp only [Function.update_of_ne hne]
        exact h.unknown
  · exact ⟨h.server, h.subscribed, h.unknown⟩

omit [DecidableEq κ] in
/-- What the server it asked sends it of its peer's next move goes to no address. -/
theorem Elsewhere.push (h : Elsewhere cfg c rl ll s) (hhome : cfg.home c ≠ cfg.asked c)
    (he : Assumed cfg s (.handle (cfg.asked c) e)) {x : UInt32}
    (hr : e.registers? = some (cfg.peer c, x)) :
    ∃ m ∈ ((s.server (cfg.asked c)).receive e).sent, TwoNodes.address m = x ∧
      m.dst.sinPort = cfg.port c ∧ m.dst.sinAddr = 0 := by
  obtain ⟨reply, hsent, _⟩ := receive_sent (s.server (cfg.asked c)) e
  rw [hsent, pushes_of_registers hr (he.1 _ hr).1]
  refine ⟨_, List.mem_append_left _ (List.mem_map.mpr ⟨_, h.subscribed, rfl⟩),
    Followers.address_push _ _ x, rfl, ?_⟩
  rw [h.server, ← run_snoc, Followers.sinAddr_pushAddr]
  show (lastRegistration (cfg.name c) _).getD 0 = 0
  rw [lastRegistration_of_assumed he hhome, h.unknown]
  rfl

/-- In any run of any number of servers: a follower that asked its own server is
where `Followers` has it, at the last of its peer's moves that it has heard of, and
what it hears of later are moves after those. One that asked another is subscribed
there, and each of its peer's moves is pushed to it at 0.0.0.0; wherever its peer
goes, it keeps the address it was first given. -/
theorem told_by_own_server (h : Initial cfg b rl ll s)
    (hrun : Run (step cfg) (Expected cfg) s acts t) (c : ι) :
    (cfg.home c = cfg.asked c →
      ∃ heard : List UInt32, heard.Sublist (cfg.moves c acts) ∧
        t.location c = some (heard.getLastD (b c)) ∧
        ∀ more v, Run (step cfg) (Expected cfg) t more v →
          ∃ later : List UInt32, (heard ++ later).Sublist (cfg.moves c (acts ++ more)) ∧
            v.location c = some ((heard ++ later).getLastD (b c))) ∧
    (cfg.home c ≠ cfg.asked c →
      t.location c = some (b c) ∧
      ∀ e x, Expected cfg t (.handle (cfg.asked c) e) →
        e.registers? = some (cfg.peer c, x) →
        ∃ m ∈ ((t.server (cfg.asked c)).receive e).sent, TwoNodes.address m = x ∧
          m.dst.sinPort = cfg.port c ∧ m.dst.sinAddr = 0) := by
  have hrun := hrun.mono fun _ _ he => he.1
  refine ⟨fun hhome => ?_, fun hhome => ⟨?_, fun e x he hr => ?_⟩⟩
  · obtain ⟨heard, hsub, hlocation, hlater⟩ := heard h hrun hhome
    exact ⟨heard, hsub, hlocation, fun more v hmore =>
      hlater more v (hmore.mono fun _ _ he => he.1)⟩
  · obtain ⟨bs, hbs, _⟩ := seen_run hrun c
    have huntold := hbs.invariant (h.untold hhome) fun _ _ _ hi hg hs => hi.step hg hs
    exact huntold.location
  · have helsewhere := hrun.invariant (h.elsewhere hhome)
      fun _ _ _ hi hg hs => hi.step hhome hg hs
    exact helsewhere.push hhome he.1 hr

instance (cfg : Config Bool Bool) (s : State Bool Bool) (a : Action Bool Bool) :
    Decidable (Assumed cfg s a) := by
  cases a <;> unfold Assumed <;> infer_instance

instance (cfg : Config Bool Bool) (s : State Bool Bool) (a : Action Bool Bool) :
    Decidable (Logs cfg s a) := by
  cases a <;> unfold Logs <;> infer_instance

instance (cfg : Config Bool Bool) (s : State Bool Bool) (a : Action Bool Bool) :
    Decidable (Expected cfg s a) :=
  inferInstanceAs (Decidable (_ ∧ _))

/-- "C" and "D" both ask the first of two servers for "N"; only "C" is registered
there. -/
def Config.sample : Config Bool Bool where
  server k := if k then ascii "5.6.7.8" else ascii "1.2.3.4"
  name c := if c then ascii "D" else ascii "C"
  port c := if c then 18 else 17
  peer _ := ascii "N"
  ptr _ := 0
  home c := c
  asked _ := false
  owner ip := if ip = 3 then some false else if ip = 4 then some true else none
  owner_zero := rfl
  distinct := by decide +kernel

def sampleLogs (k : Bool) : List Event :=
  if k then [.registration ⟨⟨netV4, 6, 4⟩, ascii "D"⟩ 5]
  else
    [.registration ⟨⟨netV4, 6, 9⟩, ascii "N"⟩ 5,
      .registration ⟨⟨netV4, 6, 3⟩, ascii "C"⟩ 5,
      .lookup ⟨⟨netV4, 17, 3⟩, lookupRequest (ascii "C") (ascii "N")⟩,
      .lookup ⟨⟨netV4, 18, 4⟩, lookupRequest (ascii "D") (ascii "N")⟩]

def sampleApp (c : Bool) : EchoApp :=
  { EchoApp.sample with
    logicalAddress := Config.sample.name c
    peerAddr := ascii "N"
    rendezvousServer := Config.sample.server c
    mobileNode := .new (Config.sample.name c) (ascii "1.2.3.9")
      (Config.sample.server c) 3 }

def State.sample : State Bool Bool where
  server k := (new 3 4).run (sampleLogs k)
  log := sampleLogs
  node c :=
    { device := ⟨((sampleApp c).registerPeer (ascii "1.2.3.4")
        (intToIPString (9 : UInt32).toInt32)).fillPeerContainer, ⟨[], none⟩⟩
      ip := if c then 4 else 3
      pushes _ := .empty }

theorem initial_sample :
    Initial .sample (fun _ => 9) (fun _ => 3) (fun _ => 4) .sample where
  server _ := rfl
  subscribed k c n := by
    by_cases hn : n ∈ (State.sample.server k).subscriptions
    · have hkeys : ∀ k c, ∀ n ∈ (State.sample.server k).subscriptions.keys,
          (Config.sample.subscriber c ∈ (State.sample.server k).subscribers n ↔
            k = Config.sample.asked c ∧ n = Config.sample.peer c) := by
        decide +kernel
      exact hkeys k c n (AList.mem_keys.mp hn)
    · rw [subscribers, UnorderedMap.get_of_notMem hn]
      constructor
      · intro hmem
        exact absurd hmem (OrdSet.not_mem_empty _)
      · rintro ⟨rfl, rfl⟩
        have hpeer : ∀ c, Config.sample.peer c ∈
            (State.sample.server (Config.sample.asked c)).subscriptions := by
          decide +kernel
        exact absurd (hpeer c) hn
  owned k n a h c := by
    obtain ⟨e, he, hr⟩ := exists_write_of_lastWrite h
    have hall : ∀ k, ∀ e ∈ sampleLogs k, ∀ r ∈ e.registers?, ∀ c,
        (Config.sample.owner r.2 = some c ↔ r.1 = Config.sample.name c) := by
      decide +kernel
    exact hall k e he _ hr c
  registered := by decide +kernel
  located := by decide +kernel
  peer c := by
    have hsame : (sampleApp c).mobileNode.rendezvousServer =
        (sampleApp c).rendezvousServer := rfl
    have hrs : ascii "1.2.3.4" ≠ [] := by decide
    exact Device.atLastUpdate_connected hsame hrs _ rfl
  pushes _ _ := rfl

/-- "N" moves, and both poll. -/
def sampleActions : List (Action Bool Bool) :=
  [.handle false (.registration ⟨⟨netV4, 6, 10⟩, ascii "N"⟩ 7), .arrive false false 6,
    .poll false (fun _ => 16) .zero, .poll true (fun _ => 16) .zero]

/-- "C" is where it has heard of, and "D" where it was. -/
theorem told_by_own_server_example : ∃ t,
    exec (step .sample) (Expected .sample) .sample sampleActions = some t ∧
    (∃ heard : List UInt32, heard.Sublist (Config.sample.moves false sampleActions) ∧
      t.location false = some (heard.getLastD 9)) ∧
    t.location true = some 9 := by
  have hsome : (exec (step .sample) (Expected .sample) .sample
      sampleActions).isSome := by
    decide +kernel
  obtain ⟨t, ht⟩ := Option.isSome_iff_exists.mp hsome
  obtain ⟨hnear, _⟩ := told_by_own_server initial_sample (.of_exec ht) false
  obtain ⟨_, hfar⟩ := told_by_own_server initial_sample (.of_exec ht) true
  obtain ⟨heard, hsub, hlocation, _⟩ := hnear rfl
  exact ⟨t, ht, ⟨heard, hsub, hlocation⟩, (hfar (by decide)).1⟩

end ManyServers

end PermanentIP

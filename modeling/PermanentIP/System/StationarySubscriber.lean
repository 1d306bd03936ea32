import PermanentIP.Proofs.ServerLog
import PermanentIP.System.Device

/-!
# A subscriber that stays follows its peer

One subscriber from end to end. On the server's side: from its one lookup on,
what the server sends to a subscriber that stays where it registered is the
reply and then one push for each registration of its peer, in order
(`sends_to_subscriber`). On its own side, the device's law: the peer is where
the last update taken off the socket says. Delivery in order puts the two
together (`follows_every_move`).

Anybody can end the server with a datagram it cannot log, and the moves after that
are pushed to nobody. In a run that the server lives through none is missed
(`moves_followed_of_lives`).
-/

namespace PermanentIP

open Lib SimpleMobileNode

namespace SimpleRendezvousServer

variable {srv : SimpleRendezvousServer} {rl ll : Int} {S n : LogicalAddress}
  {p : UInt16} {a : UInt32} {pre post es : List Event} {look : Packet}

/-! ## The server's side -/

/-- A run in which `S` registers at `a`, looks `n` up once from the port `p`,
and stays, and nobody else can be taken for it. -/
structure Stationary (rl ll : Int) (S : LogicalAddress) (p : UInt16)
    (a : UInt32) (n : LogicalAddress) (pre : List Event) (look : Packet)
    (post : List Event) : Prop where
  registered : Registered S pre
  known : Registered n pre
  nonzero : a ≠ 0
  asks : (Event.lookup look).lookup? = some (⟨S, p⟩, n)
  source : look.src.sinAddr = a
  unrelated : ∀ e ∈ pre ++ post, Unrelated S p a e
  noTwin : ∀ post', post' <+: post →
    NoTwin S p a ((new rl ll).run (pre ++ .lookup look :: post'))
  listener : 0 ≤ ll
  sockets : ∀ e ∈ pre ++ post, e.registers? ≠ none → 0 ≤ e.updateSocket

namespace Stationary

theorem lastRegistration_eq (h : Stationary rl ll S p a n pre look post) :
    lastRegistration S pre = some a := by
  obtain ⟨b, hb⟩ := Option.isSome_iff_exists.mp
    (lastRegistration_isSome_iff.mpr h.registered)
  obtain ⟨e, he, hr⟩ := exists_write_of_lastWrite hb
  have hba := (h.unrelated e (List.mem_append_left _ he)).stays b hr
  rw [hb, hba]

theorem look_eq (h : Stationary rl ll S p a n pre look post) :
    look.payload ≠ [] ∧ parseLookup look.text = (S, n) ∧ look.src.sinPort = p := by
  have hasks := h.asks
  rw [Event.lookup?] at hasks
  split at hasks
  · cases hasks
  · next hp =>
      simp only [Option.some.injEq, Prod.mk.injEq, Subscriber.mk.injEq] at hasks
      exact ⟨hp, Prod.ext hasks.1.1 hasks.2, hasks.1.2⟩

theorem followsOnly_look (h : Stationary rl ll S p a n pre look post) :
    FollowsOnly S p a n (((new rl ll).run pre).next (.lookup look)) := by
  have hnot := not_subscribed_run rl ll fun e he =>
    (h.unrelated e (List.mem_append_left post he)).noLookup
  have hnext : ((new rl ll).run pre).next (.lookup look) =
      (((new rl ll).run pre).changeSubscription ⟨S, p⟩ n).2 := by
    rw [next_eq_call, Event.call?, h.asks]
    rfl
  refine ⟨?_, fun m hm => ?_, ?_⟩
  · rw [hnext, mem_changeSubscription_self (mem_registeredNames_run h.known)]
    exact hnot n
  · rw [hnext, subscribers_changeSubscription_ne hm]
    exact hnot m
  · rw [hnext, registeredNames_changeSubscription, get_run,
      h.lastRegistration_eq]
    rfl

theorem receive_look (h : Stationary rl ll S p a n pre look post) :
    (((new rl ll).run pre).receive (.lookup look)).sent =
      [⟨ll, look.src,
        replyBuffer (addressText (lastRegistration n pre)) look⟩] := by
  obtain ⟨hp, hparse, _⟩ := h.look_eq
  have hll := h.listener
  rw [(receive_lookup hp).2, hparse, get_run, lookupListener_run, sendto,
    if_neg (by show ¬ ll < 0; omega)]
  rfl

theorem sends_post (h : Stationary rl ll S p a n pre look post) :
    FollowsOnly S p a n ((new rl ll).run (pre ++ .lookup look :: post)) ∧
      (((new rl ll).run (pre ++ [.lookup look])).sends post).filter (isTo a p) =
        post.filterMap (Event.push? n a p) := by
  induction post using List.reverseRecOn with
  | nil =>
      refine ⟨?_, rfl⟩
      rw [run_snoc]
      exact h.followsOnly_look
  | append_singleton post e ih =>
      have hprev : Stationary rl ll S p a n pre look post :=
        { h with
          unrelated := fun e' he' => h.unrelated e' (by
            rw [← List.append_assoc]
            exact List.mem_append_left _ he')
          noTwin := fun post' hpost' =>
            h.noTwin post' (hpost'.trans (List.prefix_append post [e]))
          sockets := fun e' he' => h.sockets e' (by
            rw [← List.append_assoc]
            exact List.mem_append_left _ he') }
      obtain ⟨hfollows, hsends⟩ := ih hprev
      have he : Unrelated S p a e := h.unrelated e (by simp)
      have hrun : (new rl ll).run (pre ++ .lookup look :: (post ++ [e])) =
          ((new rl ll).run (pre ++ .lookup look :: post)).next e := by
        rw [← List.cons_append, ← List.append_assoc, run_snoc]
      have hsock : 0 ≤ e.updateSocket ∨ e.registers? = none := by
        by_cases hr : e.registers? = none
        · exact Or.inr hr
        · exact Or.inl (h.sockets e (by simp) hr)
      have htwin := h.noTwin (post ++ [e]) (List.prefix_refl _)
      have haddr := holdsAddresses_run rl ll
        (pre ++ .lookup look :: (post ++ [e]))
      rw [hrun] at htwin haddr
      refine ⟨by rw [hrun]; exact hfollows.next he, ?_⟩
      rw [sends_snoc, List.filter_append, hsends, List.filterMap_append,
        ← run_append, List.append_assoc, List.singleton_append,
        hfollows.receive_sent he h.nonzero hsock htwin haddr]
      cases hpush : e.push? n a p with
      | none => simp [hpush]
      | some d => simp [hpush]

/-- From the lookup on, the server sends the subscriber the reply and then one
push for each registration of its peer, in order. -/
theorem sends_to_subscriber (h : Stationary rl ll S p a n pre look post) :
    (((new rl ll).run pre).sends (.lookup look :: post)).filter (isTo a p) =
      ⟨ll, look.src, replyBuffer (addressText (lastRegistration n pre)) look⟩ ::
        post.filterMap (Event.push? n a p) := by
  have hto : isTo a p ⟨ll, look.src,
      replyBuffer (addressText (lastRegistration n pre)) look⟩ := by
    rw [isTo, decide_eq_true_eq]
    exact ⟨h.source, h.look_eq.2.2⟩
  rw [sends, List.filter_append, h.receive_look, List.filter_cons_of_pos hto,
    List.filter_nil, ← run_snoc, h.sends_post.2]
  rfl

end Stationary

def Event.sourceOf? (n : LogicalAddress) (e : Event) : Option UInt32 :=
  match e.registers? with
  | some (m, b) => if m = n then some b else none
  | none => none

theorem map_payload_push (es : List Event) :
    (es.filterMap (Event.push? n a p)).map Sent.payload =
      (es.filterMap (Event.sourceOf? n)).map
        fun b => intToIPString b.toInt32 ++ [0] := by
  rw [List.map_filterMap, List.map_filterMap]
  refine List.filterMap_congr fun e _ => ?_
  rw [Event.push?, Event.sourceOf?]
  rcases e.registers? with _ | ⟨m, b⟩
  · rfl
  · simp only []
    split <;> rfl

end SimpleRendezvousServer

/-! ## End to end -/

namespace SimpleRendezvousServer

open Device

variable {rl ll : Int} {S n : LogicalAddress} {p : UInt16} {a : UInt32}
  {pre post : List Event} {look : Packet}

theorem location_of_payload {update : Packet} {b : UInt32}
    (h : update.payload = intToIPString b.toInt32 ++ [0]) :
    location update = b := by
  obtain ⟨src, payload⟩ := update
  subst h
  exact ipStringToInt_push src b

/-- Updates whose payloads are the first of the pushes carry the first of the
sources. -/
theorem location_of_fifo {es : List Event} {updates : List Packet}
    (h : updates.map Packet.payload <+:
      (es.filterMap (Event.push? n a p)).map Sent.payload) :
    updates.map location <+: es.filterMap (Event.sourceOf? n) := by
  rw [map_payload_push] at h
  have hfront := h.map fun payload => location ⟨.zero, payload⟩
  have hsources : ((es.filterMap (Event.sourceOf? n)).map
      fun b => intToIPString b.toInt32 ++ [0]).map
        (fun payload => location ⟨.zero, payload⟩) =
      es.filterMap (Event.sourceOf? n) := by
    rw [List.map_map]
    exact List.map_id'' (fun _ => location_of_payload rfl) _
  rw [hsources, List.map_map] at hfront
  exact hfront

/-- A stationary subscriber follows every move of its peer, for a server that is
never ended by its log. -/
theorem follows_every_move (h : Stationary rl ll S p a n pre look post)
    (app : EchoApp)
    (hsame : app.mobileNode.rendezvousServer = app.rendezvousServer)
    (rsAddr : PhysicalAddress) (hrs : rsAddr ≠ []) (server : SockAddr) :
    ∃ reply b, lastRegistration n pre = some b ∧
      (((new rl ll).run pre).sends (.lookup look :: post)).filter (isTo a p) =
        ⟨ll, look.src, reply⟩ :: post.filterMap (Event.push? n a p) ∧
      (ipStringToInt (readReply ⟨server, reply⟩)).toUInt32 = b ∧
      ∃ ptr, (app.registerPeer rsAddr (readReply ⟨server, reply⟩)).peerInfo =
          some ptr ∧
        (app.registerPeer rsAddr (readReply ⟨server,
          reply⟩)).mobileNode.appSockets.lookup app.appSocket = some ptr ∧
        ∀ acts d, Run (step ptr) FillsAddress
            ⟨(app.registerPeer rsAddr
              (readReply ⟨server, reply⟩)).fillPeerContainer, ⟨[], none⟩⟩ acts d →
          ((acts.filterMap Action.arrival?).filter
              (fromServer app.rendezvousServer)).map Packet.payload <+:
            (post.filterMap (Event.push? n a p)).map Sent.payload →
          ∀ k, k + (d.socket.queue.filter
                (fromServer app.rendezvousServer)).length =
              ((acts.filterMap Action.arrival?).filter
                (fromServer app.rendezvousServer)).length →
            (d.app.destination none).map SockAddr.sinAddr =
              (b :: post.filterMap (Event.sourceOf? n))[k]? := by
  obtain ⟨b, hb⟩ := Option.isSome_iff_exists.mp
    (lastRegistration_isSome_iff.mpr h.known)
  have hread : readReply ⟨server,
      replyBuffer (addressText (lastRegistration n pre)) look⟩ =
        intToIPString b.toInt32 := by
    rw [readReply_replyBuffer (nulFree_addressText _)
      (Nat.lt_of_le_of_lt (length_addressText_le _) (by decide)), hb]
    rfl
  refine ⟨_, b, hb, h.sends_to_subscriber, ?_, app.mobileNode.heap.length,
    ?_, ?_, ?_⟩
  · rw [hread, ipStringToInt_intToIPString]
    rfl
  · rw [hread, EchoApp.registerPeer, registerPeer, if_neg hrs,
      if_neg (intToIPString_ne_nil _)]
  · rw [hread, EchoApp.registerPeer, registerPeer, if_neg hrs,
      if_neg (intToIPString_ne_nil _)]
    exact AList.lookup_insert _
  · intro acts d hrun hfifo k hk
    rw [hread] at hrun
    have hlast := atLastUpdate_run (atLastUpdate_connected hsame hrs b rfl) hrun
    exact hlast.destination (location_of_fifo hfifo) hk

/-- A stationary subscriber follows every move of its peer in every run that the
server lives through. What the server sends it from its lookup on is the reply, with
the peer's address, and a push for each later registration of the peer; and where
these are delivered in order and `k` of the pushes have been applied, it sends to the
address the peer's `k`-th registration came from, or to the one in the reply while
`k` is 0. -/
theorem moves_followed_of_lives (h : Stationary rl ll S p a n pre look post)
    (stderr : FilePtr) (hlives : Lives (pre ++ .lookup look :: post))
    (app : EchoApp)
    (hsame : app.mobileNode.rendezvousServer = app.rendezvousServer)
    (rsAddr : PhysicalAddress) (hrs : rsAddr ≠ []) (server : SockAddr) :
    ∃ reply b rest, lastRegistration n pre = some b ∧
      ((new rl ll).runWithLog stderr (pre ++ .lookup look :: post)).out =
        ((new rl ll).runWithLog stderr pre).out ++ rest ∧
      rest.filter (isTo a p) =
        ⟨ll, look.src, reply⟩ :: post.filterMap (Event.push? n a p) ∧
      (ipStringToInt (readReply ⟨server, reply⟩)).toUInt32 = b ∧
      ∃ ptr, (app.registerPeer rsAddr (readReply ⟨server, reply⟩)).peerInfo =
          some ptr ∧
        (app.registerPeer rsAddr (readReply ⟨server,
          reply⟩)).mobileNode.appSockets.lookup app.appSocket = some ptr ∧
        ∀ acts d, Run (step ptr) FillsAddress
            ⟨(app.registerPeer rsAddr
              (readReply ⟨server, reply⟩)).fillPeerContainer, ⟨[], none⟩⟩ acts d →
          ((acts.filterMap Action.arrival?).filter
              (fromServer app.rendezvousServer)).map Packet.payload <+:
            (rest.filter (isTo a p)).tail.map Sent.payload →
          ∀ k, k + (d.socket.queue.filter
                (fromServer app.rendezvousServer)).length =
              ((acts.filterMap Action.arrival?).filter
                (fromServer app.rendezvousServer)).length →
            (d.app.destination none).map SockAddr.sinAddr =
              (b :: post.filterMap (Event.sourceOf? n))[k]? := by
  obtain ⟨reply, b, hb, hsends, hread, ptr, hptr, hentry, hfollows⟩ :=
    follows_every_move h app hsame rsAddr hrs server
  have hpre : Lives pre := fun before e hbefore =>
    hlives before e (hbefore.trans (List.prefix_append _ _))
  refine ⟨reply, b, ((new rl ll).run pre).sends (.lookup look :: post), hb, ?_, hsends,
    hread, ptr, hptr, hentry, ?_⟩
  · rw [(does_run rl ll stderr _).eq hlives, (does_run rl ll stderr _).eq hpre,
      sends_append]
  · rw [hsends]
    exact hfollows

/-! ### A follows B -/

theorem noTwin_of_lookup {es : List Event}
    (h : ∀ e ∈ es, ∀ s m, e.lookup? = some (s, m) → s.name = S) :
    NoTwin S p a ((new rl ll).run es) := by
  intro m s hs _ _
  by_contra hne
  refine not_subscribed_run (S := s.name) (p := s.port) rl ll ?_ m hs
  intro e he m' hl
  exact hne (h e he s m' hl)

theorem unrelated_registration {q : Packet} {sock : Int} (hport : q.src.sinPort ≠ p)
    (hname : q.text ≠ S ∨ q.src.sinAddr = a) : Unrelated S p a (.registration q sock) where
  source _ := hport
  noLookup m hl := by cases hl
  stays b hr := by
    rw [Event.registers?] at hr
    split at hr
    · cases hr
    · simp only [Option.some.injEq, Prod.mk.injEq] at hr
      rcases hname with hname | hsrc
      · exact absurd hr.1 hname
      · exact hr.2.symm.trans hsrc

/-- A registers from 9 and B from 1, A asks for B from port 7, and after that others
register. -/
theorem stationary_sample (post : List Event) (hlook : ∀ e ∈ post, e.lookup? = none)
    (hsock : ∀ e ∈ post, 0 ≤ e.updateSocket)
    (hpost : ∀ e ∈ post, Unrelated (ascii "A") 7 9 e) :
    Stationary 3 4 (ascii "A") 7 9 (ascii "B")
      [.registration ⟨⟨netV4, 5, 9⟩, ascii "A"⟩ 5,
        .registration ⟨⟨netV4, 5, 1⟩, ascii "B"⟩ 5]
      ⟨⟨netV4, 7, 9⟩, lookupRequest (ascii "A") (ascii "B")⟩ post where
  registered := ⟨_, List.mem_cons_self, 9, by decide +kernel⟩
  known := ⟨_, List.mem_cons_of_mem _ List.mem_cons_self, 1, by decide +kernel⟩
  nonzero := by decide
  asks := by decide +kernel
  source := rfl
  unrelated e he := by
    simp only [List.cons_append, List.nil_append, List.mem_cons] at he
    rcases he with rfl | rfl | he
    · exact unrelated_registration (by decide) (Or.inr rfl)
    · exact unrelated_registration (by decide) (Or.inl (by decide +kernel))
    · exact hpost e he
  noTwin post' hpost' := by
    have hA : ∀ r ∈ (Event.lookup ⟨⟨netV4, 7, 9⟩,
        lookupRequest (ascii "A") (ascii "B")⟩).lookup?, r.1.name = ascii "A" := by
      decide +kernel
    refine noTwin_of_lookup fun e he s m hl => ?_
    simp only [List.cons_append, List.nil_append, List.mem_cons] at he
    rcases he with rfl | rfl | rfl | he
    · cases hl
    · cases hl
    · exact hA (s, m) hl
    · rw [hlook e (hpost'.subset he)] at hl
      cases hl
  listener := by decide
  sockets e he hr := by
    simp only [List.cons_append, List.nil_append, List.mem_cons] at he
    rcases he with rfl | rfl | he
    · exact Int.natCast_nonneg 5
    · exact Int.natCast_nonneg 5
    · exact hsock e he

/-- B moves to 2. -/
theorem moves_followed_of_lives_example : ∃ reply rest,
    ((new 3 4).runWithLog 2 ([.registration ⟨⟨netV4, 5, 9⟩, ascii "A"⟩ 5,
        .registration ⟨⟨netV4, 5, 1⟩, ascii "B"⟩ 5] ++
        .lookup ⟨⟨netV4, 7, 9⟩, lookupRequest (ascii "A") (ascii "B")⟩ ::
          [.registration ⟨⟨netV4, 5, 2⟩, ascii "B"⟩ 6])).out =
      ((new 3 4).runWithLog 2 [.registration ⟨⟨netV4, 5, 9⟩, ascii "A"⟩ 5,
        .registration ⟨⟨netV4, 5, 1⟩, ascii "B"⟩ 5]).out ++ rest ∧
    rest.filter (isTo 9 7) =
      [⟨4, ⟨netV4, 7, 9⟩, reply⟩, ⟨6, ⟨netV4, 7, 9⟩, intToIPString 2 ++ [0]⟩] := by
  have hstat := stationary_sample [.registration ⟨⟨netV4, 5, 2⟩, ascii "B"⟩ 6]
    (by decide) (by decide) fun e he => by
      rw [List.mem_singleton.mp he]
      exact unrelated_registration (by decide) (Or.inl (by decide +kernel))
  obtain ⟨reply, b, rest, _, hout, hsends, _⟩ := moves_followed_of_lives hstat 2
    (lives_of_modest (by decide +kernel)) EchoApp.sample rfl (ascii "1.2.3.4") (by decide)
    .zero
  exact ⟨reply, rest, hout, hsends⟩

/-- The name `%s%s%s%s%s%s` registers, and then B moves to 2: there is no push. -/
theorem move_unpushed : ¬ ∀ (pre : List Event) (look : Packet) (post : List Event),
    Stationary 3 4 (ascii "A") 7 9 (ascii "B") pre look post →
    ∃ reply rest, ((new 3 4).runWithLog 2 (pre ++ .lookup look :: post)).out =
        ((new 3 4).runWithLog 2 pre).out ++ rest ∧
      rest.filter (isTo 9 7) =
        ⟨4, look.src, reply⟩ :: post.filterMap (Event.push? (ascii "B") 9 7) := by
  intro h
  obtain ⟨reply, rest, hout, hsends⟩ := h _ _ _ (stationary_sample
    [.registration ⟨⟨netV4, 5, 6⟩, ascii "%s%s%s%s%s%s"⟩ 6,
      .registration ⟨⟨netV4, 5, 2⟩, ascii "B"⟩ 6]
    (by decide) (by decide) fun e he => by
      simp only [List.mem_cons, List.not_mem_nil, or_false] at he
      rcases he with rfl | rfl
      · exact unrelated_registration (by decide) (Or.inl (by decide +kernel))
      · exact unrelated_registration (by decide) (Or.inl (by decide +kernel)))
  have hout' := congrArg List.length hout
  have hsends' := congrArg List.length hsends
  have hle := List.length_filter_le (isTo 9 7) rest
  have hall : ((new 3 4).runWithLog 2 ([.registration ⟨⟨netV4, 5, 9⟩, ascii "A"⟩ 5,
      .registration ⟨⟨netV4, 5, 1⟩, ascii "B"⟩ 5] ++
      .lookup ⟨⟨netV4, 7, 9⟩, lookupRequest (ascii "A") (ascii "B")⟩ ::
        [.registration ⟨⟨netV4, 5, 6⟩, ascii "%s%s%s%s%s%s"⟩ 6,
          .registration ⟨⟨netV4, 5, 2⟩, ascii "B"⟩ 6])).out.length = 3 := by
    decide +kernel
  have hbefore : ((new 3 4).runWithLog 2 [.registration ⟨⟨netV4, 5, 9⟩, ascii "A"⟩ 5,
      .registration ⟨⟨netV4, 5, 1⟩, ascii "B"⟩ 5]).out.length = 2 := by
    decide +kernel
  have hpushes : ([.registration ⟨⟨netV4, 5, 6⟩, ascii "%s%s%s%s%s%s"⟩ 6,
      .registration ⟨⟨netV4, 5, 2⟩, ascii "B"⟩ 6].filterMap
        (Event.push? (ascii "B") 9 7)).length = 1 := by
    decide +kernel
  rw [List.length_append, hall, hbefore] at hout'
  rw [List.length_cons, hpushes] at hsends'
  omega

end SimpleRendezvousServer

end PermanentIP

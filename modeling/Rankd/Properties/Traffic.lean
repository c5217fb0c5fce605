import Rankd.Infra.Slice
import Rankd.Node.Session
import Rankd.Properties.Agreement
import Rankd.Properties.Interference

/-!
# Admission in the midst of other traffic

The nodes of a path serve other sessions at the same time: any messages of theirs are in flight and
come in any order, from anywhere; their auctions end, their timers of every type fire, and their
origins are marked. Of the session of one request, messages may be lost and timers may fire.

What the other sessions do leaves the progress of the request as it is, since no step of theirs
touches its session, and what is left are the steps of the request alone.
-/

namespace Rankd

open Infra

variable {k : Nat}

/-! ## A session that others leave alone -/

section Untouched

variable {n n' : Node} {u : UUIDv4} {origin : Bool} {source : NodeIdentifier} {h : HandlerId}
  {code : ApiResult} {name : Fin (k + 1) → UInt8} {progress : Progress k} {i : Fin (k + 2)}

theorem Node.Untouched.mem_timeouts (h' : Node.Untouched (timestamp u) n n')
    {e : HandlerId × TimeoutType}
    (he : e ∈ n'.timeouts) (hT : timestamp (n'.handler e.1).uuid = timestamp u) :
    e ∈ n.timeouts ∧ timestamp (n.handler e.1).uuid = timestamp u := by
  have hmem : e ∈ n'.timersOf (timestamp u) := List.mem_filter.mpr ⟨he, decide_eq_true hT⟩
  rw [h'.timers] at hmem
  exact ⟨(List.mem_filter.mp hmem).1, of_decide_eq_true (List.mem_filter.mp hmem).2⟩

theorem Node.Untouched.contains (h' : Node.Untouched (timestamp u) n n') :
    n'.originSet.contains u = n.originSet.contains u := by
  rw [OrdMap.contains, h'.origins u rfl, OrdMap.contains]

theorem Node.Untouched.reserves_iff (h' : Node.Untouched (timestamp u) n n') :
    n'.Reserves u ↔ n.Reserves u := by
  have hiff : ∀ m : Node, m.Reserves u ↔
      ∃ e ∈ ReservationList.session (timestamp u) m.resources.reservations,
        e.2.uuid = u ∧ e.2.state = .reserved := by
    intro m
    constructor
    · rintro ⟨e, he, hu, hs⟩
      exact ⟨e, ReservationList.mem_session.mpr ⟨he, congrArg timestamp hu⟩, hu, hs⟩
    · rintro ⟨e, he, hu, hs⟩
      exact ⟨e, (ReservationList.mem_session.mp he).1, hu, hs⟩
  rw [hiff, hiff, h'.reservations]

theorem Node.Fresh.untouched (hs : n.Fresh u origin) (h' : Node.Untouched (timestamp u) n n')
    (hn' : n'.Inv) : n'.Fresh u origin where
  unstored j hj hT := by
    obtain ⟨h, hh⟩ := OrdMap.mem_keys.mp hj
    rw [h'.store j hT] at hh
    exact hs.unstored j (OrdMap.mem_keys.mpr ⟨h, hh⟩) hT
  free := ⟨hn'.valid, h'.reservations.trans hs.free.session⟩
  timers i hi hT := by
    obtain ⟨hmem, hT'⟩ := h'.mem_timeouts hi hT
    exact hs.timers i hmem hT'
  untranslated := (h'.translations u rfl).trans hs.untranslated
  origin := h'.contains.trans hs.origin

theorem Node.Awaits.untouched (hs : n.Awaits u origin source h)
    (h' : Node.Untouched (timestamp u) n n') (hn : n.Inv) (hn' : n'.Inv) :
    n'.Awaits u origin source h := by
  have hhandler : n'.handler h = n.handler h :=
    h'.handler h (hn.stored u h hs.stored).1 (hn.stored u h hs.stored).2
  obtain ⟨a, x, hp, hsole, hx, hu, hpast⟩ := hs.reservation
  refine
    { stored := (h'.store u rfl).trans hs.stored
      uuid := by rw [hhandler]; exact hs.uuid
      state := by rw [hhandler]; exact hs.state
      idle := by rw [hhandler]; exact hs.idle
      sourceIdentifier := by rw [hhandler]; exact hs.sourceIdentifier
      reservation := ⟨a, x, by rw [hhandler]; exact hp,
        ⟨hn'.valid, h'.reservations.trans hsole.session⟩, hx, hu, hpast⟩
      timers := ?_
      untranslated := (h'.translations u rfl).trans hs.untranslated
      origin := h'.contains.trans hs.origin }
  intro i hi hT
  obtain ⟨hmem, hT'⟩ := h'.mem_timeouts hi hT
  exact hs.timers i hmem hT'

theorem Node.Shut.untouched (hs : n.Shut u) (h' : Node.Untouched (timestamp u) n n') (hn : n.Inv) :
    n'.Shut u := by
  obtain ⟨h, hh, hstate⟩ := hs
  refine ⟨h, (h'.store u rfl).trans hh, ?_⟩
  rw [h'.handler h (hn.stored u h hh).1 (hn.stored u h hh).2]
  exact hstate

theorem Node.Secure.untouched (hs : n.Secure u) (h' : Node.Untouched (timestamp u) n n')
    (ht : n.Timed) : n'.Secure u where
  reserves := h'.reserves_iff.mpr hs.reserves
  timers i hi hT := by
    obtain ⟨hmem, hT'⟩ := h'.mem_timeouts hi hT
    rw [h'.handler i (ht _ hmem) hT']
    exact hs.timers i hmem hT'

theorem Node.Done.untouched (hd : n.Done u code) (h' : Node.Untouched (timestamp u) n n')
    (ht : n.Timed) : n'.Done u code := by
  cases code with
  | ok => exact Node.Secure.untouched hd h' ht
  | fail => exact fun hr => hd (h'.reserves_iff.mp hr)

theorem Node.Open.untouched (ho : n.Open name u i) (h' : Node.Untouched (timestamp u) n n')
    (hn : n.Inv) (hn' : n'.Inv) : n'.Open name u i := by
  rcases ho with hshut | ⟨source, h, ha, hsource⟩
  · exact Or.inl (hshut.untouched h' hn)
  · exact Or.inr ⟨source, h, ha.untouched h' hn hn', hsource⟩

/-- **Other sessions do not change how far the request has come.** -/
theorem Progress.party_untouched (hp : progress.party name u i n)
    (h' : Node.Untouched (timestamp u) n n') (hn : n.Inv) (hn' : n'.Inv) (ht : n.Timed) :
    progress.party name u i n' := by
  cases progress with
  | asked p =>
    rw [Progress.party] at hp ⊢
    split_ifs at hp ⊢ with hi
    · exact hp.untouched h' hn hn'
    · exact hp.untouched h' hn'
  | answered code p =>
    rw [Progress.party] at hp ⊢
    split_ifs at hp ⊢ with hi
    · exact hp.untouched h' hn hn'
    · exact hp.untouched h' ht
  | bounced =>
    rw [Progress.party] at hp ⊢
    split_ifs at hp ⊢ with hi
    · exact hp.untouched h' hn
    · exact hp.untouched h' hn'
  | lost => trivial
  | reported code => exact Node.Done.untouched hp h' ht

end Untouched

/-! ## Sessions without auctions -/

/-- The sessions with timestamp `T` have EAR timers only, and none of their handlers is blocked. -/
structure Node.Quiet (T : Nat) (n : Node) : Prop where
  timers : ∀ e ∈ n.timersOf T, e.2 = .ear
  awake : ∀ h < n.handlers.length, timestamp (n.handler h).uuid = T →
    (n.handler h).auctionWait = false

section Quiet

variable {env : Env} {n n₁ n' : Node} {T : Nat} {message : Message} {source : NodeIdentifier}
  {h : HandlerId}

theorem Node.Quiet.untouched (hq : n.Quiet T) (h' : Node.Untouched T n n') : n'.Quiet T where
  timers e he := hq.timers e (h'.timers ▸ he)
  awake i hi hT := by
    obtain ⟨hlt, hT'⟩ := h'.known i hi hT
    rw [h'.handler i hlt hT']
    exact hq.awake i hlt hT'

/-- Nodes whose handlers differ in their UUIDs only, within a session. -/
theorem Node.Quiet.found {id : UUIDv4} (hq : n.Quiet T) (hn : n.Inv) (hf : Node.Found id n n₁) :
    n₁.Quiet T where
  timers e he := by
    obtain ⟨hmem, hT⟩ := List.mem_filter.mp he
    obtain ⟨u, hu, hts⟩ := hf.handler hn e.1
    rw [hu, hts, decide_eq_true_eq] at hT
    rw [hf.timeouts] at hmem
    exact hq.timers e (List.mem_filter.mpr ⟨hmem, decide_eq_true hT⟩)
  awake i hi hT := by
    obtain ⟨u, hu, hts⟩ := hf.handler hn i
    rw [hf.length] at hi
    rw [hu, hts] at hT
    rw [hu]
    exact hq.awake i hi hT

theorem Node.Quiet.created {id : UUIDv4} (hq : n.Quiet T) (ht : n.Timed) :
    (n.created id).Quiet T where
  timers e he := by
    obtain ⟨hmem, hT⟩ := List.mem_filter.mp he
    rw [Node.handler_created_lt (ht e hmem)] at hT
    exact hq.timers e (List.mem_filter.mpr ⟨hmem, hT⟩)
  awake i hi hT := by
    by_cases hnew : i = n.handlers.length
    · rw [hnew, Node.handler_created_self]
      rfl
    · have hlen : (n.created id).handlers.length = n.handlers.length + 1 := by simp [Node.created]
      rw [Node.handler_created_ne hnew] at hT ⊢
      exact hq.awake i (by omega) hT

/-- A round that starts EAR timers only. -/
theorem Node.Quiet.round (hq : n.Quiet T) (hn : n.Inv) (ht : n.Timed)
    (hh : Node.Hands env message n n₁ h) {t : Thread}
    (hrun : (operatorCall env h (n₁.accepting h message source).handlers message).run
      (n₁.startThread h message source) = (.ok (), t))
    (hbid : ∀ v u value, message ≠ .bid v u value)
    (hstarts : ∀ type, message.starts env type → type = .ear) :
    (Node.putThread t h n₁).Quiet T := by
  have hq₁ : n₁.Quiet T := by
    cases hh with
    | resumed hf => exact hq.found hn hf
    | created => exact hq.created ht
  have hlog := hh.logged hn hrun
  have hlt := hh.lt hn
  have hsame : ∀ i, timestamp ((Node.putThread t h n₁).handler i).uuid =
      timestamp (n₁.handler i).uuid := by
    intro i
    by_cases hi : i = h
    · subst hi
      rw [Node.handler_putThread_self hlt, hlog.session, hh.timestamp_eq hn]
    · rw [Node.handler_putThread_ne hi]
  constructor
  · intro e he
    obtain ⟨hmem, hT⟩ := List.mem_filter.mp he
    rw [hsame] at hT
    obtain ⟨types, htypes, hall⟩ := hlog.timeouts
    have hmem' : e ∈ n₁.timeouts ++ types.map (h, ·) := htypes ▸ hmem
    rcases List.mem_append.mp hmem' with hold | hnew
    · exact hq₁.timers e (List.mem_filter.mpr ⟨hold, hT⟩)
    · obtain ⟨type, htype, rfl⟩ := List.mem_map.mp hnew
      exact hstarts type (hall type htype)
  · intro i hi hT
    rw [Node.length_putThread] at hi
    rw [hsame] at hT
    by_cases hih : i = h
    · subst hih
      rw [Node.handler_putThread_self hlt, (hh.moved hn hrun).auctionWait hbid]
      have hstart : (n₁.startThread i message source).self.auctionWait =
          (n₁.handler i).auctionWait := by cases message <;> rfl
      rw [hstart]
      exact hq₁.awake i hi hT
    · rw [Node.handler_putThread_ne hih]
      exact hq₁.awake i hi hT

theorem Node.Quiet.receive (hq : n.Quiet T) (hn : n.Inv) (ht : n.Timed)
    (hrun : (perform env (.receive message source)).run n = (.ok (), n'))
    (hbid : ∀ v u value, message ≠ .bid v u value)
    (hstarts : ∀ type, message.starts env type → type = .ear) : n'.Quiet T := by
  cases hn.stepped hrun with
  | dropped hf => exact hq.found hn hf
  | bid hf hk hs hr hb =>
    obtain ⟨v, u, hm⟩ := hb.value
    exact absurd hm (hbid v u _)
  | round hh hcall => exact hq.round hn ht hh hcall hbid hstarts

theorem Node.Quiet.fires (hq : n.Quiet T) (hf : Node.Fires h n n') : n'.Quiet T where
  timers e he := by
    obtain ⟨hmem, hT⟩ := List.mem_filter.mp he
    rw [(hf.handler e.1).1] at hT
    rw [hf.shared] at hmem
    exact hq.timers e (List.mem_filter.mpr ⟨List.mem_of_mem_erase hmem, hT⟩)
  awake i hi hT := by
    rw [(hf.handler i).1] at hT
    obtain ⟨r, t, ht, -, rfl⟩ := hf
    rw [Node.length_putThread] at hi
    by_cases hih : i = h
    · subst hih
      rw [Node.handler_putThread_self (n := n.expire i .ear) hi, ht.auctionWait]
      exact hq.awake i hi hT
    · rw [Node.handler_putThread_ne hih]
      exact hq.awake i hi hT

end Quiet

/-! ## Traffic -/

/--
A node takes any message, its auctions end, its timers fire and its API marks origins; and messages
of other sessions than those with timestamp `T` may come from outside at any time.
-/
def Chain.traffic (c : Chain k) (T : Nat) : Protocol (Fin (k + 1)) Node Parcel where
  takes := (c.protocol .ear).takes
  acts i n n' sends :=
    (∃ env action, c.site i env ∧ action.Internal (fun uuid => timestamp uuid ≠ T) ∧
    action.enabled n ∧
      (perform env action).run n = (.ok (), n') ∧ sends = c.arrivals i (n.sentUntil n')) ∨
    (n' = n ∧ ∀ e ∈ sends, timestamp e.2.2.uuid ≠ T)

/-- A message of a session with timestamp `T`. -/
def Parcel.isOf (T : Nat) (m : Parcel) : Bool := timestamp m.2.uuid = T

/-- The request is on its way to the origin, and no node knows its session; other
messages are too. -/
structure Chain.Begins (c : Chain (k + 1)) (b : UInt8) (u : UUIDv4) (net : ChainNet (k + 1)) :
    Prop where
  reachable : ∀ i, (net.party i).Reachable
  fresh : ∀ i, (net.party i).Fresh u (i = 0)
  quiet : ∀ i, (net.party i).Quiet (timestamp u)
  unreported : ∀ code, (code, u) ∉ (net.party 0).results
  request : ∃ source v r, (net.slice (Parcel.isOf (timestamp u))).flight =
    [(0, source, .ear v u r)] ∧
    c.Asks b 0 r

/-- The progress of a request among the messages of its session. -/
structure Chain.Among (c : Chain (k + 1)) (b : UInt8) (name : Fin (k + 1) → UInt8) (u : UUIDv4)
    (progress : Progress k) (net : ChainNet (k + 1)) : Prop where
  progress : c.At b name u progress net
  timed : ∀ i, (net.party i).Timed
  quiet : ∀ i, (net.party i).Quiet (timestamp u)

section Steps

variable {c : Chain (k + 1)} {b : UInt8} {name : Fin (k + 1) → UInt8} {u : UUIDv4}
  {progress progress' : Progress k} {net net' : ChainNet (k + 1)} {i p : Fin (k + 2)}
  {env : Env} {n n' s : Node} {m : Parcel} {sends : List (Fin (k + 2) × Parcel)}

/-- Other sessions at a node. -/
theorem Chain.Among.untouched (ha : c.Among b name u progress net) (hs : s.Inv) (ht : s.Timed)
    (h' : Node.Untouched (timestamp u) (net.party i) s) :
    c.Among b name u progress (net.goes i s net.flight) := by
  have hat := ha.progress
  refine ⟨⟨?_, ?_, hat.flight, ?_⟩, ?_, ?_⟩
  · exact Net.forall_party_goes (I := fun _ (n : Node) => n.Inv) hat.inv hs
  · exact Net.forall_party_goes hat.party
      (Progress.party_untouched (hat.party i) h' (hat.inv i) hs (ha.timed i))
  · intro code hmem
    refine hat.results code ?_
    by_cases hzero : 0 = i
    · subst hzero
      rw [Net.party_goes_self] at hmem
      have hown : (code, u) ∈ s.resultsOf (timestamp u) :=
        List.mem_filter.mpr ⟨hmem, decide_eq_true rfl⟩
      rw [h'.results] at hown
      exact (List.mem_filter.mp hown).1
    · rw [Net.party_goes_ne hzero] at hmem
      exact hmem
  · exact Net.forall_party_goes (I := fun _ (n : Node) => n.Timed) ha.timed ht
  · exact Net.forall_party_goes (I := fun _ (n : Node) => n.Quiet (timestamp u)) ha.quiet
      ((ha.quiet i).untouched h')

/-- A step of another session. -/
theorem Chain.Among.foreign (ha : c.Among b name u progress net) {action : Action}
    (hen : action.enabled (net.party i)) (hT : action.session (net.party i) ≠ timestamp u)
    (hrun : (perform env action).run (net.party i) = (.ok (), s)) :
    c.Among b name u progress (net.goes i s net.flight) := by
  have hinv := ha.progress.inv i
  exact ha.untouched (hinv.step hrun).1 (Node.Timed.step (ha.timed i) hinv hen hrun)
    (hinv.untouched (ha.timed i) hen hT hrun)

/-- The steps that a node takes on its own for the session. -/
theorem Chain.Among.own (ha : c.Among b name u progress net) {action : Action}
    (hinternal : action.Internal fun uuid => timestamp uuid ≠ timestamp u)
    (hen : action.enabled (net.party i))
    (hT : action.session (net.party i) = timestamp u) : ∃ h, action = .timeout h .ear := by
  cases action with
  | receive message source => exact False.elim hinternal
  | wake h =>
    have hawake := (ha.quiet i).awake h hen.1 hT
    rw [hen.2] at hawake
    cases hawake
  | timeout h type =>
    have hear := (ha.quiet i).timers (h, type) (List.mem_filter.mpr ⟨hen, decide_eq_true hT⟩)
    exact ⟨h, congrArg (Action.timeout h) hear⟩
  | markOrigin uuid pid => exact absurd hT hinternal

/-- The messages of the request start no auction. -/
theorem Chain.At.starts (hc : c.Linear b name) (hat : c.At b name u progress net)
    (hm : (i, m) ∈ net.flight) (hsite : c.site i env) :
    (∀ v u value, m.2 ≠ .bid v u value) ∧ ∀ type, m.2.starts env type → type = .ear := by
  have hanswer : ∀ code, (∀ v w value, answer u code ≠ .bid v w value) ∧
      ∀ type, (answer u code).starts env type → type = .ear := by
    intro code
    cases code with
    | ok => exact ⟨fun _ _ _ h => (by cases h), fun _ h => False.elim h⟩
    | fail => exact ⟨fun _ _ _ h => (by cases h), fun _ h => False.elim h⟩
  have hflight := hat.flight
  cases progress with
  | asked p =>
    obtain ⟨source, v, r, hf, hask, -⟩ := hflight
    rw [hf, List.mem_singleton] at hm
    cases hm
    refine ⟨fun _ _ _ h => (by cases h), ?_⟩
    rintro type (rfl | ⟨-, address, first, hl, hme, hfirst, hlength⟩)
    · rfl
    · obtain ⟨hb, hlast⟩ := hask env address hsite hl
      rw [hb, Option.some.injEq] at hfirst
      subst hfirst
      have hne : i ≠ Fin.last (k + 1) := by
        intro heq
        rw [hlast.mpr heq] at hme
        cases hme
      obtain ⟨j, rfl⟩ := Fin.exists_castSucc_eq.mpr hne
      obtain ⟨locator, hlocator, -⟩ := hc.toward j env hsite
      rw [nearestConnections_single hlocator] at hlength
      exact absurd hlength (by simp)
  | answered code p =>
    obtain ⟨source, hf⟩ := hflight
    rw [hf, List.mem_singleton] at hm
    cases hm
    exact hanswer code
  | bounced =>
    obtain ⟨j, source, hf⟩ := hflight
    rw [hf, List.mem_singleton] at hm
    cases hm
    exact hanswer .fail
  | lost =>
    rw [show net.flight = [] from hflight] at hm
    cases hm
  | reported code =>
    rw [show net.flight = [] from hflight] at hm
    cases hm

/-- What a node sends for its session is seen, and nothing else. -/
theorem filter_arrivals {T : Nat} (hn : n.Inv) {action : Action}
    (hrun : (perform env action).run n = (.ok (), n')) :
    ((c.arrivals i (n.sentUntil n')).filter fun e => Parcel.isOf T e.2) =
      if action.session n = T then c.arrivals i (n.sentUntil n') else [] := by
  have hsession : ∀ e ∈ c.arrivals i (n.sentUntil n'), timestamp e.2.2.uuid = action.session n := by
    intro e he
    obtain ⟨sent, hsent, heq⟩ := Chain.mem_arrivals he
    rw [heq]
    exact hn.sends_session hrun sent hsent
  split_ifs with hT
  · rw [List.filter_eq_self]
    exact fun e he => decide_eq_true ((hsession e he).trans hT)
  · rw [List.filter_eq_nil_iff]
    intro e he hof
    exact hT ((hsession e he).symm.trans (of_decide_eq_true hof))

/-- **A step of the traffic takes the request on, or leaves it where it is.** -/
theorem Chain.Among.step (hc : c.Linear b name)
    (ha : c.Among b name u progress (net.slice (Parcel.isOf (timestamp u))))
    (hstep : Net.Sliced (Parcel.isOf (timestamp u)) (c.traffic (timestamp u)) net net') :
    ∃ progress', c.Among b name u progress' net' := by
  have hat := ha.progress
  cases hstep with
  | take hm hf h =>
    rename_i i m before after sends s
    obtain ⟨env, hsite, hrun, rfl⟩ := h
    have hinv : (net.party i).Inv := hat.inv i
    have hstep : Net.Step (c.protocol .ear) (net.slice (Parcel.isOf (timestamp u))) _ :=
      .take hf ⟨env, hsite, hrun, rfl⟩
    have hen : (Action.receive m.2 m.1).enabled (net.party i) := trivial
    have hsession : (Action.receive m.2 m.1).session (net.party i) = timestamp u :=
      of_decide_eq_true hm
    rw [filter_arrivals hinv hrun, if_pos hsession]
    obtain ⟨progress', hat'⟩ := hat.step hc hstep
    refine ⟨progress', hat', ?_, ?_⟩
    · exact Net.forall_party_goes (I := fun _ (n : Node) => n.Timed) ha.timed
        (Node.Timed.step (ha.timed i) hinv hen hrun)
    · have hmem : (i, m) ∈ (net.slice (Parcel.isOf (timestamp u))).flight := by
        rw [hf]
        exact List.mem_append_right _ List.mem_cons_self
      obtain ⟨hbid, hstarts⟩ := hat.starts hc hmem hsite
      exact Net.forall_party_goes (I := fun _ (n : Node) => n.Quiet (timestamp u)) ha.quiet
        (Node.Quiet.receive (ha.quiet i) hinv (ha.timed i) hrun hbid hstarts)
  | other hm h =>
    rename_i i m sends s
    obtain ⟨env, hsite, hrun, rfl⟩ := h
    have hinv : (net.party i).Inv := hat.inv i
    have hen : (Action.receive m.2 m.1).enabled (net.party i) := trivial
    have hne : (Action.receive m.2 m.1).session (net.party i) ≠ timestamp u := of_decide_eq_false hm
    -- a round of another session sends nothing of this one
    rw [filter_arrivals hinv hrun, if_neg hne, List.append_nil]
    exact ⟨progress, ha.foreign hen hne hrun⟩
  | lose hf =>
    obtain ⟨progress', hat'⟩ := hat.step hc (.lose hf)
    exact ⟨progress', hat', ha.timed, ha.quiet⟩
  | unseen => exact ⟨progress, ha⟩
  | act h =>
    rename_i i s sends
    rcases h with ⟨env, action, hsite, hinternal, hen, hrun, rfl⟩ | ⟨rfl, hsends⟩
    · have hinv : (net.party i).Inv := hat.inv i
      rw [filter_arrivals hinv hrun]
      by_cases hT : action.session (net.party i) = timestamp u
      · -- of the session itself only an EAR timer can fire
        obtain ⟨h, rfl⟩ : ∃ h, action = .timeout h .ear := ha.own hinternal hen hT
        obtain ⟨hsilent, -⟩ := hat.acts (i := i) ⟨env, h, hsite, hen, hrun, rfl⟩
        obtain ⟨progress', hat'⟩ := hat.step hc (.act ⟨env, h, hsite, hen, hrun, rfl⟩)
        rw [if_pos hT]
        refine ⟨progress', hat', ?_, ?_⟩
        · exact Net.forall_party_goes (I := fun _ (n : Node) => n.Timed) ha.timed
            (Node.Timed.step (ha.timed i) hinv hen hrun)
        · exact Net.forall_party_goes (I := fun _ (n : Node) => n.Quiet (timestamp u)) ha.quiet
            (Node.Quiet.fires (ha.quiet i) (.of_run hinv hrun))
      · rw [if_neg hT, List.append_nil]
        exact ⟨progress, ha.foreign hen hT hrun⟩
    · -- messages of other sessions come from outside
      have hnone : (sends.filter fun e => Parcel.isOf (timestamp u) e.2) = [] := by
        rw [List.filter_eq_nil_iff]
        exact fun e he hof => hsends e he (of_decide_eq_true hof)
      rw [hnone, List.append_nil]
      exact ⟨progress, ha.untouched (hat.inv i) (ha.timed i) (.refl _ _)⟩

/-- **What the origin has reported holds of all nodes.** -/
theorem Chain.Among.agrees (ha : c.Among b name u progress net) :
    ((.ok, u) ∈ (net.party 0).results → ∀ i, (net.party i).Reserves u) ∧
      ((.fail, u) ∈ (net.party 0).results → ∀ i, ¬(net.party i).Reserves u) ∧
      ¬((.ok, u) ∈ (net.party 0).results ∧ (.fail, u) ∈ (net.party 0).results) := by
  have hat := ha.progress
  refine ⟨?_, ?_, ?_⟩
  · intro hok i
    obtain rfl := hat.results .ok hok
    exact Node.Secure.reserves (hat.party i)
  · intro hfail i
    obtain rfl := hat.results .fail hfail
    exact hat.party i
  · rintro ⟨hok, hfail⟩
    have hboth := (hat.results .ok hok).symm.trans (hat.results .fail hfail)
    cases hboth

theorem Chain.Begins.among (h : c.Begins b u net) :
    c.Among b name u (.asked 0) (net.slice (Parcel.isOf (timestamp u))) where
  progress :=
    { inv := fun i => (h.reachable i).inv
      party := fun i => by
        rw [Progress.party, if_neg (Fin.not_lt_zero i)]
        exact h.fresh i
      flight := by
        obtain ⟨source, v, r, hf, hask⟩ := h.request
        exact ⟨source, v, r, hf, hask, fun j hj => absurd hj.symm (Fin.succ_ne_zero j)⟩
      results := fun code hmem => absurd hmem (h.unreported code) }
  timed i := (h.reachable i).timed
  quiet := h.quiet

/-- Wherever the traffic leads, the request has come somewhere. -/
theorem Chain.Begins.run (h : c.Begins b u net) (hc : c.Linear b name)
    (hrun : Net.Run (c.traffic (timestamp u)) net net') :
    ∃ progress, c.Among b name u progress (net'.slice (Parcel.isOf (timestamp u))) := by
  induction hrun with
  | refl => exact ⟨_, h.among⟩
  | tail _ hstep ih =>
    obtain ⟨progress, ha⟩ := ih
    exact ha.step hc (hstep.sliced _)

/--
**Admission agreement in traffic**: whatever other sessions do at the nodes of the path and between
them, the origin reports that the request was granted only if every node has its reservation, and
that it failed only if none has, and never both.
-/
theorem traffic_agreement (h : c.Begins b u net) (hc : c.Linear b name)
    (hrun : Net.Run (c.traffic (timestamp u)) net net') :
    ((.ok, u) ∈ (net'.party 0).results → ∀ i, (net'.party i).Reserves u) ∧
      ((.fail, u) ∈ (net'.party 0).results → ∀ i, ¬(net'.party i).Reserves u) ∧
      ¬((.ok, u) ∈ (net'.party 0).results ∧ (.fail, u) ∈ (net'.party 0).results) := by
  obtain ⟨progress, ha⟩ := h.run hc hrun
  exact ha.agrees

end Steps

/-! ## Two requests at once -/

/-- The first message in flight is taken, a number of times; `none` where its processing faults. -/
def Chain.takeFirst (c : Chain k) (env : Fin (k + 1) → Env) : Nat → ChainNet k → Option (ChainNet k)
  | 0, net => some net
  | steps + 1, net =>
    match net.flight with
    | [] => some net
    | (i, m) :: rest =>
      match (perform (env i) (.receive m.2 m.1)).run (net.party i) with
      | (.ok (), n') =>
        c.takeFirst env steps (net.goes i n' (rest ++ c.arrivals i ((net.party i).sentUntil n')))
      | (.error _, _) => none

theorem Chain.takeFirst_run {c : Chain k} {env : Fin (k + 1) → Env} (hsite : ∀ i, c.site i (env i))
    {P : Protocol (Fin (k + 1)) Node Parcel} (hP : P.takes = (c.protocol .ear).takes) {steps : Nat}
    {net net' : ChainNet k} (h : c.takeFirst env steps net = some net') : Net.Run P net net' := by
  induction steps generalizing net with
  | zero =>
    cases h
    exact .refl
  | succ steps ih =>
    rw [Chain.takeFirst] at h
    rcases hf : net.flight with _ | ⟨⟨i, message⟩, rest⟩
    · simp only [hf] at h
      cases h
      exact .refl
    · rcases hrun : (perform (env i) (.receive message.2 message.1)).run (net.party i) with
        ⟨_ | _, n'⟩
      · simp only [hf, hrun] at h
        cases h
      · simp only [hf, hrun] at h
        have hsplit : net.flight = [] ++ (i, message) :: rest := hf
        have htake : P.takes i message (net.party i) n'
            (c.arrivals i ((net.party i).sentUntil n')) := by
          rw [hP]
          exact ⟨env i, hsite i, hrun, rfl⟩
        exact .head (.take hsplit htake) (ih h)

/-- Two requests of one origin that are on their way at the same time. -/
def sampleTraffic : ChainNet 1 where
  party i := { sampleAdmission.party i with
    originSet := if i.val = 0 then (sampleAdmission.party i).originSet.insertNew (sampleUuid 8 0) 0
      else ∅ }
  flight := sampleAdmission.flight ++ sampleAdmission.flight.map fun p =>
    (p.1, p.2.1, .ear 1 (sampleUuid 8 0) (.sample 9))

theorem sampleTraffic_reachable (i : Fin 2) : (sampleTraffic.party i).Reachable := by
  match i with
  | 0 =>
    exact .tail (.single ⟨sampleSite 0, .markOrigin (sampleUuid 7 0) 0, trivial, rfl⟩)
      ⟨sampleSite 0, .markOrigin (sampleUuid 8 0) 0, trivial, rfl⟩
  | 1 => exact .refl

theorem sampleTraffic_begins : Chain.sample.Begins 9 (sampleUuid 7 0) sampleTraffic where
  reachable := sampleTraffic_reachable
  fresh i :=
    { unstored := nofun
      free := ⟨⟨List.nodup_nil, nofun⟩, rfl⟩
      timers := nofun
      untranslated := rfl
      origin := by
        match i with
        | 0 => decide +kernel
        | 1 => decide +kernel }
  quiet _ := ⟨nofun, fun _ h => absurd h (Nat.not_lt_zero _)⟩
  unreported := nofun
  request := by
    refine ⟨([5], .simulation), 1, .sample 9, by decide +kernel, ?_⟩
    rintro env address rfl hl
    have haddress : listenerAddress (sampleSite 0) 0 (Request.sample 9).listener = .ok [9] := rfl
    cases haddress.symm.trans hl
    decide

/-- Both requests are granted, each in the midst of the other. -/
theorem traffic_agreement_two : ∃ net', Net.Run (Chain.sample.traffic 7) sampleTraffic net' ∧
    ((.ok, sampleUuid 7 0) ∈ (net'.party 0).results ∧
      (.ok, sampleUuid 8 0) ∈ (net'.party 0).results) ∧
    ∀ i, (net'.party i).Reserves (sampleUuid 7 0) := by
  have hrun : (Chain.sample.takeFirst sampleSite 6 sampleTraffic).map (fun net' =>
      decide ((.ok, sampleUuid 7 0) ∈ (net'.party 0).results ∧
        (.ok, sampleUuid 8 0) ∈ (net'.party 0).results)) = some true := by
    decide +kernel
  obtain ⟨net', hnet, hresults⟩ := Option.map_eq_some_iff.mp hrun
  have htraffic : Net.Run (Chain.sample.traffic 7) sampleTraffic net' :=
    Chain.takeFirst_run (P := Chain.sample.traffic 7) (fun _ => rfl) rfl hnet
  have hresults' := of_decide_eq_true hresults
  exact ⟨net', htraffic, hresults',
    (traffic_agreement sampleTraffic_begins sampleAdmission_linear htraffic).1 hresults'.1⟩

end Rankd

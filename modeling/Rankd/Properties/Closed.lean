import Rankd.Node.Session
import Rankd.Node.Steps

/-!
# CLOSED is final

A handler that is closed stays closed (`closed_final`). `Process` hands it no message, and the
callbacks of its timers do nothing. The case that needs an argument is a handler that is blocked in
an auction while a timeout closes it: it goes on afterwards, and would be pre-reserved again if it
had a bid and a reservation. The callbacks of the EAR, MAR and BID timers take its bids. The one of
the REP timer leaves them and takes its reservation, because a blocked handler points to the first
reservation of its session (`Node.Blocked`), and that is the one `replenish_reservation` erases.
-/

namespace Rankd

open Infra Prog

/-! ## Blocked handlers -/

/-- A handler that is blocked in an auction. If it is closed, it has no bids or no reservation. -/
structure Handler.Blocked (T : Nat) (R : Resources) (s : Handler) : Prop where
  running : s.running = true
  owns : ∀ r, s.reservation ≠ .own r
  leads : ∀ a, s.reservation = .listed a → R.Leads T a
  closed : s.state = .closed → s.bids = [] ∨ ∃ a, s.reservation = .listed a ∧ R.Lacks T a

section Threads

variable {T a : Nat} {R R' : Resources} {s : Handler} {t t' : Thread} {env : Env} {me : HandlerId}
  {peers : List Handler}

theorem Handler.Blocked.of_filter (hs : s.Blocked T R) {p : Nat → Bool}
    (h : ReservationList.addresses (ReservationList.session T R'.reservations) =
      (ReservationList.addresses (ReservationList.session T R.reservations)).filter p) :
    s.Blocked T R' := by
  refine ⟨hs.running, hs.owns, fun a ha => (hs.leads a ha).of_filter h, ?_⟩
  intro hclosed
  rcases hs.closed hclosed with hb | ⟨a, ha, hl⟩
  · exact Or.inl hb
  · exact Or.inr ⟨a, ha, hl.of_filter h⟩

theorem Handler.Blocked.of_session (hs : s.Blocked T R)
    (h : ReservationList.session T R'.reservations = ReservationList.session T R.reservations) :
    s.Blocked T R' := by
  refine hs.of_filter (p := fun _ => true) ?_
  rw [h, List.filter_true]

/-- A BID that blocks its handler finds the first reservation of the session. -/
theorem operatorCall_bid {v : UInt8} {u : UUIDv4} {value : BitVec 32}
    (hT : timestamp t.self.uuid = T) (hv : t.resources.Valid) (hr : t.self.running = true)
    (hrun : (operatorCall env me peers (.bid v u value)).run t = (.ok (), t'))
    (hw : t.self.auctionWait = false) (hw' : t'.self.auctionWait = true) :
    t'.self.Blocked T t'.resources := by
  -- Whatever was loaded, the handler waited for bids and does so again.
  have hparked : ∀ (t₁ : Thread) {exit : Exit} {t₂ : Thread}, t₁.self.running = true →
      t₁.self.auctionWait = false → (∀ r, t₁.self.reservation ≠ .own r) →
      (∀ a, t₁.self.reservation = .listed a → t₁.resources.Leads T a) →
      (messageSwitch env me peers (.bid v u value)).run t₁ = (.ok exit, t₂) → t' = t₂.left exit →
      t'.self.Blocked T t'.resources := by
    rintro t₁ exit t₂ hr₁ hw₁ hown hlead hswitch rfl
    by_cases hs : t₁.self.state = .auctionWaiting
    · rw [messageSwitch, bidBranch_waiting hs] at hswitch
      cases hswitch
      refine ⟨hr₁, hown, hlead, ?_⟩
      intro (hclosed : t₁.self.state = .closed)
      rw [hs] at hclosed
      cases hclosed
    · rw [messageSwitch, bidBranch_unexpected hs] at hswitch
      cases hswitch
      have hwait : t₁.self.auctionWait = true := hw'
      rw [hw₁] at hwait
      cases hwait
  obtain ⟨R, p, hload, -, hp⟩ := loadReservation_leads env hT hv
  obtain ⟨exit, t₂, hswitch, hleft⟩ := operatorCall_ok hload hrun
  refine hparked (t.loaded R p) hr hw ?_ ?_ hswitch hleft
  · rcases hp with ⟨rfl, -⟩ | ⟨a, rfl, -⟩
    · intro r h
      cases h
    · intro r h
      cases h
  · rintro b (hb : p = .listed b) -
    rcases hp with ⟨rfl, -⟩ | ⟨a, rfl, hhead⟩
    · cases hb
    · cases hb
      exact hhead

/-- The callback of a timer that is needed finds a handler that is not closed. -/
theorem TimeoutType.needed_open {type : TimeoutType} (hn : type.needed s = true) :
    s.state ≠ .closed := by
  intro hs
  cases type <;> simp [TimeoutType.needed, rollbackNeeded, hs] at hn

/-- A timeout leaves a blocked handler blocked, and takes its bids or its reservation. -/
theorem Handler.Blocked.timedOut {type : TimeoutType} {r : Except Fault Unit}
    (h : t.self.Blocked T t.resources) (hv : t.resources.Valid)
    (hp : t.self.reservation.Ok T t.resources) (ht : t.TimedOut type r t') :
    t'.self.Blocked T t'.resources := by
  cases ht with
  | idle hn => exact h
  | failed hn he =>
    exact ⟨h.running, h.owns, h.leads, fun hclosed => absurd hclosed (TimeoutType.needed_open hn)⟩
  | released hn hx hy ha =>
    rename_i b x y
    -- The pointer is an element of the list, so releasing it leaves the pointer as it is.
    obtain ⟨a, hpa⟩ : ∃ a, t.self.reservation = .listed a := by
      rcases hptr : t.self.reservation with _ | a | z
      · simp only [Thread.held, Held.read, hptr] at hx
        cases hx
      · exact ⟨a, rfl⟩
      · exact absurd hptr (h.owns z)
    have hptr : (t.held.released b y).pointer = .listed a := by
      simp only [Held.released, Held.write, Thread.held, hpa]
    have hlookup : ReservationList.lookup t.resources.reservations a = some x := by
      simp only [Thread.held, Held.read, hpa] at hx
      rcases hl : ReservationList.lookup t.resources.reservations a with _ | z
      · rw [hl] at hx
        cases hx
      · rw [hl] at hx
        cases hx
        rfl
    have hts : timestamp x.uuid = T := by
      rw [hpa] at hp
      exact hp.2 x (ReservationList.lookup_mem hlookup)
    have haddresses := Held.addresses_released (T := T) (b := b) (s := t.held) hv hx hy
    -- The first reservation of the session is the one that is erased.
    rw [findEqual_leads hv hlookup hts (h.leads a hpa)] at ha
    obtain rfl : a = b := Option.some.inj ha
    refine ⟨h.running, ?_, ?_, ?_⟩
    · intro z (hz : (t.held.released a y).pointer = .own z)
      rw [hptr] at hz
      cases hz
    · intro c (hc : (t.held.released a y).pointer = .listed c)
      rw [hptr] at hc
      cases hc
      exact (h.leads a hpa).of_filter haddresses
    · intro _
      refine Or.inr ⟨a, hptr, ?_⟩
      show a ∉ ReservationList.addresses
        (ReservationList.session T (t.held.released a y).resources.reservations)
      rw [haddresses]
      simp

/-- **A closed handler that goes on after its auction stays closed.** -/
theorem Handler.Blocked.wake_closed (h : t.self.Blocked T t.resources)
    (hp : t.self.reservation.Ok T t.resources) (hs : t.self.state = .closed)
    (hrun : (wake env me).run t = (.ok (), t')) : t'.self.state = .closed := by
  obtain ⟨-, -, -, -, hstate | hstate | ⟨-, hb, x, hx⟩⟩ := wake_cases hrun
  · exact hstate
  · exact hstate.trans hs
  · rcases h.closed hs with hempty | ⟨a, ha, hlacks⟩
    · exact absurd hempty hb
    · -- There is no reservation for the winners.
      simp only [Thread.held, Held.read, ha] at hx
      rcases hl : ReservationList.lookup t.resources.reservations a with _ | z
      · rw [hl] at hx
        cases hx
      · rw [ha] at hp
        have hmem := ReservationList.lookup_mem hl
        have hsession := ReservationList.mem_session.mpr ⟨hmem, hp.2 z hmem⟩
        exact absurd (ReservationList.mem_addresses hsession) hlacks

end Threads

/-! ## Blocked handlers of a node -/

/-- Every blocked handler is in the store. -/
def Node.Blocked (n : Node) : Prop :=
  ∀ i < n.handlers.length, (n.handler i).auctionWait = true →
    (∃ k, n.store.find? k = some i) ∧
      (n.handler i).Blocked (timestamp (n.handler i).uuid) n.resources

section Nodes

variable {env : Env} {n n₁ n' : Node} {h : HandlerId} {message : Message}
  {source : NodeIdentifier}

theorem Node.Blocked.initial : Node.initial.Blocked := fun i hi =>
  absurd hi (Nat.not_lt_zero i)

/-- The UUID of a handler does not matter, nor do its bids while it is open. -/
theorem Handler.Blocked.congr {T : Nat} {R : Resources} {s s' : Handler} (hs : s.Blocked T R)
    (hrun : s'.running = s.running) (hptr : s'.reservation = s.reservation)
    (hclosed : s'.state = .closed → s.state = .closed ∧ s'.bids = s.bids) : s'.Blocked T R := by
  refine ⟨hrun.trans hs.running, ?_, ?_, ?_⟩
  · rw [hptr]
    exact hs.owns
  · rw [hptr]
    exact hs.leads
  · intro h
    obtain ⟨hstate, hbids⟩ := hclosed h
    rw [hptr, hbids]
    exact hs.closed hstate

theorem Node.Blocked.found (hb : n.Blocked) (hn : n.Inv) {id : UUIDv4} (hf : Node.Found id n n₁) :
    n₁.Blocked := by
  intro i hi hw
  obtain ⟨u, hu, hts⟩ := hf.handler hn i
  rw [hf.length] at hi
  rw [hu] at hw
  obtain ⟨⟨k, hk⟩, hblocked⟩ := hb i hi hw
  obtain ⟨j, hj, -⟩ := (hf.renames hn).find?_of_eq_some hk
  refine ⟨⟨j, hj⟩, ?_⟩
  rw [hu, hf.resources, show timestamp (Handler.uuid _) = _ from hts]
  exact hblocked.congr rfl rfl fun h => ⟨h, rfl⟩

theorem Node.Blocked.withBid (hb : n.Blocked) (hh : h < n.handlers.length) {bid : Bid}
    (hs : (n.handler h).state = .auctionWaiting) : (n.withBid h bid).Blocked := by
  intro i hi hw
  rw [Node.withBid, Node.length_modifyHandler] at hi
  by_cases hih : i = h
  · subst hih
    rw [Node.withBid, Node.handler_modify_self hh] at hw ⊢
    obtain ⟨hk, hblocked⟩ := hb i hi hw
    refine ⟨hk, hblocked.congr rfl rfl ?_⟩
    intro (hclosed : (n.handler i).state = .closed)
    rw [hs] at hclosed
    cases hclosed
  · rw [Node.withBid, Node.handler_modify_ne hih] at hw ⊢
    exact hb i hi hw

/-- A round blocks at most its own handler. -/
theorem Node.Blocked.round (hb : n.Blocked) (hn : n.Inv) (hh : Node.Hands env message n n₁ h)
    {t : Thread}
    (hrun : (operatorCall env h (n₁.accepting h message source).handlers message).run
      (n₁.startThread h message source) = (.ok (), t)) : (Node.putThread t h n₁).Blocked := by
  obtain ⟨hconf, hmoves⟩ := hh.confined hn hrun
  have hn₁ := hh.inv hn
  obtain ⟨k₀, hk₀⟩ := hh.stored
  have hlt := hh.lt hn
  intro i hi hw
  rw [Node.length_putThread] at hi
  by_cases hih : i = h
  · subst hih
    rw [Node.handler_putThread_self hi] at hw ⊢
    -- The handler was not blocked when it took the message.
    have hopen : (n₁.startThread i message source).self.auctionWait = false := by
      have hstart : (n₁.startThread i message source).self.auctionWait =
          (n₁.handler i).auctionWait := by
        cases message <;> rfl
      rw [hstart]
      rcases hwait : (n₁.handler i).auctionWait with _ | _
      · rfl
      · rcases hh.old_or_new hi with hold | ⟨-, hnew⟩
        · obtain ⟨-, u, hu, -⟩ := hh.handler hn hold
          rw [hu] at hwait
          have hrunning := (hb i hold hwait).2.running
          have hstopped := hh.not_running
          rw [hu] at hstopped
          rw [show (n.handler i).running = false from hstopped] at hrunning
          cases hrunning
        · rw [hnew] at hwait
          cases hwait
    cases message with
    | bid v u value =>
      have hkept : Store.Renames (timestamp u) n₁.store t.store := by
        rcases hmoves with hren | ⟨_, _, _, hmessage, -⟩
        · exact hren
        · cases hmessage
      obtain ⟨j, hj, -⟩ := hkept.find?_of_eq_some hk₀
      refine ⟨⟨j, hj⟩, ?_⟩
      have huuid : timestamp t.self.uuid = timestamp (n₁.handler i).uuid :=
        ((startThread_filed hn₁ rfl hrun).2.1.moves hn₁ rfl).2
      rw [huuid]
      refine operatorCall_bid ?_ hn₁.valid ?_ hrun hopen hw
      · rw [Node.startThread_uuid]
      · rfl
    | ear | mar | acc | ref | rep =>
      have hwait := (hh.moved hn hrun).auctionWait (by intro _ _ _ hbid; cases hbid)
      rw [hopen, hw] at hwait
      cases hwait
  · rw [Node.handler_putThread_ne hih] at hw ⊢
    rcases hh.old_or_new hi with hold | ⟨hnew, -⟩
    · obtain ⟨-, u, hu, hts⟩ := hh.handler hn hold
      have hw' : (n.handler i).auctionWait = true := by
        rw [hu] at hw
        exact hw
      obtain ⟨⟨k, hk⟩, hblocked⟩ := hb i hold hw'
      obtain ⟨j, hj⟩ := hh.find? hn hk
      -- The round is one of another session.
      have hne : timestamp (n₁.handler i).uuid ≠ timestamp message.uuid := by
        intro heq
        refine hih (hn₁.eq_of_stored hj hk₀ ?_)
        rw [heq, hh.timestamp_eq hn]
      have hjts := (hn₁.stored j i hj).2
      refine ⟨hmoves.find?_of_ne hj (hjts ▸ hne), ?_⟩
      rw [hu] at hne ⊢
      rw [show timestamp (Handler.uuid _) = _ from hts] at hne ⊢
      exact (hblocked.of_session (hconf.session_eq hne)).congr rfl rfl fun h => ⟨h, rfl⟩
    · exact absurd hnew hih

theorem Node.Blocked.fired (hb : n.Blocked) (hn : n.Inv) {type : TimeoutType}
    {r : Except Fault Unit} {t : Thread} (ht : (n.thread h).TimedOut type r t) :
    (Node.putThread t h n).Blocked := by
  intro i hi hw
  rw [Node.length_putThread] at hi
  have hstore : (Node.putThread t h n).store = n.store := ht.store
  rw [hstore]
  by_cases hih : i = h
  · subst hih
    rw [Node.handler_putThread_self hi] at hw ⊢
    obtain ⟨hk, hblocked⟩ := hb i hi (ht.auctionWait.symm.trans hw)
    rw [ht.uuid]
    exact ⟨hk, Handler.Blocked.timedOut (t := n.thread i) hblocked hn.valid (hn.pointer i hi) ht⟩
  · rw [Node.handler_putThread_ne hih] at hw ⊢
    obtain ⟨hk, hblocked⟩ := hb i hi hw
    obtain ⟨p, hp⟩ := ht.addresses hn.valid (timestamp (n.handler i).uuid)
    exact ⟨hk, hblocked.of_filter hp⟩

theorem Node.Blocked.woken (hb : n.Blocked) {t : Thread}
    (hrun : (wake env h).run (n.thread h) = (.ok (), t)) : (Node.putThread t h n).Blocked := by
  obtain ⟨hresources, hstore, -, hwait, -⟩ := wake_cases hrun
  intro i hi hw
  rw [Node.length_putThread] at hi
  by_cases hih : i = h
  · subst hih
    rw [Node.handler_putThread_self hi, hwait] at hw
    cases hw
  · rw [Node.handler_putThread_ne hih] at hw ⊢
    obtain ⟨⟨k, hk⟩, hblocked⟩ := hb i hi hw
    exact ⟨⟨k, (congrArg (OrdMap.find? · k) hstore).trans hk⟩,
      hblocked.of_session (by rw [show (Node.putThread t h n).resources = _ from hresources]; rfl)⟩

theorem Node.Blocked.step (hb : n.Blocked) (hn : n.Inv) {action : Action}
    (hrun : (perform env action).run n = (.ok (), n')) : n'.Blocked := by
  cases hn.stepped hrun with
  | dropped hf => exact hb.found hn hf
  | bid hf hk hs => exact (hb.found hn hf).withBid ((hf.inv hn).stored _ _ hk).1 hs
  | round hh hcall => exact hb.round hn hh hcall
  | woken hwake => exact hb.woken hwake
  | fired hfire =>
    exact Node.Blocked.fired (n := n.expire _ _) hb (hn.expire _ _) (onTimeout_timedOut hfire)
  | marked => exact hb

/-! ## Closed handlers -/

/-- **A step of a node leaves a closed handler closed.** -/
theorem Node.Blocked.step_closed (hb : n.Blocked) (hn : n.Inv) {action : Action}
    (hen : action.enabled n) (hrun : (perform env action).run n = (.ok (), n')) {i : HandlerId}
    (hi : i < n.handlers.length) (hs : (n.handler i).state = .closed) :
    i < n'.handlers.length ∧ (n'.handler i).state = .closed := by
  -- The lookup of a message changes no state.
  have hfound : ∀ {id : UUIDv4} {n₁ : Node}, Node.Found id n n₁ →
      i < n₁.handlers.length ∧ (n₁.handler i).state = .closed := by
    intro id n₁ hf
    obtain ⟨u, hu, -⟩ := hf.handler hn i
    exact ⟨hf.length ▸ hi, by rw [hu]; exact hs⟩
  cases hn.stepped hrun with
  | dropped hf => exact hfound hf
  | bid hf hk hwaiting hrunning hbids =>
    rename_i n₁ h bid
    obtain ⟨hlt, hclosed⟩ := hfound hf
    have hih : i ≠ h := by
      rintro rfl
      rw [hclosed] at hwaiting
      cases hwaiting
    rw [Node.withBid, Node.length_modifyHandler, Node.handler_modify_ne hih]
    exact ⟨hlt, hclosed⟩
  | round hh hcall =>
    rename_i n₁ h t
    obtain ⟨hlt, u, hu, -⟩ := hh.handler hn hi
    -- A message is not handed to a closed handler.
    have hih : i ≠ h := by
      rintro rfl
      have hopen := hh.resumable
      rw [hu] at hopen
      simp only [hs, HandlerState.resumable] at hopen
      cases hopen
    rw [Node.length_putThread, Node.handler_putThread_ne hih, hu]
    exact ⟨hlt, hs⟩
  | woken hwake =>
    rename_i h t
    rw [Node.length_putThread]
    refine ⟨hi, ?_⟩
    by_cases hih : i = h
    · subst hih
      rw [Node.handler_putThread_self hi]
      exact (hb i hi hen.2).2.wake_closed (hn.pointer i hi) hs hwake
    · rw [Node.handler_putThread_ne hih]
      exact hs
  | fired hfire =>
    rename_i h type r t _ _
    rw [Node.length_putThread]
    refine ⟨hi, ?_⟩
    by_cases hih : i = h
    · subst hih
      rw [Node.handler_putThread_self (n := n.expire i type) hi]
      cases onTimeout_timedOut hfire with
      | idle => exact hs
      | failed => exact hs
      | released => rfl
    · rw [Node.handler_putThread_ne hih]
      exact hs
  | marked => exact ⟨hi, hs⟩

/-- The callbacks of a closed handler's timers do nothing. -/
theorem fireTimeout_closed (hs : (n.handler h).state = .closed) (type : TimeoutType) :
    (fireTimeout h type).run n = (.ok (), n.expire h type) := by
  have hrun : (runThread h (onTimeout type)).run (n.expire h type) = (.ok (), n.expire h type) := by
    rcases hcall : (onTimeout type).run ((n.expire h type).thread h) with ⟨r, t⟩
    have hput : (runThread h (onTimeout type)).run (n.expire h type) =
        (r, Node.putThread t h (n.expire h type)) := by
      simp only [runThread, zoom, hcall]
    rw [hput]
    cases onTimeout_timedOut hcall with
    | idle => rw [Node.putThread_thread]
    | failed hn he => exact absurd hs (TimeoutType.needed_open hn)
    | released hn => exact absurd hs (TimeoutType.needed_open hn)
  simp only [fireTimeout, hrun]

theorem Node.Reachable.blocked (hn : n.Reachable) : n.Blocked := by
  induction hn with
  | refl => exact Node.Blocked.initial
  | tail hrun hstep ih =>
    obtain ⟨env, action, -, hperform⟩ := hstep
    exact ih.step (Node.Reachable.inv hrun) hperform

/--
**CLOSED is final.** In every state after one in which a handler of the store is closed, it is
closed, and the callbacks of its timers leave the reservations as they are.
-/
theorem closed_final {k : UUIDv4} {m : Node} (hn : n.Reachable) (hk : n.store.find? k = some h)
    (hs : (n.handler h).state = .closed) (hrun : Relation.ReflTransGen Node.Step n m) :
    (m.handler h).state = .closed ∧
      ∀ type, ((fireTimeout h type).run m).2.resources = m.resources := by
  have hstays : h < m.handlers.length ∧ (m.handler h).state = .closed := by
    induction hrun with
    | refl => exact ⟨((Node.Reachable.inv hn).stored k h hk).1, hs⟩
    | tail hpast hstep ih =>
      obtain ⟨env, action, hen, hperform⟩ := hstep
      have hreach := Relation.ReflTransGen.trans hn hpast
      exact (Node.Reachable.blocked hreach).step_closed (Node.Reachable.inv hreach) hen hperform
        ih.1 ih.2
  refine ⟨hstays.2, ?_⟩
  intro type
  rw [fireTimeout_closed hstays.2]
  rfl

/-- A handler that an unexpected BID closes, and an ACC that comes after it. -/
theorem closed_final_bid : ∃ n m : Node, n.store.find? (sampleUuid 7 0) = some 0 ∧
    (n.handler 0).state = .closed ∧ (m.handler 0).state = .closed ∧
      ∀ type, ((fireTimeout 0 type).run m).2.resources = m.resources := by
  have hfirst : (performAll .sample [.receive (.bid 1 (sampleUuid 7 0) 1) ([6], .simulation)]
      .initial).any (fun n => n.store.find? (sampleUuid 7 0) = some 0 ∧
        (n.handler 0).state = .closed ∧ (performAll .sample
          [.receive (.acc 1 (sampleUuid 7 0)) ([6], .simulation)] n).isSome) = true := by
    decide +kernel
  obtain ⟨n, hn, hall⟩ := (Option.any_eq_true _ _).mp hfirst
  obtain ⟨hk, hs, hsome⟩ := of_decide_eq_true hall
  obtain ⟨m, hm⟩ := Option.isSome_iff_exists.mp hsome
  exact ⟨n, m, hk, hs, closed_final (performAll_steps hn) hk hs (performAll_steps hm)⟩

end Nodes

end Rankd

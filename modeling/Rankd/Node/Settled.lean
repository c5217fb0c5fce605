import Rankd.Node.ReplyRun

/-!
# Handlers that give back what they took

A handler that was never reserved is settled if its session has one reservation while it is at
work and none (but for a reserved one) after it closed. `Thread.Leaks` are the rounds that close
a handler over a pre-reservation, or take a second reservation for its session; every other
round leaves the handler settled or reserved (`operatorCall_settles`), and so do timeouts and
the end of an auction.
-/

namespace Rankd

open Infra Prog

/-- What a handler holds, by its state. -/
inductive Handler.Phase (T : Nat) (R : Resources) (s : Handler) : Prop
  | ready (hs : s.state = .ready) (hp : s.reservation = .null) (hfree : R.Free T)
  | holding {a : Nat} {x : Reservation}
    (hs : s.state = .preReserved ∨ s.state = .auctionWaiting ∨ s.state = .replenishing)
    (hp : s.reservation = .listed a) (hsole : R.Sole T a x)
    (hx : x.state = .preReserved ∨ x.state = .reserved)
  | closed (hs : s.state = .closed)
    (hr : R.Free T ∨ ∃ a x, R.Sole T a x ∧ x.state = .reserved)

/-- The same, and a blocked auction has a bid, unless a timeout has closed it. -/
structure Handler.Settled (T : Nat) (R : Resources) (s : Handler) : Prop where
  phase : s.Phase T R
  wait : s.auctionWait = true → s.running = true ∧
    (s.state = .auctionWaiting ∧ s.bids ≠ [] ∨
      s.state = .closed ∧ R.Free T ∧ ∃ a, s.reservation = .listed a)

/-- The reservation that `get_reservation_for` finds for a handler. -/
def Thread.found (env : Env) (t : Thread) : Option Reservation :=
  (t.resources.reservations.find? fun e => isSameTimestamp env.ulid e.2.uuid t.self.uuid).map (·.2)

/-- The session of the handler holds a pre-reservation. -/
def Thread.HoldsPre (env : Env) (t : Thread) : Prop :=
  ∃ x, t.found env = some x ∧ x.state = .preReserved

/-- There is no way to the listener with the given address. -/
def Env.NoConnection (env : Env) (address : Bytes) : Prop :=
  ∀ target, address.head? = some target → nearestConnections (getConnectionsTo env target) = []

/--
The message closes the handler while its session holds a pre-reservation, or takes a second one:

* an EAR for a pre-reservation that is refused or has no way on; a new EAR of a session that has a
  reservation; and a new EAR that is admitted without a way to its listener (B.1.2.2.1)
* a BID that is not expected
* a REF at a handler that is not filed under its UUID (at the others the loop of F.1 is undefined)
* a REP at the listener, or at a handler that is not filed under its UUID
-/
def Thread.Leaks (env : Env) (t : Thread) : Message → Prop
  | .ear _ uuid r =>
    if t.self.state = .preReserved then
      ∃ address x, listenerAddress env r.listenerLength r.listener = .ok address ∧
        t.found env = some x ∧ x.state = .preReserved ∧
        if iAmListener env r.listenerLength address = true ∨ t.store.contains uuid = false then
          env.assessment.admits r.priority (x.setUuid t.self.uuid) = false
        else env.NoConnection address
    else
      t.found env ≠ none ∨ ∃ address capabilities,
        listenerAddress env r.listenerLength r.listener = .ok address ∧
        iAmListener env r.listenerLength address = false ∧
        env.unmarshal r.payload = .ok capabilities ∧
        env.assessment.admits r.priority
          (builtReservation t.self.uuid r address capabilities) = true ∧
        env.NoConnection address
  | .mar .. | .acc .. => False
  | .bid .. => t.HoldsPre env ∧ t.self.state ≠ .auctionWaiting
  | .ref .. => t.HoldsPre env ∧ t.store.contains t.self.uuid = false
  | .rep _ _ listenerLength _ listener =>
    t.HoldsPre env ∧ ∃ address, listenerAddress env listenerLength listener = .ok address ∧
      (iAmListener env listenerLength address = true ∨ t.store.contains t.self.uuid = false)

section Sessions

variable {T T' : Nat} {R R' : Resources} {s : Handler}

theorem Handler.Phase.of_confined (h : s.Phase T R) (hne : T ≠ T') (hv : R'.Valid)
    (hc : Resources.Confined T' R R') : s.Phase T R' := by
  cases h with
  | ready hs hp hfree => exact .ready hs hp (hfree.of_confined hne hv hc)
  | holding hs hp hsole hx => exact .holding hs hp (hsole.of_confined hne hv hc) hx
  | closed hs hr =>
    refine .closed hs ?_
    rcases hr with hfree | ⟨a, x, hsole, hx⟩
    · exact Or.inl (hfree.of_confined hne hv hc)
    · exact Or.inr ⟨a, x, hsole.of_confined hne hv hc, hx⟩

/-- What happens to other sessions does not matter. -/
theorem Handler.Settled.of_confined (h : s.Settled T R) (hne : T ≠ T') (hv : R'.Valid)
    (hc : Resources.Confined T' R R') : s.Settled T R' := by
  refine ⟨h.phase.of_confined hne hv hc, ?_⟩
  intro hw
  obtain ⟨hr, hbid | ⟨hs, hfree, hp⟩⟩ := h.wait hw
  · exact ⟨hr, Or.inl hbid⟩
  · exact ⟨hr, Or.inr ⟨hs, hfree.of_confined hne hv hc, hp⟩⟩

/-- A handler that is not blocked. -/
theorem Handler.Phase.settled (h : s.Phase T R) (hw : s.auctionWait = false) : s.Settled T R := by
  refine ⟨h, ?_⟩
  intro hw'
  rw [hw] at hw'
  cases hw'

/-- A session that may be closed holds nothing that is not reserved. -/
theorem Handler.Phase.closed_over {a : Nat} {x : Reservation} (hs : s.state = .closed)
    (hsole : R.Sole T a x) (hx : x.state = .preReserved ∨ x.state = .reserved)
    (hpre : x.state ≠ .preReserved) : s.Phase T R :=
  .closed hs (Or.inr ⟨a, x, hsole, hx.resolve_left hpre⟩)

end Sessions

/-! ## Rounds -/

section Rounds

variable {env : Env} {me : HandlerId} {peers : List Handler} {t t' : Thread} {T a : Nat}
  {x : Reservation} {message : Message} {exit : Exit}

theorem Thread.found_sole (h : t.resources.Sole T a x) (hT : timestamp t.self.uuid = T) :
    t.found env = some x := by
  rw [Thread.found, h.find?_eq_some env.ulid hT]
  rfl

/-- A round that left the handler reserved or settled. -/
def Thread.Ends (T : Nat) (t : Thread) : Prop :=
  t.self.state = .reserved ∨ t.self.Settled T t.resources

theorem Thread.Ends.left (h : t.Ends T) (exit : Exit) : (t.left exit).Ends T := by
  cases exit with
  | breaks =>
    rcases h with hs | ⟨hphase, hw⟩
    · exact Or.inl hs
    · refine Or.inr ⟨?_, hw⟩
      cases hphase with
      | ready hs hp hfree => exact .ready hs hp hfree
      | holding hs hp hsole hx => exact .holding hs hp hsole hx
      | closed hs hr => exact .closed hs hr
  | returns => exact h
  | waits => exact h

/-- An EAR that went on toward its listener took one reservation with it. -/
theorem Forwarded.ends {target : UInt8} (hf : Forwarded env me target a x t exit t')
    (hsole : t.resources.Sole T a x) (hx : x.state = .preReserved ∨ x.state = .reserved)
    (hw : t.self.auctionWait = false)
    (hstuck : nearestConnections (getConnectionsTo env target) = [] → x.state ≠ .preReserved) :
    t'.Ends T := by
  refine Or.inr ?_
  have hput : (t.resources.put a (x.setPastNode t.self.sourceIdentifier)).Sole T a
      (x.setPastNode t.self.sourceIdentifier) := hsole.put hsole.mem.2
  cases hf with
  | stuck hc => exact (Handler.Phase.closed_over rfl hsole hx (hstuck hc)).settled hw
  | single hc => exact (Handler.Phase.holding (Or.inl rfl) rfl hput hx).settled hw
  | auction hc => exact (Handler.Phase.holding (Or.inr (Or.inl rfl)) rfl hput hx).settled hw

/-- A round of a new handler, whose session has no reservation. -/
theorem messageSwitch_ready (hfree : t.resources.Free T) (hp : t.self.reservation = .null)
    (hs : t.self.state = .ready) (hT : timestamp t.self.uuid = T) (hm : timestamp message.uuid = T)
    (hw : t.self.auctionWait = false)
    (hstore : ∀ k h, t.store.find? k = some h → timestamp k = T → h = me)
    (hleak : ¬t.Leaks env message)
    (hrun : (messageSwitch env me peers message).run t = (.ok exit, t')) : t'.Ends T := by
  have hclosed : ∀ {s : Handler}, s.state = .closed → s.auctionWait = false →
      s.Settled T t.resources := fun hc hw => (Handler.Phase.closed hc (Or.inl hfree)).settled hw
  cases message with
  | ear v uuid r =>
    have htaken : EarTaken env me r t exit t' := earBranch_ok hfree hT (by rw [hs]; simp)
      (fun h hh => hstore uuid h hh hm) hrun
    cases htaken with
    | unreadable => exact Or.inr (hclosed rfl hw)
    | refused ht => exact Or.inr (hclosed rfl hw)
    | accepted hl hme ht => exact Or.inl rfl
    | forwarded hl hme hu ha ht hf =>
      refine hf.ends (hfree.push hT) (Or.inl rfl) hw ?_
      intro hc
      refine absurd ?_ hleak
      rw [Thread.Leaks, if_neg (by rw [hs]; simp)]
      refine Or.inr ⟨_, _, hl, hme, hu, ha, ?_⟩
      intro target' htarget'
      rw [ht] at htarget'
      cases htarget'
      exact hc
  | mar v uuid r =>
    have htaken : MarTaken me t exit t' := marBranch_ok hfree hT hrun
    cases htaken with
    | unreadable => exact Or.inr (hclosed rfl hw)
    | refused => exact Or.inr (hclosed rfl hw)
    | bid hy hu =>
      refine Or.inr
        ((Handler.Phase.holding (Or.inl rfl) rfl (hfree.push ?_) (Or.inl hy)).settled hw)
      rw [hu]
      exact hT
  | bid v uuid value =>
    rw [messageSwitch, bidBranch_unexpected (by rw [hs]; simp)] at hrun
    cases hrun
    exact Or.inr (hclosed rfl hw)
  | acc v uuid => exact absurd hrun (accBranch_null hp (by rw [hs]; simp))
  | ref v uuid =>
    obtain ⟨-, hans⟩ := refBranch_ok hrun
    refine Or.inr ?_
    rcases hans.state with hc | hc
    · rw [hans.resources]
      exact hclosed hc (hans.wait.trans hw)
    · rw [hans.resources]
      exact (Handler.Phase.ready (hc.trans hs) (hans.pointer.trans hp) hfree).settled
        (hans.wait.trans hw)
  | rep v uuid code reserved listener =>
    obtain ⟨-, address, sends, -, ⟨-, -, rfl⟩ | ⟨-, hnull, -⟩⟩ := repBranch_ok hrun
    · exact Or.inr (hclosed rfl hw)
    · exact absurd hp hnull

theorem Reservation.state_ne_created (hx : x.state = .preReserved ∨ x.state = .reserved) :
    x.state ≠ .created := by
  rcases hx with hx | hx
  · rw [hx]
    nofun
  · rw [hx]
    nofun

/-- An EAR at a handler whose session has one reservation. -/
theorem earBranch_holding {v : UInt8} {uuid : UUIDv4} {r : Request}
    (hsole : t.resources.Sole T a x) (hx : x.state = .preReserved ∨ x.state = .reserved)
    (hp : t.self.reservation = .listed a) (hu : x.uuid = t.self.uuid)
    (hw : t.self.auctionWait = false) (hstore : ∀ h, t.store.find? uuid = some h → h = me)
    (hleak : ¬t.Leaks env (.ear v uuid r))
    (hrun : (messageSwitch env me peers (.ear v uuid r)).run t = (.ok exit, t')) : t'.Ends T := by
  have hfound : t.found env = some x := by
    refine Thread.found_sole hsole ?_
    rw [← hu]
    exact hsole.mem.2
  by_cases hpre : t.self.state = .preReserved
  · have hheld : EarHeld env me uuid r a x t exit t' := earBranch_held hsole hp hu
      (Reservation.state_ne_created hx) hpre hstore hrun
    have hsame : x.setUuid t.self.uuid = x := by
      rw [← hu]
      rfl
    cases hheld with
    | granted hs => exact Or.inl hs
    | refused hl hme ha hy hyu =>
      have hput := hsole.put (y := _) (by rw [hyu]; exact hsole.mem.2)
      refine Or.inr (Handler.Phase.settled ?_ hw)
      refine Handler.Phase.closed_over rfl hput (by rw [hy]; exact hx) ?_
      rw [hy]
      intro hxpre
      refine hleak ?_
      rw [Thread.Leaks, if_pos hpre]
      refine ⟨_, x, hl, hfound, hxpre, ?_⟩
      rw [if_pos hme, hsame]
      exact ha
    | forwarded hl hme hstored ht hf =>
      refine hf.ends hsole hx hw ?_
      intro hc hxpre
      refine hleak ?_
      rw [Thread.Leaks, if_pos hpre]
      refine ⟨_, x, hl, hfound, hxpre, ?_⟩
      rw [if_neg (by simp [hme, hstored])]
      intro target' htarget'
      rw [ht] at htarget'
      cases htarget'
      exact hc
  · refine absurd ?_ hleak
    rw [Thread.Leaks, if_neg hpre, hfound]
    exact Or.inl nofun

/-- A round of a handler whose session has one reservation. -/
theorem messageSwitch_holding (hsole : t.resources.Sole T a x)
    (hx : x.state = .preReserved ∨ x.state = .reserved) (hp : t.self.reservation = .listed a)
    (hu : x.uuid = t.self.uuid)
    (hs : t.self.state = .preReserved ∨ t.self.state = .auctionWaiting ∨
      t.self.state = .replenishing)
    (hm : timestamp message.uuid = T) (hq : ∀ v u r, message ≠ .mar v u r)
    (hr : t.self.running = true) (hw : t.self.auctionWait = false)
    (hstore : ∀ k h, t.store.find? k = some h → timestamp k = T → h = me)
    (hleak : ¬t.Leaks env message)
    (hrun : (messageSwitch env me peers message).run t = (.ok exit, t')) : t'.Ends T := by
  have hT : timestamp t.self.uuid = T := by
    rw [← hu]
    exact hsole.mem.2
  have hfound : t.found env = some x := Thread.found_sole hsole hT
  have hreserved : t.self.state ≠ .reserved := by
    rcases hs with hs | hs | hs
    · rw [hs]
      nofun
    · rw [hs]
      nofun
    · rw [hs]
      nofun
  -- Where the handler is closed, a pre-reservation would be a leak.
  have hclosed : ∀ {s : Handler}, s.state = .closed → s.auctionWait = false →
      ¬t.HoldsPre env → s.Settled T t.resources := by
    intro s hc hwait hpre
    exact (Handler.Phase.closed_over hc hsole hx fun h => hpre ⟨x, hfound, h⟩).settled hwait
  cases message with
  | ear v uuid r =>
    exact earBranch_holding hsole hx hp hu hw (fun h hh => hstore uuid h hh hm) hleak hrun
  | mar v uuid r => exact absurd rfl (hq v uuid r)
  | bid v uuid value =>
    by_cases hwaiting : t.self.state = .auctionWaiting
    · rw [messageSwitch, bidBranch_waiting hwaiting] at hrun
      cases hrun
      refine Or.inr ⟨.holding (Or.inr (Or.inl hwaiting)) hp hsole hx, fun _ => ⟨hr, Or.inl ?_⟩⟩
      exact ⟨hwaiting, setInsert_ne_nil _ _ _⟩
    · rw [messageSwitch, bidBranch_unexpected hwaiting] at hrun
      cases hrun
      exact Or.inr (hclosed rfl hw fun hpre => hleak ⟨hpre, hwaiting⟩)
  | acc v uuid =>
    obtain ⟨-, -, hgranted | ⟨store, uuid', rfl⟩⟩ :=
      accBranch_ok hsole hp (Reservation.state_ne_created hx) hreserved hrun
    · exact Or.inl hgranted
    · have hput : (t.resources.put a { x with state := .reserved }).Sole T a
          { x with state := .reserved } := hsole.put hsole.mem.2
      refine Or.inr (Handler.Phase.settled ?_ hw)
      exact .holding hs rfl hput (Or.inr rfl)
  | ref v uuid =>
    have hpre : ¬t.HoldsPre env := by
      rintro ⟨y, hy, hypre⟩
      obtain rfl := Option.some.inj (hfound.symm.trans hy)
      rcases hstored : t.store.find? t.self.uuid with _ | h
      · exact hleak ⟨⟨x, hfound, hypre⟩, OrdMap.contains_eq_false.mpr hstored⟩
      · -- the round does not come to its end
        obtain rfl := hstore _ h hstored hT
        rw [messageSwitch, refBranch, bind_error (refErase_faults hstored hp hsole.lookup hypre)]
          at hrun
        cases hrun
    obtain ⟨-, hans⟩ := refBranch_ok hrun
    refine Or.inr ?_
    rw [hans.resources]
    rcases hans.state with hc | hc
    · exact hclosed hc (hans.wait.trans hw) hpre
    · exact (Handler.Phase.holding (by rw [hc]; exact hs) (hans.pointer.trans hp) hsole hx).settled
        (hans.wait.trans hw)
  | rep v uuid code reserved listener =>
    obtain ⟨-, address, sends, hl, ⟨hme, -, rfl⟩ | ⟨-, -, -, rfl⟩⟩ := repBranch_ok hrun
    · exact Or.inr (hclosed rfl hw fun hpre => hleak ⟨hpre, address, hl, hme⟩)
    · refine Or.inr (Handler.Phase.settled ?_ hw)
      exact .holding (Or.inr (Or.inr rfl)) hp hsole hx

/-- Looking the reservation up changes nothing that matters. -/
theorem Thread.Leaks.of_loaded {R : Resources} {p : ReservationPtr}
    (hf : (t.loaded R p).found env = (t.found env).map (·.setUuid t.self.uuid))
    (h : (t.loaded R p).Leaks env message) : t.Leaks env message := by
  have hpre : (t.loaded R p).HoldsPre env → t.HoldsPre env := by
    rintro ⟨y, hy, hstate⟩
    rw [hf] at hy
    obtain ⟨x, hx, rfl⟩ := Option.map_eq_some_iff.mp hy
    exact ⟨x, hx, hstate⟩
  cases message with
  | ear v uuid r =>
    by_cases hs : t.self.state = .preReserved
    · have hs' : (t.loaded R p).self.state = .preReserved := hs
      rw [Thread.Leaks, if_pos hs]
      rw [Thread.Leaks, if_pos hs'] at h
      obtain ⟨address, y, hl, hy, hstate, hrest⟩ := h
      rw [hf] at hy
      obtain ⟨x, hx, rfl⟩ := Option.map_eq_some_iff.mp hy
      exact ⟨address, x, hl, hx, hstate, hrest⟩
    · have hs' : ¬(t.loaded R p).self.state = .preReserved := hs
      rw [Thread.Leaks, if_neg hs]
      rw [Thread.Leaks, if_neg hs', hf] at h
      rcases h with hne | h
      · refine Or.inl ?_
        intro hnone
        rw [hnone] at hne
        exact hne rfl
      · exact Or.inr h
  | mar v uuid r => exact h
  | acc v uuid => exact h
  | bid v uuid value => exact ⟨hpre h.1, h.2⟩
  | ref v uuid => exact ⟨hpre h.1, h.2⟩
  | rep v uuid code reserved listener => exact ⟨hpre h.1, h.2⟩

/-- **A round of a settled handler leaves it settled or reserved**, unless it leaks. -/
theorem operatorCall_settles (hphase : t.self.Phase T t.resources) (hT : timestamp t.self.uuid = T)
    (hm : timestamp message.uuid = T) (hopen : t.self.state ≠ .closed)
    (hq : ∀ v u r, message = .mar v u r → t.self.state = .ready)
    (hr : t.self.running = true) (hw : t.self.auctionWait = false)
    (hstore : ∀ k h, t.store.find? k = some h → timestamp k = T → h = me)
    (hleak : ¬t.Leaks env message)
    (hrun : (operatorCall env me peers message).run t = (.ok (), t')) : t'.Ends T := by
  cases hphase with
  | ready hs hp hfree =>
    obtain ⟨exit, t₂, hswitch, rfl⟩ := operatorCall_ok (loadReservation_free hfree hT) hrun
    have hfound : t.found env = none := by
      rw [Thread.found, hfree.find?_eq_none env.ulid hT]
      rfl
    have hleak' : ¬(t.loaded t.resources .null).Leaks env message := by
      intro h
      refine hleak (h.of_loaded ?_)
      rw [hfound]
      exact hfound
    exact (messageSwitch_ready (t := t.loaded t.resources .null) hfree rfl hs hT hm hw hstore hleak'
      hswitch).left exit
  | holding hs hp hsole hx =>
    rename_i a x
    obtain ⟨exit, t₂, hswitch, rfl⟩ := operatorCall_ok (loadReservation_sole hsole hT) hrun
    have hput : (t.resources.put a (x.setUuid t.self.uuid)).Sole T a (x.setUuid t.self.uuid) :=
      hsole.put hT
    have hleak' : ¬(t.loaded (t.resources.put a (x.setUuid t.self.uuid)) (.listed a)).Leaks env
        message := by
      intro h
      refine hleak (h.of_loaded ?_)
      rw [Thread.found_sole hsole hT]
      exact Thread.found_sole hput hT
    have hmar : ∀ v u r, message ≠ .mar v u r := by
      intro v u r hmessage
      rw [hq v u r hmessage] at hs
      simp at hs
    exact (messageSwitch_holding (t := t.loaded _ _) hput hx rfl rfl hs hm hmar hr hw hstore hleak'
      hswitch).left exit
  | closed hs hr => exact absurd hs hopen

/-- A REF that the process survives erases no entry of the store. -/
theorem operatorCall_ref_kept {v : UInt8} {u : UUIDv4} (hv : t.resources.Valid)
    (hrun : (operatorCall env me peers (.ref v u)).run t = (.ok (), t')) : t'.store = t.store := by
  have hkept : ∀ {R : Resources} {p : ReservationPtr},
      (loadReservation env).run t = (.ok (), t.loaded R p) → t'.store = t.store := by
    intro R p hload
    obtain ⟨exit, t₂, hswitch, rfl⟩ := operatorCall_ok hload hrun
    obtain ⟨-, hans⟩ := refBranch_ok (t := t.loaded R p) hswitch
    cases exit <;> exact hans.store
  rcases hf : t.resources.reservations.find?
    (fun e => isSameTimestamp env.ulid e.2.uuid t.self.uuid) with _ | ⟨a, x⟩
  · exact hkept (loadReservation_none hf)
  · obtain ⟨R, y, hload, -, -⟩ := loadReservation_first hv hf
    exact hkept hload

end Rounds

/-! ## Timeouts and auctions -/

section Callbacks

variable {env : Env} {me : HandlerId} {t t' : Thread} {T a : Nat} {x : Reservation}
  {result : Except Fault Unit}

theorem replenishReservation_null {R : Resources} {s : Held}
    (hrun : replenishReservation.run ⟨R, .null⟩ = (result, s)) :
    (∃ e, result = .error e) ∧ s = ⟨R, .null⟩ := by
  rw [replenishReservation, bind_ok (run_get _)] at hrun
  split_ifs at hrun
  · cases hrun
    exact ⟨⟨_, rfl⟩, rfl⟩
  · have hread : deref.run ⟨R, .null⟩ = (.error .nullPointer, ⟨R, .null⟩) := rfl
    rw [bind_error hread] at hrun
    cases hrun
    exact ⟨⟨_, rfl⟩, rfl⟩

/-- Without a reservation, the callback of a timer stops where it would give it back. -/
theorem replenishAndClose_null (hp : t.self.reservation = .null)
    (hrun : (do onReservation replenishReservation; setState .closed : ThreadM Unit).run t =
      (result, t')) : t' = t := by
  rcases hr : replenishReservation.run ⟨t.resources, t.self.reservation⟩ with ⟨r, s⟩
  have hnull := hr
  rw [hp] at hnull
  obtain ⟨⟨e, rfl⟩, rfl⟩ := replenishReservation_null hnull
  rw [bind_error (run_onReservation hr)] at hrun
  cases hrun
  rw [← hp]
  rfl

/-- A handler without a reservation has nothing to give back. -/
theorem onTimeout_null {type : TimeoutType} (hp : t.self.reservation = .null)
    (hrun : (onTimeout type).run t = (result, t')) : t'.toShared = t.toShared := by
  have hrollback : rollback.run t = (result, t') → t'.toShared = t.toShared := by
    intro hrun
    rw [rollback, bind_ok (run_get t)] at hrun
    split_ifs at hrun
    · have hbids : (modifySelf fun s => { s with bids := [] }).run t = (.ok (), t.unbid) := rfl
      rw [bind_ok hbids] at hrun
      rw [replenishAndClose_null (t := t.unbid) hp hrun]
      rfl
    · cases hrun
      rfl
  cases type with
  | ear => exact hrollback hrun
  | mar => exact hrollback hrun
  | bid => exact hrollback hrun
  | auct =>
    cases hrun
    rfl
  | rep =>
    rw [onTimeout, onRepTimeout, bind_ok (run_get t)] at hrun
    split_ifs at hrun
    · rw [replenishAndClose_null hp hrun]
    · cases hrun
      rfl

/-- **A timeout leaves a settled handler settled**, whether or not its callback faults. -/
theorem onTimeout_settles {type : TimeoutType} (h : t.self.Settled T t.resources)
    (hrun : (onTimeout type).run t = (result, t')) : t'.self.Settled T t'.resources := by
  -- A reservation that is given back leaves the session free.
  have hrolled : ∀ {a : Nat} {x : Reservation} {s : Thread}, s.resources = t.resources →
      s.self.auctionWait = t.self.auctionWait → s.self.running = t.self.running →
      t.resources.Sole T a x → (s.rolledBack a).self.Settled T (s.rolledBack a).resources := by
    intro a x s hres hwait hr hsole
    have hfree : (s.rolledBack a).resources.Free T := by
      have := hsole.remove
      rw [← hres] at this
      exact this
    refine ⟨.closed rfl (Or.inl hfree), ?_⟩
    intro hw
    have hw' : t.self.auctionWait = true := hwait.symm.trans hw
    exact ⟨hr.trans (h.wait hw').1, Or.inr ⟨rfl, hfree, a, rfl⟩⟩
  have hrollback : rollback.run t = (result, t') → t'.self.Settled T t'.resources := by
    intro hrun
    cases h.phase with
    | ready hs hp hfree =>
      have hneeded : rollbackNeeded t.self = true := by simp [rollbackNeeded, hs]
      have hbids : (modifySelf fun s => { s with bids := [] }).run t = (.ok (), t.unbid) := rfl
      rw [rollback, bind_ok (run_get t), if_pos hneeded, bind_ok hbids] at hrun
      rw [replenishAndClose_null (t := t.unbid) hp hrun]
      refine ⟨.ready hs hp hfree, ?_⟩
      intro hw
      obtain ⟨-, ⟨hs', -⟩ | ⟨hs', -⟩⟩ := h.wait hw
      · rw [hs] at hs'
        cases hs'
      · rw [hs] at hs'
        cases hs'
    | holding hs hp hsole hx =>
      have hneeded : rollbackNeeded t.self = true := by
        rcases hs with hs | hs | hs <;> simp [rollbackNeeded, hs]
      rw [rollback_run hsole hp hx hneeded] at hrun
      cases hrun
      exact hrolled (s := t.unbid) rfl rfl rfl hsole
    | closed hs hr =>
      rw [rollback_idle (by simp [rollbackNeeded, hs])] at hrun
      cases hrun
      exact h
  cases type with
  | ear => exact hrollback hrun
  | mar => exact hrollback hrun
  | bid => exact hrollback hrun
  | auct =>
    cases hrun
    exact h
  | rep =>
    cases h.phase with
    | ready hs hp hfree =>
      rw [onTimeout, onRepTimeout, bind_ok (run_get t), if_pos (by simp [hs])] at hrun
      rw [replenishAndClose_null hp hrun]
      exact h
    | holding hs hp hsole hx =>
      have hopen : t.self.state ≠ .closed := by
        rcases hs with hs | hs | hs <;> simp [hs]
      rw [onTimeout, onRepTimeout_run hsole hp hx hopen] at hrun
      cases hrun
      exact hrolled rfl rfl rfl hsole
    | closed hs hr =>
      rw [onTimeout, onRepTimeout_idle hs] at hrun
      cases hrun
      exact h

/-- **The end of an auction leaves a settled handler settled.** -/
theorem wake_settles (h : t.self.Settled T t.resources) (hw : t.self.auctionWait = true)
    (hp : t.self.reservation.Ok T t.resources)
    (hrun : (wake env me).run t = (.ok (), t')) : t'.self.Settled T t'.resources := by
  obtain ⟨exit, t₁, hend, rfl⟩ := wake_ok hrun
  obtain ⟨-, ⟨hs, hb⟩ | ⟨hs, hfree, a, ha⟩⟩ := h.wait hw
  · obtain ⟨rfl, -, hsame, hstate, -⟩ := auctionEnd_ok (t := t.unblocked) hb hend
    cases h.phase with
    | ready hs' hp hfree =>
      rw [hs] at hs'
      cases hs'
    | holding hs' hp' hsole hx =>
      refine Handler.Phase.settled ?_ hsame.wait
      have hres : t₁.resources = t.resources := hsame.resources
      refine .holding ?_ (hsame.pointer.trans hp') (by rw [← hres] at hsole; exact hsole) hx
      rcases hstate with ⟨hstate, -⟩ | ⟨-, hstate⟩
      · exact Or.inl hstate
      · exact Or.inr (Or.inl (hstate.trans hs))
    | closed hs' hr =>
      rw [hs] at hs'
      cases hs'
  · by_cases hb : t.self.bids = []
    · obtain ⟨rfl, rfl⟩ := auctionEnd_empty (t := t.unblocked) hb hend
      exact Handler.Phase.settled (.closed rfl (Or.inl hfree)) rfl
    · obtain ⟨rfl, -, hsame, hstate, -⟩ := auctionEnd_ok (t := t.unblocked) hb hend
      have hres : t₁.resources = t.resources := hsame.resources
      rcases hstate with ⟨-, x, hread⟩ | ⟨-, hstate⟩
      · -- The timeout took the reservation, so there is nothing for the winners.
        have hdangling : ReservationList.lookup t.resources.reservations a = none := by
          rcases hl : ReservationList.lookup t.resources.reservations a with _ | y
          · rfl
          · rw [ha] at hp
            have hmem := ReservationList.lookup_mem hl
            have hsession := ReservationList.mem_session.mpr ⟨hmem, hp.2 y hmem⟩
            rw [hfree.session] at hsession
            cases hsession
        have hread' : Held.read ⟨t.resources, t.self.reservation⟩ = .ok x := hread
        simp only [Held.read, ha, hdangling] at hread'
        cases hread'
      · refine Handler.Phase.settled ?_ hsame.wait
        exact .closed (hstate.trans hs) (Or.inl (by rw [← hres] at hfree; exact hfree))

end Callbacks

end Rankd

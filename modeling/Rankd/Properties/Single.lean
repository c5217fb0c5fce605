import Rankd.Node.Filed
import Rankd.Node.Marking
import Rankd.Properties.Granted
import Rankd.Properties.Rollback

/-!
# One reservation per session

`available_for_performance` adds a reservation without a look at the list, and it is called for an
EAR and for a MAR. `Thread.Doubles` are the rounds that add a second reservation for a session.
Without them, and without timers of handlers that are not in the store any more, every session has
at most one reservation, and exactly a RESERVED one while its handler is RESERVED
(`single_of_clean`).

* `messageSwitch_free`, `messageSwitch_sole`: a round of a session without and with a reservation
* `Node.Single.step`: what one step keeps
-/

namespace Rankd

open Infra Prog

/-- The only reservation of the session is RESERVED. -/
def Resources.Secures (T : Nat) (R : Resources) : Prop :=
  ∃ a x, R.Sole T a x ∧ x.state = .reserved

/-- At most one reservation of the session, and a RESERVED one if the handler is RESERVED. -/
structure Thread.Single (T : Nat) (t : Thread) : Prop where
  few : (ReservationList.session T t.resources.reservations).length ≤ 1
  secured : t.self.state = .reserved → t.resources.Secures T

/-- A request that is readable and admitted. -/
def Thread.Admits (env : Env) (t : Thread) (r : Request) : Prop :=
  ∃ address capabilities, listenerAddress env r.listenerLength r.listener = .ok address ∧
    env.unmarshal r.payload = .ok capabilities ∧ env.assessment.admits r.priority
      (builtReservation t.self.uuid r address capabilities) = true

/--
The message adds a reservation for a session that has one:

* an EAR for this node, at a handler that holds a pre-reservation that is admitted again
* any other EAR, and a MAR, that is admitted
-/
def Thread.Doubles (env : Env) (t : Thread) : Message → Prop
  | .ear _ _ r => ∃ x, t.found env = some x ∧
      if t.self.state = .preReserved then
        ∃ address, listenerAddress env r.listenerLength r.listener = .ok address ∧
          iAmListener env r.listenerLength address = true ∧
          env.assessment.admits r.priority (x.setUuid t.self.uuid) = true
      else t.Admits env r
  | .mar _ _ r => t.found env ≠ none ∧ t.Admits env r
  | .bid .. | .acc .. | .ref .. | .rep .. => False

/-! ## Rounds -/

section Rounds

variable {env : Env} {me : HandlerId} {peers : List Handler} {t t' : Thread} {T a : Nat}
  {x : Reservation} {message : Message} {exit : Exit}

theorem Resources.Free.few {R : Resources} (h : R.Free T) :
    (ReservationList.session T R.reservations).length ≤ 1 := by
  rw [h.session]
  exact Nat.zero_le 1

theorem Resources.Sole.few {R : Resources} (h : R.Sole T a x) :
    (ReservationList.session T R.reservations).length ≤ 1 := by
  rw [h.session]
  exact Nat.le_refl 1

theorem Resources.Sole.secures {R : Resources} (h : R.Sole T a x) (hx : x.state = .reserved) :
    R.Secures T := ⟨a, x, h, hx⟩

theorem Resources.Free.not_secures {R : Resources} (h : R.Free T) : ¬R.Secures T := by
  rintro ⟨a, x, hsole, -⟩
  have hnil := hsole.session
  rw [h.session] at hnil
  cases hnil

/-- A session with at most one reservation has none or one. -/
theorem Resources.Valid.free_or_sole {R : Resources} (hv : R.Valid)
    (h : (ReservationList.session T R.reservations).length ≤ 1) :
    R.Free T ∨ ∃ a x, R.Sole T a x := by
  rcases hs : ReservationList.session T R.reservations with _ | ⟨⟨a, x⟩, _ | ⟨e, rest⟩⟩
  · exact Or.inl ⟨hv, hs⟩
  · exact Or.inr ⟨a, x, hv, hs⟩
  · rw [hs] at h
    simp at h

theorem Resources.Sole.first (h : t.resources.Sole T a x) (hu : x.uuid = t.self.uuid) :
    t.First a x := by
  obtain ⟨l₁, l₂, hl, h₁, -⟩ := h.split
  refine ⟨⟨l₁, l₂, hl, ?_⟩, hu⟩
  intro e he
  rw [← hu, h.mem.2]
  exact h₁ e he

/-- The first reservation of a session is the only one. -/
theorem Resources.Sole.eq_of_first {b : Nat} {y : Reservation} (h : t.resources.Sole T a x)
    (hT : timestamp t.self.uuid = T) (hfirst : t.First b y) : b = a ∧ y = x := by
  obtain ⟨l₁, l₂, hl, -⟩ := hfirst.split
  have hmem : (b, y) ∈ ReservationList.session T t.resources.reservations := by
    refine ReservationList.mem_session.mpr ⟨by simp [hl], ?_⟩
    rw [hfirst.uuid, hT]
  rw [h.session, List.mem_singleton] at hmem
  exact Prod.mk.inj hmem

/-- The reservations are as before, and the handler is not newly RESERVED. -/
theorem Thread.Single.same (h : t.Single T) (hres : t'.resources = t.resources)
    (hs : t'.self.state = .reserved → t.self.state = .reserved) : t'.Single T := by
  refine ⟨?_, ?_⟩
  · rw [hres]
    exact h.few
  · intro hstate
    rw [hres]
    exact h.secured (hs hstate)

theorem Thread.Single.closed (h : t.Single T) (hres : t'.resources = t.resources)
    (hs : t'.self.state = .closed) : t'.Single T :=
  h.same hres fun hr => by rw [hs] at hr; cases hr

/-- One reservation is left, and the handler is not RESERVED. -/
theorem Resources.Sole.single (h : t'.resources.Sole T a x) (hs : t'.self.state ≠ .reserved) :
    t'.Single T := ⟨h.few, fun hr => absurd hr hs⟩

/-- An EAR that goes on toward its listener leaves one reservation. -/
theorem Forwarded.few {target : UInt8} (hf : Forwarded env me target a x t exit t')
    (hsole : t.resources.Sole T a x) : t'.Single T := by
  have hput : (t.resources.put a (x.setPastNode t.self.sourceIdentifier)).Sole T a
      (x.setPastNode t.self.sourceIdentifier) := hsole.put hsole.mem.2
  cases hf with
  | stuck hc => exact Resources.Sole.single hsole nofun
  | single hc => exact Resources.Sole.single hput nofun
  | auction hc => exact Resources.Sole.single hput nofun

/-- A request that is refused at a handler without a pre-reservation. -/
theorem earBranch_refused {r : Request} {uuid : UUIDv4} (hs : t.self.state ≠ .preReserved)
    (hstore : ∀ h, t.store.find? uuid = some h → h = me) (hno : ¬t.Admits env r)
    (hrun : (earBranch env me peers uuid r).run t = (.ok exit, t')) :
    t'.resources = t.resources ∧ t'.self.state = .closed := by
  obtain ⟨address, hl, ⟨-, -, rfl⟩ | ⟨capabilities, hu, hbranch⟩⟩ := earBranch_new hs hrun
  · exact ⟨rfl, rfl⟩
  have ha : env.assessment.admits r.priority
      (builtReservation t.self.uuid r address capabilities) = false := by
    rw [← Bool.not_eq_true]
    exact fun ha => hno ⟨address, capabilities, hl, hu, ha⟩
  obtain ⟨z, hz⟩ := availableForPerformance_refused (R := t.resources) ha
  rcases hbranch with ⟨-, hbranch⟩ | ⟨-, hbranch⟩
  · rw [earListener, bind_ok (run_onReservation hz)] at hbranch
    obtain ⟨⟨⟩, t₁, href, hend⟩ := bind_eq_ok.mp hbranch
    obtain ⟨target, -, rfl⟩ := refuseToSource_ok href
    cases hend
    exact ⟨rfl, rfl⟩
  · have hbid : isBidInStore me peers (t.built r address capabilities) uuid = false :=
      isBidInStore_false hstore (fun h => by cases h)
    rw [earRelay, bind_ok (run_get _), hbid, if_neg Bool.false_ne_true,
      bind_ok (run_onReservation hz)] at hbranch
    dsimp only at hbranch
    rw [bind_ok (run_setReservation _)] at hbranch
    obtain ⟨⟨⟩, t₁, href, hend⟩ := bind_eq_ok.mp hbranch
    obtain ⟨target, -, rfl⟩ := refuseToSource_ok href
    cases hend
    exact ⟨rfl, rfl⟩

theorem marBranch_refused {r : Request} (hno : ¬t.Admits env r)
    (hrun : (marBranch env me r).run t = (.ok exit, t')) :
    t'.resources = t.resources ∧ t'.self.state = .closed := by
  rw [marBranch, bind_ok (run_setState _)] at hrun
  obtain ⟨address, t₁, haddress, hrest⟩ := bind_eq_ok.mp hrun
  obtain ⟨rfl, hl⟩ := liftExcept_ok haddress
  obtain ⟨built, t₂, hbuild, hbranch⟩ := bind_eq_ok.mp hrest
  rcases buildReservation_ok hbuild with ⟨rfl, rfl⟩ | ⟨capabilities, rfl, hu, rfl⟩
  · cases hbranch
    exact ⟨rfl, rfl⟩
  have ha : env.assessment.admits r.priority
      (builtReservation t.self.uuid r address capabilities) = false := by
    rw [← Bool.not_eq_true]
    exact fun ha => hno ⟨address, capabilities, hl, hu, ha⟩
  rw [if_pos rfl, bind_ok (setReservationUuid_bidding r address capabilities)] at hbranch
  obtain ⟨-, z, rfl⟩ := marBid_refused ha hbranch
  exact ⟨rfl, rfl⟩

/-- An EAR that makes a handler with a pre-reservation RESERVED was admitted again. -/
theorem earBranch_granted {r : Request} {uuid : UUIDv4} (hload : t.Loaded) (hv : t.resources.Valid)
    (hx : t.held.read = .ok x) (hs : t.self.state = .preReserved)
    (hrun : (earBranch env me peers uuid r).run t = (.ok exit, t'))
    (hgranted : t'.self.state = .reserved) :
    ∃ address, listenerAddress env r.listenerLength r.listener = .ok address ∧
      iAmListener env r.listenerLength address = true ∧
      env.assessment.admits r.priority x = true := by
  rw [earBranch, bind_ok (startAssessing_preReserved hs)] at hrun
  obtain ⟨address, t₁, haddress, hrest⟩ := bind_eq_ok.mp hrun
  obtain ⟨rfl, hl⟩ := liftExcept_ok haddress
  rw [bind_ok (earReservation_preReserved hs address), if_pos rfl,
    bind_ok (identifyReservation_loaded hload hv)] at hrest
  refine ⟨address, hl, ?_⟩
  rcases hme : iAmListener env r.listenerLength address with _ | _
  · rw [hme, if_neg Bool.false_ne_true] at hrest
    exact absurd hgranted (earRelay_state hrest)
  · refine ⟨rfl, ?_⟩
    rw [hme, if_pos rfl, earListener] at hrest
    obtain ⟨position, t₂, havail, hrest₁⟩ := bind_eq_ok.mp hrest
    obtain ⟨s, hs₁, rfl⟩ := onReservation_ok havail
    obtain ⟨y, hy, ⟨-, rfl, -⟩ | ⟨hadmits, -⟩⟩ := availableForPerformance_ok hs₁
    · obtain ⟨⟨⟩, t₃, -, hend⟩ := bind_eq_ok.mp hrest₁
      cases hend
      cases hgranted
    · cases hx.symm.trans hy
      exact hadmits

/-- Without a reservation nothing goes on to the listener. -/
theorem earForward_null {address : Bytes} (hp : t.self.reservation = .null)
    (hrun : (earForward env me address).run t = (.ok exit, t')) :
    t'.resources = t.resources ∧ t'.self.state = .closed := by
  have hderef : ∀ {t₀ t₁ : Thread} {x : Reservation}, t₀.self.reservation = .null →
      (onReservation deref).run t₀ ≠ (.ok x, t₁) := by
    intro t₀ t₁ x hnull hrun
    obtain ⟨s, hs, -⟩ := onReservation_ok hrun
    rw [hnull] at hs
    cases hs
  rw [earForward] at hrun
  obtain ⟨target, t₁, hfirst, hrest⟩ := bind_eq_ok.mp hrun
  obtain ⟨rfl, -⟩ := firstByte_ok hfirst
  rw [bind_ok (run_get _)] at hrest
  rcases hc : nearestConnections (getConnectionsTo env target) with _ | ⟨c, _ | ⟨d, cs⟩⟩
  · simp only [hc] at hrest
    obtain ⟨⟨⟩, t₂, hsend, hend⟩ := bind_eq_ok.mp hrest
    obtain ⟨-, rfl⟩ := sendMessage_ok hsend
    cases hend
    exact ⟨rfl, rfl⟩
  · simp only [hc] at hrest
    obtain ⟨x, t₂, hread, -⟩ := bind_eq_ok.mp hrest
    exact absurd hread (hderef hp)
  · simp only [hc] at hrest
    obtain ⟨⟨⟩, t₂, hbids, hmars⟩ := bind_eq_ok.mp hrest
    cases hbids
    obtain ⟨⟨⟩, t₃, hloop, -⟩ := bind_eq_ok.mp hmars
    rw [forEach_cons] at hloop
    obtain ⟨⟨⟩, t₄, hbody, -⟩ := bind_eq_ok.mp hloop
    obtain ⟨x, t₅, hread, -⟩ := bind_eq_ok.mp hbody
    exact absurd hread (hderef hp)

/-- No reservation of another session has the UUID of the handler. -/
theorem lastWithUuid_free (hfree : t.resources.Free T) (hT : timestamp t.self.uuid = T) :
    lastWithUuid t = t.self.reservation := by
  have hnone : t.resources.reservations.filter (fun e => decide (e.2.uuid = t.self.uuid)) = [] := by
    rw [List.filter_eq_nil_iff]
    intro e he heq
    have hmem : e ∈ ReservationList.session T t.resources.reservations := by
      refine ReservationList.mem_session.mpr ⟨he, ?_⟩
      rw [of_decide_eq_true heq, hT]
    rw [hfree.session] at hmem
    cases hmem
  rw [lastWithUuid, hnone]
  rfl

/-- An EAR at a handler that lost its pre-reservation. -/
theorem earBranch_lost {r : Request} {uuid : UUIDv4} (hfree : t.resources.Free T)
    (hT : timestamp t.self.uuid = T) (hp : t.self.reservation = .null)
    (hs : t.self.state = .preReserved)
    (hrun : (earBranch env me peers uuid r).run t = (.ok exit, t')) :
    t'.resources = t.resources ∧ t'.self.state = .closed := by
  rw [earBranch, bind_ok (startAssessing_preReserved hs)] at hrun
  obtain ⟨address, t₁, haddress, hrest⟩ := bind_eq_ok.mp hrun
  obtain ⟨rfl, hl⟩ := liftExcept_ok haddress
  rw [bind_ok (earReservation_preReserved hs address), if_pos rfl,
    bind_ok (identifyReservation_loaded (Or.inl hp) hfree.valid)] at hrest
  -- There is nothing to assess and nothing to pass on.
  have hnull : ∀ {x : Reservation}, t₁.held.read ≠ .ok x := by
    intro x hx
    simp only [Thread.held, hp, Held.read] at hx
    cases hx
  have havail : ∀ {o : Option Nat} {t₂ : Thread},
      (onReservation (availableForPerformance env.assessment r.priority)).run t₁ ≠ (.ok o, t₂) := by
    intro o t₂ hrun
    obtain ⟨s, hs, -⟩ := onReservation_ok hrun
    obtain ⟨x, hx, -⟩ := availableForPerformance_ok hs
    exact hnull hx
  rcases hme : iAmListener env r.listenerLength address with _ | _
  · rw [hme, if_neg Bool.false_ne_true, earRelay, bind_ok (run_get _)] at hrest
    split_ifs at hrest
    · rw [bind_ok (run_setReservation _), lastWithUuid_free hfree hT, hp] at hrest
      exact earForward_null (t := t₁.loaded t₁.resources .null) rfl hrest
    · obtain ⟨position, t₂, hrun, -⟩ := bind_eq_ok.mp hrest
      exact absurd hrun havail
  · rw [hme, if_pos rfl, earListener] at hrest
    obtain ⟨position, t₂, hrun, -⟩ := bind_eq_ok.mp hrest
    exact absurd hrun havail

/-- A BID changes no reservation, and makes no handler RESERVED. -/
theorem bidBranch_single {value : BitVec 32} (h : t.Single T)
    (hrun : (bidBranch me value).run t = (.ok exit, t')) : t'.Single T := by
  by_cases hs : t.self.state = .auctionWaiting
  · rw [bidBranch_waiting hs] at hrun
    cases hrun
    exact h.same rfl id
  · rw [bidBranch_unexpected hs] at hrun
    cases hrun
    exact h.closed rfl rfl

theorem refBranch_single (h : t.Single T) (hrun : (refBranch env me peers).run t = (.ok exit, t')) :
    t'.Single T := by
  rw [refBranch] at hrun
  obtain ⟨⟨⟩, t₁, herase, hreply⟩ := bind_eq_ok.mp hrun
  obtain ⟨store, rfl⟩ := refErase_ok herase
  obtain ⟨-, hans⟩ := refReply_ok hreply
  refine h.same hans.resources ?_
  intro hr
  rcases hans.state with hs | hs
  · rw [hs] at hr
    cases hr
  · exact hs.symm.trans hr

theorem repBranch_single {code : UInt8} {listener : ListenerArray} (h : t.Single T)
    (hrun : (repBranch env me code listener).run t = (.ok exit, t')) : t'.Single T := by
  obtain ⟨-, address, sends, -, ⟨-, -, rfl⟩ | ⟨-, -, -, rfl⟩⟩ := repBranch_ok hrun
  · exact h.closed rfl rfl
  · exact h.same rfl nofun

/-- A round of a session without a reservation. -/
theorem messageSwitch_free (hfree : t.resources.Free T) (hp : t.self.reservation = .null)
    (hT : timestamp t.self.uuid = T) (h : t.Single T)
    (hstore : ∀ h, t.store.find? message.uuid = some h → h = me)
    (hrun : (messageSwitch env me peers message).run t = (.ok exit, t')) : t'.Single T := by
  cases message with
  | ear v uuid r =>
    by_cases hs : t.self.state = .preReserved
    · obtain ⟨hres, hclosed⟩ := earBranch_lost hfree hT hp hs hrun
      exact h.closed hres hclosed
    have htaken : EarTaken env me r t exit t' := earBranch_ok hfree hT hs hstore hrun
    cases htaken with
    | unreadable => exact h.closed rfl rfl
    | refused ht => exact h.closed rfl rfl
    | accepted hl hme ht =>
      rename_i address target capabilities
      have hsole :=
        hfree.push (x := { admittedReservation env t.self.uuid r address capabilities with
        state := .reserved }) hT
      exact ⟨hsole.few, fun _ => hsole.secures rfl⟩
    | forwarded hl hme hu ha ht hf => exact hf.few (hfree.push hT)
  | mar v uuid r =>
    have htaken : MarTaken me t exit t' := marBranch_ok hfree hT hrun
    cases htaken with
    | unreadable => exact h.closed rfl rfl
    | refused => exact h.closed rfl rfl
    | bid hy hu => exact Resources.Sole.single (hfree.push (by rw [hu]; exact hT)) nofun
  | bid v uuid value => exact bidBranch_single h hrun
  | acc v uuid =>
    have hs : t.self.state ≠ .reserved := fun hs => hfree.not_secures (h.secured hs)
    exact absurd hrun (accBranch_null hp hs)
  | ref v uuid => exact refBranch_single h hrun
  | rep v uuid code reserved listener => exact repBranch_single h hrun

/-- A round of a session with one reservation. -/
theorem messageSwitch_sole (hsole : t.resources.Sole T a x) (hp : t.self.reservation = .listed a)
    (hu : x.uuid = t.self.uuid) (hmarked : t.resources.Marked) (h : t.Single T)
    (hstore : ∀ h, t.store.find? message.uuid = some h → h = me) (hdoubles : ¬t.Doubles env message)
    (hrun : (messageSwitch env me peers message).run t = (.ok exit, t')) : t'.Single T := by
  have hT : timestamp t.self.uuid = T := by
    rw [← hu]
    exact hsole.mem.2
  have hfound : t.found env = some x := Thread.found_sole hsole hT
  have hload : t.Loaded := Or.inr ⟨a, x, hp, hsole.first hu⟩
  cases message with
  | ear v uuid r =>
    by_cases hs : t.self.state = .preReserved
    · have hread : t.held.read = .ok x := by
        rw [Thread.held, hp]
        exact Held.read_listed.mpr hsole.lookup
      have hheld : EarHeld env me uuid r a x t exit t' := earBranch_held hsole hp hu
        (hmarked _ hsole.mem.1) hs hstore hrun
      cases hheld with
      | granted hgranted =>
        obtain ⟨address, hl, hme, ha⟩ := earBranch_granted hload hsole.valid hread hs hrun hgranted
        refine absurd ⟨x, hfound, ?_⟩ hdoubles
        rw [if_pos hs, ← hu]
        exact ⟨address, hl, hme, ha⟩
      | refused hl hme ha hy hyu =>
        exact Resources.Sole.single (hsole.put (by rw [hyu]; exact hsole.mem.2))
          (fun h => by cases h)
      | forwarded hl hme hstored ht hf => exact hf.few hsole
    · have hno : ¬t.Admits env r := by
        intro ha
        refine hdoubles ⟨x, hfound, ?_⟩
        rw [if_neg hs]
        exact ha
      obtain ⟨hres, hclosed⟩ := earBranch_refused hs hstore hno hrun
      exact h.closed hres hclosed
  | mar v uuid r =>
    -- a MAR that is admitted would be a second reservation
    have hno : ¬t.Admits env r := by
      intro ha
      refine hdoubles ⟨?_, ha⟩
      rw [hfound]
      simp
    obtain ⟨hres, hclosed⟩ := marBranch_refused hno hrun
    exact h.closed hres hclosed
  | bid v uuid value => exact bidBranch_single h hrun
  | acc v uuid =>
    by_cases hs : t.self.state = .reserved
    · rw [messageSwitch, accBranch_repeated hs] at hrun
      cases hrun
      exact h.same rfl id
    have hput : ∀ {y : Reservation}, y.uuid = x.uuid → (t.resources.put a y).Sole T a y :=
      fun hy => hsole.put (by rw [hy]; exact hsole.mem.2)
    obtain ⟨b, y, hfirst, -, htaken⟩ := accBranch_taken ⟨hsole.valid, hmarked⟩ hload hs hrun
    obtain ⟨rfl, rfl⟩ := hsole.eq_of_first hT hfirst
    rcases htaken with ⟨-, hres⟩ | ⟨-, -, hstate, hres⟩
    · have hnext : t'.resources.Sole T b
          ({ y with state := .reserved }.addNextNode t.self.sourceIdentifier) := by
        rw [hres]
        exact hput rfl
      exact ⟨hnext.few, fun _ => hnext.secures rfl⟩
    · have hnext : t'.resources.Sole T b { y with state := .reserved } := by
        rw [hres]
        exact hput rfl
      exact hnext.single (by rw [hstate]; exact hs)
  | ref v uuid => exact refBranch_single h hrun
  | rep v uuid code reserved listener => exact repBranch_single h hrun

theorem Thread.Doubles.of_loaded {R : Resources} {p : ReservationPtr}
    (hf : (t.loaded R p).found env = (t.found env).map (·.setUuid t.self.uuid))
    (h : (t.loaded R p).Doubles env message) : t.Doubles env message := by
  cases message with
  | ear v uuid r =>
    obtain ⟨y, hy, hrest⟩ := h
    rw [hf] at hy
    obtain ⟨x, hx, rfl⟩ := Option.map_eq_some_iff.mp hy
    exact ⟨x, hx, hrest⟩
  | mar v uuid r =>
    obtain ⟨hfound, hadmits⟩ := h
    refine ⟨?_, hadmits⟩
    rw [hf] at hfound
    exact fun hnone => hfound (by rw [hnone]; rfl)
  | bid v uuid value => exact h
  | acc v uuid => exact h
  | ref v uuid => exact h
  | rep v uuid code reserved listener => exact h

theorem Thread.Single.left (h : t.Single T) (exit : Exit) : (t.left exit).Single T := by
  cases exit <;> exact ⟨h.few, h.secured⟩

/-- **A round that does not double** leaves one reservation of the session, at most. -/
theorem operatorCall_single (hv : t.resources.Valid) (hmarked : t.resources.Marked)
    (hT : timestamp t.self.uuid = T) (h : t.Single T)
    (hstore : ∀ h, t.store.find? message.uuid = some h → h = me) (hdoubles : ¬t.Doubles env message)
    (hrun : (operatorCall env me peers message).run t = (.ok (), t')) : t'.Single T := by
  rcases hv.free_or_sole h.few with hfree | ⟨a, x, hsole⟩
  · obtain ⟨exit, t₂, hswitch, rfl⟩ := operatorCall_ok (loadReservation_free hfree hT) hrun
    have hloaded : (t.loaded t.resources .null).Single T := h.same rfl id
    exact (messageSwitch_free (t := t.loaded t.resources .null) hfree rfl hT hloaded hstore
      hswitch).left exit
  · obtain ⟨exit, t₂, hswitch, rfl⟩ := operatorCall_ok (loadReservation_sole hsole hT) hrun
    have hput : (t.resources.put a (x.setUuid t.self.uuid)).Sole T a (x.setUuid t.self.uuid) :=
      hsole.put hT
    have hloaded : (t.loaded (t.resources.put a (x.setUuid t.self.uuid)) (.listed a)).Single T := by
      refine ⟨hput.few, fun hs => hput.secures ?_⟩
      obtain ⟨b, y, hy, hstate⟩ := h.secured hs
      have hmem := hsole.session
      rw [hy.session] at hmem
      cases hmem
      exact hstate
    refine (messageSwitch_sole (t :=
      t.loaded _ _) hput rfl rfl ?_ hloaded hstore ?_ hswitch).left exit
    · exact hmarked.put (hmarked _ hsole.mem.1)
    · intro hd
      refine hdoubles (hd.of_loaded ?_)
      rw [Thread.found_sole hsole hT]
      exact Thread.found_sole hput hT

end Rounds

/-! ## Nodes -/

/--
The timer of a handler gives back the reservation of a session whose handler is another one and
RESERVED. The first handler has lost its place in the store.
-/
def Node.Strands (n : Node) (h : HandlerId) (type : TimeoutType) : Prop :=
  type.needed (n.handler h) = true ∧ (∃ x, (n.thread h).held.read = .ok x) ∧
    ∃ k i, n.store.find? k = some i ∧ i ≠ h ∧ timestamp k = timestamp (n.handler h).uuid ∧
      (n.handler i).state = .reserved

/-- A step that adds a second reservation for a session, or takes the only one of a
RESERVED handler. -/
def Node.Doubles (env : Env) (n : Node) : Action → Prop
  | .receive message source => ∃ n₁ h, Node.Hands env message n n₁ h ∧
      (n₁.startThread h message source).Doubles env message
  | .timeout h type => n.Strands h type
  | .wake _ | .markOrigin _ _ => False

/-- Every session has at most one reservation, and a RESERVED one if its handler is RESERVED. -/
structure Node.Single (n : Node) : Prop where
  few : ∀ T, (ReservationList.session T n.resources.reservations).length ≤ 1
  secured : n.Filed fun T R s => s.state = .reserved → R.Secures T

section Nodes

variable {env : Env} {n n₁ n' : Node} {h : HandlerId} {message : Message} {source : NodeIdentifier}

theorem secures_local : SessionLocal fun T R s => s.state = .reserved → R.Secures T where
  resources hsession _ hv hq hs := by
    obtain ⟨a, x, hsole, hx⟩ := hq hs
    exact ⟨a, x, ⟨hv, hsession.trans hsole.session⟩, hx⟩
  renamed _ hq hs := hq hs
  bidden _ _ hq hs := hq hs
  fresh _ _ _ hs := nomatch hs

theorem Node.Single.round (h₁ : n.Single) (hn : n.Inv) (hmarked : n.resources.Marked)
    (hh : Node.Hands env message n n₁ h) {t : Thread}
    (hdoubles : ¬(n₁.startThread h message source).Doubles env message)
    (hrun : (operatorCall env h (n₁.accepting h message source).handlers message).run
      (n₁.startThread h message source) = (.ok (), t)) : t.Single (timestamp message.uuid) := by
  have hn₁ := hh.inv hn
  obtain ⟨k, hk⟩ := hh.stored
  have hT : timestamp (n₁.startThread h message source).self.uuid = timestamp message.uuid := by
    rw [Node.startThread_uuid]
    exact hh.timestamp_eq hn
  refine operatorCall_single (t := n₁.startThread h message source) hn₁.valid ?_ hT ⟨?_, ?_⟩ ?_
    hdoubles hrun
  · show n₁.resources.Marked
    rw [hh.resources]
    exact hmarked
  · show (ReservationList.session _ n₁.resources.reservations).length ≤ 1
    rw [hh.resources]
    exact h₁.few _
  · intro hs
    have hstate : (n₁.handler h).state = .reserved :=
      (acceptMessage_fields message source { n₁.handler h with running := true }).1.symm.trans hs
    have hsecured := h₁.secured.hands secures_local hn hh k h hk hstate
    rw [← (hn₁.stored k h hk).2, hh.timestamp_eq hn] at hsecured
    exact hsecured
  · intro i hi
    refine hn₁.eq_of_stored hi hk ?_
    rw [(hn₁.stored _ _ hi).2, hh.timestamp_eq hn]

/-- **A step that does not double** leaves every session with one reservation, at most. -/
theorem Node.Single.step (h : n.Single) (hn : n.Inv) (hmarked : n.resources.Marked)
    {action : Action}
    (hclean : ¬n.Doubles env action) (hrun : (perform env action).run n = (.ok (), n')) :
    n'.Single := by
  have hstep := hn.stepped hrun
  refine ⟨?_, h.secured.step secures_local hn hstep ?_ ?_ ?_⟩
  · intro T
    cases hstep with
    | dropped hf =>
      rw [hf.resources]
      exact h.few T
    | bid hf hk hs hr hm =>
      rename_i n₁ i bid
      rw [show (n₁.withBid i bid).resources = n.resources from hf.resources]
      exact h.few T
    | round hh hcall =>
      rename_i message source n₁ i t
      by_cases hT : T = timestamp message.uuid
      · rw [hT]
        exact (h.round hn hmarked hh (fun hd => hclean ⟨n₁, i, hh, hd⟩) hcall).few
      · have hsame := (hh.confined hn hcall).1.session_eq hT
        rw [show (Node.putThread t i n₁).resources = t.resources from rfl, hsame]
        exact h.few T
    | woken hwake =>
      rename_i i t
      rw [show (Node.putThread t i n).resources = n.resources from (wake_cases hwake).1]
      exact h.few T
    | fired hfire hr he =>
      rename_i i type r t
      -- a callback can only erase
      obtain ⟨p, hp⟩ := (onTimeout_timedOut hfire).addresses hn.valid T
      have hlen := congrArg List.length hp
      rw [ReservationList.addresses, List.length_map] at hlen
      show (ReservationList.session T t.resources.reservations).length ≤ 1
      rw [hlen]
      refine (List.length_filter_le _ _).trans ?_
      rw [ReservationList.addresses, List.length_map]
      exact h.few T
    | marked => exact h.few T
  · rintro message source n₁ i t rfl hh - hcall
    exact (h.round hn hmarked hh (fun hd => hclean ⟨n₁, i, hh, hd⟩) hcall).secured
  · rintro i t - hq hwake hs
    obtain ⟨hres, -, -, -, hstate⟩ := wake_cases hwake
    rw [hres]
    rcases hstate with hc | hc | ⟨hc, -⟩
    · rw [hc] at hs
      cases hs
    · exact hq (hc.symm.trans hs)
    · rw [hc] at hs
      cases hs
  · rintro i type r t k j rfl hk hT hq ht hs
    cases ht with
    | idle =>
      split_ifs at hs with hij
      · subst hij
        exact hq hs
      · exact hq hs
    | failed =>
      split_ifs at hs with hij
      · subst hij
        exact hq hs
      · exact hq hs
    | released hneeded hx hy ha =>
      split_ifs at hs with hij
      exact absurd ⟨hneeded, ⟨_, hx⟩, k, j, hk, hij, hT, hs⟩ hclean

theorem Node.Single.initial : Node.initial.Single where
  few _ := Nat.zero_le 1
  secured := Node.Filed.initial

theorem Node.Run.reachable {good : Env → Node → List Node → Action → Prop} {past : List Node}
    (hrun : Node.Run good (n :: past)) : n.Reachable := by
  generalize hstates : n :: past = states at hrun
  induction hrun generalizing n past with
  | start =>
    cases hstates
    exact .refl
  | step hprev hen hgood hstep ih =>
    cases hstates
    exact (ih rfl).tail ⟨_, _, hen, hstep⟩

theorem Node.Run.single {past : List Node}
    (hrun : Node.Run (fun env n _ action => ¬n.Doubles env action) (n :: past)) : n.Single := by
  generalize hstates : n :: past = states at hrun
  induction hrun generalizing n past with
  | start =>
    cases hstates
    exact Node.Single.initial
  | step hprev hen hgood hstep ih =>
    cases hstates
    exact (ih rfl).step hprev.reachable.inv hprev.reachable.marked hgood hstep

/--
**One reservation per session**, in every state of every run in which no step doubles: no two
reservations have one UUID, and a RESERVED handler has exactly one reservation, which is RESERVED.
-/
theorem single_of_clean {past : List Node}
    (hrun : Node.Run (fun env n _ action => ¬n.Doubles env action) (n :: past)) :
    (∀ e ∈ n.resources.reservations, ∀ e' ∈ n.resources.reservations,
      e.2.uuid = e'.2.uuid → e = e') ∧
    ∀ k h, n.store.find? k = some h → (n.handler h).state = .reserved → ∃ a x,
      ReservationList.session (timestamp k) n.resources.reservations = [(a, x)] ∧
        x.state = .reserved := by
  have hsingle := hrun.single
  refine ⟨?_, ?_⟩
  · intro e he e' he' huuid
    have hmem := ReservationList.mem_session.mpr ⟨he, rfl⟩
    have hmem' := ReservationList.mem_session.mpr ⟨he', (congrArg timestamp huuid).symm⟩
    rcases hrun.reachable.inv.valid.free_or_sole (hsingle.few (timestamp e.2.uuid)) with
      hfree | ⟨a, x, hsole⟩
    · rw [hfree.session] at hmem
      cases hmem
    · rw [hsole.session, List.mem_singleton] at hmem hmem'
      rw [hmem, hmem']
  · intro k h hk hs
    obtain ⟨a, x, hsole, hx⟩ := hsingle.secured k h hk hs
    exact ⟨a, x, hsole.session, hx⟩

end Nodes

/-- An EAR for this node, in a session that has no reservation yet. -/
theorem single_of_clean_ear :
    ∃ n : Node, (n.handler 0).state = .reserved ∧ ∃ a x,
      ReservationList.session (timestamp (sampleUuid 7 0)) n.resources.reservations = [(a, x)] ∧
        x.state = .reserved := by
  let n := afterFirst .sampleListener (.ear 1 (sampleUuid 7 0) (.sample 5)) ([6], .simulation)
  have hclean :
    ¬Node.initial.Doubles .sampleListener (.receive (.ear 1 (sampleUuid 7 0) (.sample 5))
      ([6], .simulation)) := by
    rintro ⟨n₁, h, hhands, x, hx, -⟩
    cases hhands with
    | resumed hf hk hs hr hq =>
      cases hf with
      | same => cases hk
      | rekeyed hk' => cases hk'
    | created hfree => cases hx
  have hs : (n.handler 0).state = .reserved := by decide +kernel
  refine ⟨n, hs, ?_⟩
  exact (single_of_clean (.first hclean (by decide +kernel))).2 _ 0 (by decide +kernel) hs

/-- A node that has bid and is then asked as the listener has two reservations for one UUID. -/
theorem single_twice : ¬∀ n : Node, n.Reachable →
    ∀ e ∈ n.resources.reservations, ∀ e' ∈ n.resources.reservations, e.2.uuid =
    e'.2.uuid → e = e' := by
  intro hall
  have hrun : (performAll .sampleListener [.receive (.mar 1 (sampleUuid 7 0) (.sample 5))
      ([6], .simulation),
        .receive (.ear 1 (sampleUuid 7 0) { Request.sample 5 with payloadLength := 0 })
      ([6], .simulation)] .initial).any (fun n =>
        n.resources.reservations.any (fun e => e.1 = 0 ∧ e.2.uuid = sampleUuid 7 0) ∧
        n.resources.reservations.any (fun e => e.1 = 1 ∧ e.2.uuid = sampleUuid 7 0)) = true := by
    decide +kernel
  obtain ⟨n, hn, htwo⟩ := (Option.any_eq_true _ _).mp hrun
  obtain ⟨hfirst, hsecond⟩ := of_decide_eq_true htwo
  obtain ⟨e, he, hfirst⟩ := List.any_eq_true.mp hfirst
  obtain ⟨e', he', hsecond⟩ := List.any_eq_true.mp hsecond
  obtain ⟨ha, hu⟩ := of_decide_eq_true hfirst
  obtain ⟨ha', hu'⟩ := of_decide_eq_true hsecond
  rw [hall n (performAll_steps hn) e he e' he' (hu.trans hu'.symm), ha'] at ha
  cases ha

end Rankd

import Rankd.Node.Housed
import Rankd.Node.Marking
import Rankd.Node.Tally
import Rankd.Properties.Causality
import Rankd.Properties.Closed

/-!
# Assertions of the reservations

The state changers of a reservation assert the state they start from, but their callers look at the
state of the handler. The two agree as long as a session is granted once: a reservation of the list
is PRE_RESERVED, unless its handler is closed or was granted (`Node.Accounted`). So a run in which
no ACC is handed to a handler that was granted and is not RESERVED any more, and no pre-reservation
is admitted twice, fails no assertion (`performSteps_ne_assertion`). The second ACC of a tie after a
REP is such an ACC (`performSteps_asserts`).

* `Resources.Since`: what a round does to the states of the reservations
* `Node.Accounted.step`: what a step leaves of the account
-/

namespace Rankd

open Infra Prog

/--
A run of a node up to its first fault, each step in an environment of its own. A timer that was not
started and a handler that is not blocked take no step.
-/
def performSteps : List (Env × Action) → Node → Except Fault Unit
  | [], _ => .ok ()
  | (env, action) :: rest, n =>
    if action.enabled n then
      match (perform env action).run n with
      | (.ok (), n') => performSteps rest n'
      | (.error e, _) => .error e
    else performSteps rest n

/--
The handlers that were granted, after one more step: those that are RESERVED, and those that an
ACC was handed to.
-/
def Node.granted (env : Env) (n : Node) (action : Action) (n' : Node) (before : Set HandlerId) :
    Set HandlerId :=
  {h | h ∈ before ∨ (n'.handler h).state = .reserved ∨ ∃ v u source n₁,
    action = .receive (.acc v u) source ∧ Node.Hands env (.acc v u) n n₁ h}

/--
A message that comes at the wrong time, where the handlers in `granted` were granted before.

* an ACC for a handler that was granted and is not RESERVED any more
* an EAR for another listener, for a handler that is PRE_RESERVED and is not in the store under the
  UUID of the EAR, where the node admits the request again (`Thread.EarFails`)
-/
def Node.Untimely (env : Env) (granted : Set HandlerId) (n : Node) : Action → Prop
  | .receive (.acc v u) _ => ∃ n₁, ∃ h ∈ granted, Node.Hands env (.acc v u) n n₁ h ∧
      (n₁.handler h).state ≠ .reserved
  | .receive (.ear v u r) source => ∃ n₁ h t, Node.Hands env (.ear v u r) n n₁ h ∧
      (loadReservation env).run (n₁.startThread h (.ear v u r) source) = (.ok (), t) ∧
      t.EarFails env h (n₁.accepting h (.ear v u r) source).handlers u r
  | .receive (.mar ..) _ | .receive (.bid ..) _ | .receive (.ref ..) _
  | .receive (.rep ..) _ => False
  | .wake _ | .timeout .. | .markOrigin .. => False

/-- No message of the run is untimely. -/
def Node.Timely (granted : Set HandlerId) : List (Env × Action) → Node → Prop
  | [], _ => True
  | (env, action) :: rest, n =>
    if action.enabled n then
      ¬n.Untimely env granted action ∧ ∀ n', (perform env action).run n = (.ok (), n') →
        Node.Timely (n.granted env action n' granted) rest n'
    else Node.Timely granted rest n

/-! ## The states of the reservations -/

/-- Since the list was `R₀`, its reservations have entered no other states than `S`. -/
structure Resources.Since (S : ReservationState → Prop) (R₀ R : Resources) : Prop where
  tidy : R.Tidy
  states : ∀ e ∈ R.reservations, S e.2.state ∨
    ∃ x, (e.1, x) ∈ R₀.reservations ∧ x.state = e.2.state

section Since

variable {S : ReservationState → Prop} {R₀ R : Resources} {a : Nat} {x y : Reservation}

theorem Resources.Since.refl (h : R.Tidy) : Resources.Since S R R :=
  ⟨h, fun e he => Or.inr ⟨e.2, he, rfl⟩⟩

theorem Resources.Since.put (h : Resources.Since S R₀ R) (hcreated : y.state ≠ .created)
    (hy : S y.state ∨ ∃ x, (a, x) ∈ R₀.reservations ∧ x.state = y.state) :
    Resources.Since S R₀ (R.put a y) := by
  refine ⟨⟨h.tidy.valid.put, h.tidy.marked.put hcreated⟩, ?_⟩
  intro e (he : e ∈ ReservationList.update R.reservations a fun _ => y)
  rcases ReservationList.mem_update he with he | ⟨r, -, rfl⟩
  · exact h.states e he
  · exact hy

theorem Resources.Since.push (h : Resources.Since S R₀ R) (hcreated : x.state ≠ .created)
    (hx : S x.state) : Resources.Since S R₀ (R.push x) := by
  refine ⟨⟨h.tidy.valid.push, h.tidy.marked.push hcreated⟩, ?_⟩
  intro e he
  rcases List.mem_append.mp he with he | he
  · exact h.states e he
  · rw [List.mem_singleton.mp he]
    exact Or.inl hx

theorem Resources.Since.lasting (hpre : S .preReserved) :
    Resources.Lasting (Resources.Since S R₀) where
  tidy h := h.tidy
  put h hx hy := by
    have hmem := ReservationList.lookup_mem hx
    refine h.put (hy ▸ h.tidy.marked _ hmem) ?_
    rw [hy]
    exact h.states _ hmem
  push h hx := h.push (by rw [hx]; nofun) (hx ▸ hpre)

theorem Resources.Since.granting (hres : S .reserved) :
    Resources.Granting (Resources.Since S R₀) where
  put h _ hy := h.put (by rw [hy]; nofun) (Or.inl (hy ▸ hres))
  push h hx := h.push (by rw [hx]; nofun) (hx ▸ hres)

end Since

section Runs

variable {env : Env} {action : Action} {n n' : Node}

theorem Reservation.replenish_eq_none {x : Reservation} :
    x.replenish = none ↔ x.state = .created ∨ x.state = .cleared := by
  unfold Reservation.replenish
  cases x.state <;> simp

/-- What an assertion of `replenish_reservation` says about the reservation. -/
theorem replenishReservation_assertion {s s' : Held}
    (hrun : replenishReservation.run s = (.error .assertion, s')) :
    ∃ x, s.read = .ok x ∧ (findEqual s.resources.reservations x).isSome ∧
      (x.state = .created ∨ x.state = .cleared) := by
  rw [replenishReservation, bind_ok (run_get s)] at hrun
  split_ifs at hrun with hempty
  · cases hrun
  have hread : deref.run s = (s.read, s) := rfl
  rcases hx : s.read with e | x
  · rw [hx] at hread
    rw [bind_error hread] at hrun
    cases hrun
    -- reading a pointer fails no assertion
    rcases hp : s.pointer with _ | a | r
    · simp only [Held.read, hp] at hx
      cases hx
    · simp only [Held.read, hp] at hx
      split at hx <;> cases hx
    · simp only [Held.read, hp] at hx
      cases hx
  rw [hx] at hread
  rw [bind_ok hread] at hrun
  rcases ha : findEqual s.resources.reservations x with _ | a
  · simp only [ha] at hrun
    cases hrun
  · refine ⟨x, rfl, by rw [ha]; rfl, Reservation.replenish_eq_none.mp ?_⟩
    simp only [ha, changeThrough, run_bind, hread] at hrun
    rcases hy : x.replenish with _ | y
    · rfl
    · simp only [hy, require_some, run_pure, writeThrough, run_bind, hread, run_modify] at hrun
      cases hrun

/-! ## Steps -/

/-- An EAR for this node is granted or refused. -/
theorem earBranch_listener {me : HandlerId} {peers : List Handler} {t t' : Thread} {exit : Exit}
    {uuid : UUIDv4} {r : Request} (hme : r.forMe env = true)
    (hrun : (earBranch env me peers uuid r).run t = (.ok exit, t')) :
    t'.self.state = .reserved ∨ t'.self.state = .closed := by
  rw [earBranch] at hrun
  obtain ⟨⟨⟩, t₁, -, hrun₁⟩ := bind_eq_ok.mp hrun
  obtain ⟨address, t₂, haddress, hrun₂⟩ := bind_eq_ok.mp hrun₁
  obtain ⟨-, hl⟩ := liftExcept_ok haddress
  rw [Request.forMe, hl] at hme
  obtain ⟨built, t₃, -, hrun₃⟩ := bind_eq_ok.mp hrun₂
  cases built with
  | false =>
    cases hrun₃
    exact Or.inr rfl
  | true =>
    obtain ⟨⟨⟩, t₄, -, hrun₄⟩ := bind_eq_ok.mp hrun₃
    rw [if_pos hme] at hrun₄
    exact earListener_state hrun₄

/-- A round that may grant leaves its handler RESERVED or closed, or is one for an ACC. -/
theorem operatorCall_granted {me : HandlerId} {peers : List Handler} {t t' : Thread}
    {message : Message} (hgrants : message.Grants env)
    (hrun : (operatorCall env me peers message).run t = (.ok (), t')) :
    t'.self.state = .closed ∨ t'.self.state = .reserved ∨ ∃ v u, message = .acc v u := by
  cases message with
  | acc v u => exact Or.inr (Or.inr ⟨v, u, rfl⟩)
  | ear v u r =>
    rw [operatorCall] at hrun
    obtain ⟨⟨⟩, t₁, -, hrun₁⟩ := bind_eq_ok.mp hrun
    obtain ⟨⟨⟩, t₂, -, hrun₂⟩ := bind_eq_ok.mp hrun₁
    obtain ⟨exit, t₃, hswitch, hleave⟩ := bind_eq_ok.mp hrun₂
    have hleft : t'.self.state = t₃.self.state := by
      obtain ⟨-, rfl⟩ := Prod.mk.inj (run_leaveSwitch.symm.trans hleave)
      cases exit <;> rfl
    rw [hleft]
    rcases earBranch_listener hgrants hswitch with hstate | hstate
    · exact Or.inr (Or.inl hstate)
    · exact Or.inl hstate
  | mar | bid | ref | rep => exact hgrants.elim

/-- The handler explains that the reservation is not PRE_RESERVED: it is closed or was granted. -/
structure Node.Explains (granted : Set HandlerId) (n : Node) (h : HandlerId) (x : Reservation) :
    Prop where
  lt : h < n.handlers.length
  session : timestamp (n.handler h).uuid = timestamp x.uuid
  state : (n.handler h).state = .closed ∨ x.state = .reserved ∧ h ∈ granted

/-- A reservation of the list is PRE_RESERVED, unless its handler is closed or was granted. -/
def Node.Accounted (granted : Set HandlerId) (n : Node) : Prop :=
  ∀ e ∈ n.resources.reservations, e.2.state = .preReserved ∨ ∃ h, n.Explains granted h e.2

/-- The reservation was in the list before, in the same state. -/
def Node.Kept (n : Node) (e : Nat × Reservation) : Prop :=
  ∃ x, (e.1, x) ∈ n.resources.reservations ∧ x.state = e.2.state ∧
    timestamp x.uuid = timestamp e.2.uuid

theorem Node.kept_of_mem {e : Nat × Reservation} (he : e ∈ n.resources.reservations) : n.Kept e :=
  ⟨e.2, he, rfl, rfl⟩

variable {granted : Set HandlerId}

/-- **What a round does to a reservation of the list**: it is as before, new, or granted. -/
theorem Node.Hands.reservation {message : Message} {source : NodeIdentifier} {n₁ : Node}
    {h : HandlerId} {t : Thread} (hh : Node.Hands env message n n₁ h) (hn : n.Reachable)
    (hcall : (operatorCall env h (n₁.accepting h message source).handlers message).run
      (n₁.startThread h message source) = (.ok (), t))
    {e : Nat × Reservation} (he : e ∈ t.resources.reservations) :
    e.2.state = .preReserved ∨ n.Kept e ∨ message.Grants env ∧ e.2.state = .reserved ∧
      timestamp e.2.uuid = timestamp message.uuid := by
  have hinv := hn.inv
  have htidy : (n₁.startThread h message source).resources.Tidy :=
    ⟨(hh.inv hinv).valid, show n₁.resources.Marked from hh.resources ▸ hn.marked⟩
  obtain ⟨R, p, -, hspec⟩ := operatorCall_lasting
    (Resources.Since.lasting
      (S := fun s => s = .preReserved ∨ message.Grants env ∧ s = .reserved) (Or.inl rfl))
    (fun hgrants : message.Grants env => Resources.Since.granting (Or.inr ⟨hgrants, rfl⟩)) h
    (n₁.accepting h message source).handlers (.refl htidy)
  have hsince := hspec.ok rfl hcall
  obtain ⟨hconf, -⟩ := hh.confined hinv hcall
  by_cases hsession : timestamp e.2.uuid = timestamp message.uuid
  · rcases hsince.states e he with (hpre | ⟨hgrants, hres⟩) | ⟨x, hx, hstate⟩
    · exact Or.inl hpre
    · exact Or.inr (Or.inr ⟨hgrants, hres, hsession⟩)
    · -- what was at the address before is of the session too
      have hmem : (e.1, x) ∈ n.resources.reservations := hh.resources ▸ hx
      refine Or.inr (Or.inl ⟨x, hmem, hstate, ?_⟩)
      rcases hconf.address e.1 e.2 he hsession with ⟨x₀, hx₀, hsame⟩ | hnew
      · have hlookup := ReservationList.lookup_of_mem hinv.valid.nodup hx₀
        rw [ReservationList.lookup_of_mem hinv.valid.nodup hmem] at hlookup
        cases hlookup
        rw [hsame, hsession]
      · exact absurd (hinv.valid.fresh _ hmem) (not_lt.mpr hnew)
  · refine Or.inr (Or.inl (Node.kept_of_mem ?_))
    have hother : e ∈ ReservationList.others (timestamp message.uuid) t.resources.reservations :=
      List.mem_filter.mpr ⟨he, by simpa using hsession⟩
    rw [hconf.others] at hother
    exact List.mem_of_mem_filter hother

/-- **What the callback of a timer does to a reservation of the list**: it is as before, or its
handler is closed. -/
theorem Node.Inv.fired_reservation (hn : n.Inv) {h : HandlerId} {type : TimeoutType}
    {r : Except Fault Unit} {t : Thread}
    (hfire : (onTimeout type).run ((n.expire h type).thread h) = (r, t))
    {e : Nat × Reservation} (he : e ∈ t.resources.reservations) : n.Kept e ∨
      (Node.putThread t h (n.expire h type)).Explains granted h e.2 := by
  have htimed := onTimeout_timedOut hfire
  rcases htimed.reservation he with hmem | ⟨hclosed, -, x, hx, huuid⟩
  · exact Or.inl (Node.kept_of_mem hmem)
  -- what the pointer points to was cleared
  have hlt : h < n.handlers.length := by
    by_contra hge
    rw [Node.held_of_ge (n := n.expire h type) (not_lt.mp hge)] at hx
    cases hx
  have hself : (Node.putThread t h (n.expire h type)).handler h = t.self :=
    Node.handler_putThread_self (n := n.expire h type) hlt
  have hsession : timestamp x.uuid = timestamp (n.handler h).uuid :=
    Held.read_session (hn.pointer h hlt) hx
  refine Or.inr ⟨?_, ?_, Or.inl (hself ▸ hclosed)⟩
  · rw [Node.length_putThread]
    exact hlt
  · rw [hself, htimed.uuid, huuid, hsession]
    rfl

/-- **What a step does to a reservation of the list**: it keeps its state, it is new, or it is
accounted for by the handler of the step. -/
theorem Node.Reachable.step_reservation (hn : n.Reachable)
    (hrun : (perform env action).run n = (.ok (), n')) {e : Nat × Reservation}
    (he : e ∈ n'.resources.reservations) : e.2.state = .preReserved ∨ n.Kept e ∨
      ∃ h, n'.Explains (n.granted env action n' granted) h e.2 := by
  have hinv := hn.inv
  cases hinv.stepped hrun with
  | dropped hf => exact Or.inr (Or.inl (Node.kept_of_mem (hf.resources ▸ he)))
  | bid hf => exact Or.inr (Or.inl (Node.kept_of_mem (hf.resources ▸ he)))
  | marked => exact Or.inr (Or.inl (Node.kept_of_mem he))
  | woken hwake => exact Or.inr (Or.inl (Node.kept_of_mem ((wake_cases hwake).1 ▸ he)))
  | round hh hcall =>
    rename_i message source n₁ h t
    refine (hh.reservation hn hcall he).imp_right (Or.imp_right ?_)
    rintro ⟨hgrants, hres, hsession⟩
    have hself : (Node.putThread t h n₁).handler h = t.self :=
      Node.handler_putThread_self (hh.lt hinv)
    have hfiling := (hh.moved hinv hcall).filing (hh.inv hinv).unique
      (by rw [Node.startThread_uuid, hh.timestamp_eq hinv])
    refine ⟨h, ?_, ?_, ?_⟩
    · rw [Node.length_putThread]
      exact hh.lt hinv
    · rw [hself, hfiling.session, hsession]
    · rcases operatorCall_granted hgrants hcall with hclosed | hreserved | ⟨v, u, rfl⟩
      · exact Or.inl (hself ▸ hclosed)
      · exact Or.inr ⟨hres, Or.inr (Or.inl (hself ▸ hreserved))⟩
      · exact Or.inr ⟨hres, Or.inr (Or.inr ⟨v, u, source, n₁, rfl, hh⟩)⟩
  | fired hfire =>
    exact Or.inr ((hinv.fired_reservation hfire he).imp_right fun hexplains => ⟨_, hexplains⟩)

/-- **A step keeps the reservations accounted for.** -/
theorem Node.Accounted.step (ha : n.Accounted granted) (hn : n.Reachable) (hen : action.enabled n)
    (hrun : (perform env action).run n = (.ok (), n')) :
    n'.Accounted (n.granted env action n' granted) := by
  intro e he
  have hcases : e.2.state = .preReserved ∨ n.Kept e ∨
      ∃ h, n'.Explains (n.granted env action n' granted) h e.2 := hn.step_reservation hrun he
  rcases hcases with hpre | ⟨x, hx, hstate, hsession⟩ | hnew
  · exact Or.inl hpre
  · rcases ha _ hx with hpre | ⟨h, hlt, hT, hold⟩
    · exact Or.inl (hstate ▸ hpre)
    · obtain ⟨hlt', hT'⟩ := hn.inv.session_kept hn.timed hen hrun hlt
      refine Or.inr ⟨h, hlt', hT'.trans (hT.trans hsession), ?_⟩
      rcases hold with hclosed | ⟨hres, hgranted⟩
      · exact Or.inl (hn.blocked.step_closed hn.inv hen hrun hlt hclosed).2
      · exact Or.inr ⟨hstate ▸ hres, Or.inl hgranted⟩
  · exact Or.inr hnew

/-- The reservations of a session with an open handler. -/
theorem Node.Accounted.states (ha : n.Accounted granted) (hhoused : n.Housed) (hn : n.Inv)
    {h : HandlerId} (hlt : h < n.handlers.length) (hopen : (n.handler h).state ≠ .closed)
    {e : Nat × Reservation} (he : e ∈ n.resources.reservations)
    (hT : timestamp e.2.uuid = timestamp (n.handler h).uuid) :
    e.2.state = .preReserved ∨ e.2.state = .reserved ∧ h ∈ granted := by
  rcases ha e he with hpre | ⟨i, hi, hsession, hstate⟩
  · exact Or.inl hpre
  · obtain rfl := hhoused.eq_of_timestamp hn hlt hi (hsession.trans hT)
    exact Or.inr (hstate.resolve_left hopen)

theorem Node.Accounted.hands {n₁ : Node} {h : HandlerId} {message : Message}
    (ha : n.Accounted granted) (hn : n.Inv) (hh : Node.Hands env message n n₁ h) :
    n₁.Accounted granted := by
  intro e he
  rw [hh.resources] at he
  refine (ha e he).imp_right ?_
  rintro ⟨i, hlt, hsession, hstate⟩
  obtain ⟨hlt', u, hu, hts⟩ := hh.handler hn hlt
  refine ⟨i, hlt', ?_, ?_⟩
  · rw [hu, ← hsession]
    exact hts
  · rw [hu]
    exact hstate

/-- Loading the reservation of a session changes no state. -/
theorem loadReservation_states {S : ReservationState → Prop} {t t' : Thread}
    (hv : t.resources.Valid) (hload : (loadReservation env).run t = (.ok (), t'))
    (h : ∀ e ∈ t.resources.reservations, timestamp e.2.uuid = timestamp t.self.uuid → S e.2.state) :
    ∀ e ∈ t'.resources.reservations, timestamp e.2.uuid = timestamp t.self.uuid → S e.2.state := by
  rcases hf : t.resources.reservations.find?
    (fun e => isSameTimestamp env.ulid e.2.uuid t.self.uuid) with _ | ⟨a, x⟩
  · cases (loadReservation_none hf).symm.trans hload
    exact h
  · cases (loadReservation_some hv hf).symm.trans hload
    intro e (he : e ∈ ReservationList.update t.resources.reservations a fun _ =>
      x.setUuid t.self.uuid)
    rcases ReservationList.mem_update he with he | ⟨r, -, rfl⟩
    · exact h e he
    · have hsame := List.find?_some hf
      exact fun _ => h (a, x) (List.mem_of_find?_eq_some hf) (isSameTimestamp_iff.mp hsame)

theorem loadReservation_state {t t' : Thread} (hload : (loadReservation env).run t = (.ok (), t')) :
    t'.self.state = t.self.state := by
  rw [loadReservation, bind_ok (run_get _)] at hload
  obtain ⟨p, t₁, hget, hset⟩ := bind_eq_ok.mp hload
  obtain ⟨s, -, rfl⟩ := onReservation_ok hget
  cases hset
  rfl

/-- An ACC for a session with pre-reservations only fails no assertion. -/
theorem Thread.not_accFails {t : Thread} (hv : t.resources.Valid) (hloaded : t.Loaded)
    (hpre : ∀ e ∈ t.resources.reservations, timestamp e.2.uuid = timestamp t.self.uuid →
      e.2.state = .preReserved) : ¬t.AccFails := by
  rintro ⟨-, a, x, hp, hl, hbad⟩
  have hx : timestamp x.uuid = timestamp t.self.uuid := by
    rw [hloaded.session hv (z := x)]
    rw [Thread.held, hp]
    exact Held.read_listed.mpr hl
  refine hbad ⟨hpre (a, x) (ReservationList.lookup_mem hl) hx, ?_⟩
  intro e he _
  rw [← Bool.not_eq_true]
  intro hequals
  obtain ⟨huuid, hstate, -⟩ := Reservation.equals_iff.mp hequals
  have hreserved := hpre e he (by rw [← huuid]; exact hx)
  rw [← hstate] at hreserved
  cases hreserved

/-- An ACC for a handler that was not granted fails no assertion. -/
theorem Node.Accounted.not_accFails (ha : n.Accounted granted) (hn : n.Reachable) {v : UInt8}
    {u : UUIDv4} {source : NodeIdentifier} {n₁ : Node} {h : HandlerId} {t : Thread}
    (hh : Node.Hands env (.acc v u) n n₁ h) (hgranted : h ∉ granted)
    (hload : (loadReservation env).run (n₁.startThread h (.acc v u) source) = (.ok (), t)) :
    ¬t.AccFails := by
  have hinv := hn.inv
  have hn₁ := hh.inv hinv
  have hopen : (n₁.handler h).state ≠ .closed := by
    intro hclosed
    have hresumable := hh.resumable
    rw [hclosed] at hresumable
    cases hresumable
  -- every reservation of the session is PRE_RESERVED
  have hpre : ∀ e ∈ n₁.resources.reservations,
      timestamp e.2.uuid = timestamp (n₁.handler h).uuid → e.2.state = .preReserved := by
    intro e he hT
    refine ((ha.hands hinv hh).states (hn.housed.hands hinv hh) hn₁ (hh.lt hinv) hopen he
      hT).resolve_right ?_
    exact fun hgrant => hgranted hgrant.2
  have htidy : (n₁.startThread h (.acc v u) source).resources.Tidy :=
    ⟨hn₁.valid, show n₁.resources.Marked from hh.resources ▸ hn.marked⟩
  obtain ⟨R, p, hload', hR, hloaded⟩ := loadReservation_loaded env htidy
  cases hload'.symm.trans hload
  refine Thread.not_accFails hR.valid hloaded ?_
  exact loadReservation_states (S := (· = .preReserved)) (t := n₁.startThread h (.acc v u) source)
    hn₁.valid hload' hpre

/-- **A timer fails no assertion**: its reservation is equal to one of the list, which is
PRE_RESERVED or RESERVED. -/
theorem Node.Accounted.onTimeout_ne_assertion (ha : n.Accounted granted) (hn : n.Reachable)
    {h : HandlerId} {type : TimeoutType} {t : Thread} :
    (onTimeout type).run ((n.expire h type).thread h) ≠ (.error .assertion, t) := by
  intro hcall
  have hinv := hn.inv
  generalize hresult : (.error .assertion : Except Fault Unit) = r at hcall
  cases onTimeout_timedOut hcall with
  | idle hneeded => cases hresult
  | released => cases hresult
  | failed hneeded hfailed =>
    cases hresult
    obtain ⟨x, hx, hequal, hstate⟩ := replenishReservation_assertion hfailed
    obtain ⟨e, he, -⟩ := Option.map_eq_some_iff.mp (Option.isSome_iff_exists.mp hequal).choose_spec
    have hmem : e ∈ n.resources.reservations := List.mem_of_find?_eq_some he
    have hequals := List.find?_some he
    obtain ⟨huuid, hsame, -⟩ := Reservation.equals_iff.mp hequals
    have hlt : h < n.handlers.length := by
      by_contra hge
      rw [Node.held_of_ge (n := n.expire h type) (not_lt.mp hge)] at hx
      cases hx
    have hsession : timestamp x.uuid = timestamp (n.handler h).uuid :=
      Held.read_session (hinv.pointer h hlt) hx
    have hopen : (n.handler h).state ≠ .closed := TimeoutType.needed_open hneeded
    rw [← hsame] at hstate
    rcases ha.states hn.housed hinv hlt hopen hmem (by rw [huuid, hsession]) with hpre | ⟨hres, -⟩
    · rw [hpre] at hstate
      rcases hstate with hstate | hstate <;> cases hstate
    · rw [hres] at hstate
      rcases hstate with hstate | hstate <;> cases hstate

/-- **A step that fails an assertion** is that of an untimely message. -/
theorem Node.Accounted.untimely (ha : n.Accounted granted) (hn : n.Reachable)
    (hrun : (perform env action).run n = (.error .assertion, n')) :
    n.Untimely env granted action := by
  have hinv := hn.inv
  have hstepped := hinv.stepped hrun
  generalize hr : (.error .assertion : Except Fault Unit) = r at hstepped
  cases hstepped with
  | dropped hf => cases hr
  | stopped hf he =>
    cases hr
    exact absurd rfl he
  | bid hf hk hs hrunning hb => cases hr
  | marked => cases hr
  | round hh hcall =>
    rename_i message source n₁ h t
    cases hr
    have htidy : (n₁.startThread h message source).resources.Tidy :=
      ⟨(hh.inv hinv).valid, show n₁.resources.Marked from hh.resources ▸ hn.marked⟩
    obtain ⟨R, p, hload, hspec⟩ := operatorCall_spec env h (n₁.accepting h message source).handlers
      message htidy
    by_contra hspared
    refine hspec.error rfl hcall (fun hfails => hspared ?_) rfl
    cases message with
    | mar | bid | ref | rep => exact hfails
    | ear v u r => exact ⟨n₁, h, _, hh, hload, hfails⟩
    | acc v u =>
      have hself : (n₁.startThread h (.acc v u) source).self.state = (n₁.handler h).state :=
        Node.startThread_state
      have hstate : (n₁.handler h).state ≠ .reserved := fun hres => hfails.1 (hself.trans hres)
      have hgranted : h ∈ granted := by
        by_contra hgranted
        exact ha.not_accFails hn hh hgranted hload hfails
      exact ⟨n₁, h, hgranted, hh, hstate⟩
  | woken hcall =>
    cases hr
    exact absurd rfl ((wake_safe (J := fun _ => True)).error trivial hcall)
  | fired hcall hr' he =>
    cases hr
    cases hr' .assertion rfl
    exact absurd hcall (ha.onTimeout_ne_assertion hn)

theorem Node.Accounted.performSteps {steps : List (Env × Action)} (ha : n.Accounted granted)
    (hn : n.Reachable) (h : Node.Timely granted steps n) :
    performSteps steps n ≠ .error .assertion := by
  induction steps generalizing n granted with
  | nil => nofun
  | cons s rest ih =>
    obtain ⟨env, action⟩ := s
    unfold Node.Timely at h
    unfold Rankd.performSteps
    by_cases hen : action.enabled n
    · rw [if_pos hen] at h ⊢
      obtain ⟨hspared, hrest⟩ := h
      rcases hrun : (perform env action).run n with ⟨e | ⟨⟩, n'⟩
      · rintro ⟨⟩
        exact hspared (ha.untimely hn hrun)
      · exact ih (ha.step hn hen hrun) (hn.tail ⟨env, action, hen, hrun⟩) (hrest n' hrun)
    · rw [if_neg hen] at h ⊢
      exact ih ha hn h

/-- **A run without untimely messages fails no assertion.** -/
theorem performSteps_ne_assertion {steps : List (Env × Action)} (h : Node.Timely ∅ steps .initial) :
    performSteps steps .initial ≠ .error .assertion := by
  have hinitial : Node.initial.Accounted ∅ := fun e he => absurd he List.not_mem_nil
  exact hinitial.performSteps .refl h

/-- A tie, the ACC of the first neighbour, the REP of the origin, and the ACC of the second one. -/
def sampleLateAcc : List Action :=
  sampleTie (sampleUuid 7 0) ++
    [.receive (.acc 1 (sampleUuid 7 1)) ([6], .simulation),
      .receive (.rep 1 (sampleUuid 7 0) 0 0 (Request.sample 9).listener) ([5], .simulation),
      .receive (.acc 1 (sampleUuid 7 2)) ([7], .simulation)]

/-- The second ACC finds a reservation that is RESERVED and is to be marked again. -/
theorem performSteps_asserts :
    ¬∀ steps : List (Env × Action), performSteps steps .initial ≠ .error .assertion := by
  intro hall
  refine hall (sampleLateAcc.map fun action => (.sample, action)) ?_
  decide +kernel

/-- An EAR with payload is never untimely: its handler is new. -/
theorem Node.not_untimely_request {v : UInt8} {u : UUIDv4} {r : Request} {source : NodeIdentifier}
    (hq : r.payloadLength ≠ 0) : ¬n.Untimely env granted (.receive (.ear v u r) source) := by
  rintro ⟨n₁, h, t, hh, hload, hstate, -⟩
  have hkept := loadReservation_state hload
  rw [hkept, Node.startThread_state] at hstate
  cases hh with
  | resumed _ _ _ _ hno => exact absurd hno (by simp [requestingMessage, hq])
  | created =>
    rw [Node.handler_created_self] at hstate
    cases hstate

/-- An ACC is timely while the handlers that were granted are RESERVED. -/
theorem Node.not_untimely_acc {v : UInt8} {u : UUIDv4} {source : NodeIdentifier} (hn : n.Inv)
    (hreserved : ∀ h ∈ granted, (n.handler h).state = .reserved) :
    ¬n.Untimely env granted (.receive (.acc v u) source) := by
  rintro ⟨n₁, h, hgranted, hh, hstate⟩
  obtain ⟨u', hsame⟩ := hh.handler_at hn h
  rw [hsame] at hstate
  exact hstate (hreserved h hgranted)

/--
A session that is granted by the ACC of a neighbour, one that is granted here, and one
that a timer ends.
-/
def sampleGrants : List Action :=
  [.receive (.ear 1 (sampleUuid 7 0) (.sample 9)) ([6], .simulation),
    .receive (.acc 1 (sampleUuid 7 0)) ([7], .simulation),
    .receive (.ear 1 (sampleUuid 8 0) (.sample 5)) ([6], .simulation),
    .receive (.ear 1 (sampleUuid 9 0) (.sample 9)) ([6], .simulation), .timeout 2 .mar]

/-- The ACC, the listener and the timer all change the state of a reservation. -/
theorem performSteps_ne_assertion_grants :
    (performAll .sampleListener sampleGrants .initial).any (fun n =>
      (n.handler 0).state = .reserved ∧ (n.handler 1).state = .reserved ∧
        (n.handler 2).state = .closed ∧
        n.resources.reservations.map (·.2.state) = [.reserved, .reserved]) = true ∧
    performSteps (sampleGrants.map fun action => (.sampleListener, action)) .initial ≠
      .error .assertion := by
  refine ⟨by decide +kernel, performSteps_ne_assertion ?_⟩
  refine ⟨Node.not_untimely_request (by decide), fun n₁ h₁ => ?_⟩
  have hen : (sampleGrants.head (by decide)).enabled .initial := trivial
  have hn₁ : n₁.Inv := (Node.Reachable.inv (.tail .refl ⟨_, _, hen, h₁⟩))
  refine ⟨Node.not_untimely_acc hn₁ ?_, fun n₂ _ => ?_⟩
  · rintro h (hnone | hreserved | ⟨v, u, source, n, hacc, -⟩)
    · exact hnone.elim
    · exact hreserved
    · cases hacc
  refine ⟨Node.not_untimely_request (by decide), fun n₃ _ => ?_⟩
  refine ⟨Node.not_untimely_request (by decide), fun n₄ _ => ?_⟩
  simp only [List.map_cons, List.map_nil, Node.Timely]
  split_ifs
  exact ⟨id, fun _ _ => trivial⟩

end Runs

end Rankd

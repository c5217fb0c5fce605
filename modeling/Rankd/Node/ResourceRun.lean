import Rankd.Node.ResourceSpec

/-!
# Sessions with one reservation

Outside of a few defects a session has at most one reservation in the list. There each operation of
`Resources` has a simple effect, which is stated here as an equation: on a session without a
reservation (`Resources.Free`) or with one (`Resources.Sole`).

All comparisons of the loops include the UUID, so the reservations of other timestamps are passed
over (`markLoop_skip`, `markPreLoop_skip`).
-/

namespace Rankd

open Infra Prog

/-! ## Changes of the list -/

def Resources.put (a : Nat) (x : Reservation) (R : Resources) : Resources :=
  { R with reservations := ReservationList.update R.reservations a fun _ => x }

def Resources.push (x : Reservation) (R : Resources) : Resources :=
  { reservations := R.reservations ++ [(R.nextAddress, x)]
    nextAddress := R.nextAddress + 1 }

def Resources.remove (a : Nat) (R : Resources) : Resources :=
  { R with reservations := ReservationList.eraseAt R.reservations a }

/-- There is no reservation of the timestamp `T`. -/
structure Resources.Free (T : Nat) (R : Resources) : Prop where
  valid : R.Valid
  session : ReservationList.session T R.reservations = []

/-- The only reservation of the timestamp `T` is `x`, at the address `a`. -/
structure Resources.Sole (T : Nat) (a : Nat) (x : Reservation) (R : Resources) : Prop where
  valid : R.Valid
  session : ReservationList.session T R.reservations = [(a, x)]

section Lists

variable {T a b : Nat} {x y : Reservation} {R : Resources} {l : ReservationList}

theorem ReservationList.session_update {f : Reservation → Reservation}
    (h : ∀ r, (a, r) ∈ l → timestamp r.uuid = T)
    (hf : ∀ r, (a, r) ∈ l → timestamp (f r).uuid = T) :
    session T (update l a f) = update (session T l) a f := by
  induction l with
  | nil => rfl
  | cons e rest ih =>
    have ih' := ih (fun r hr => h r (List.mem_cons_of_mem e hr))
      (fun r hr => hf r (List.mem_cons_of_mem e hr))
    simp only [session, update, List.map_cons, List.filter_cons] at ih' ⊢
    by_cases ha : e.1 = a
    · have hmem : (a, e.2) ∈ e :: rest := by rw [← ha]; exact List.mem_cons_self
      simp only [ha, if_true, h e.2 hmem, hf e.2 hmem, decide_true, List.map_cons, ih']
    · by_cases ht : timestamp e.2.uuid = T
      · simp only [ha, if_false, ht, decide_true, if_true, List.map_cons, ih']
      · simp only [ha, if_false, ht, decide_false, Bool.false_eq_true, ih']

theorem Resources.Sole.mem (h : R.Sole T a x) : (a, x) ∈ R.reservations ∧ timestamp x.uuid = T := by
  have hmem : (a, x) ∈ ReservationList.session T R.reservations := by
    rw [h.session]
    exact List.mem_singleton_self _
  exact ReservationList.mem_session.mp hmem

theorem Resources.Sole.lookup (h : R.Sole T a x) :
    ReservationList.lookup R.reservations a = some x :=
  ReservationList.lookup_of_mem h.valid.nodup h.mem.1

/-- An element of the timestamp is the one reservation. -/
theorem Resources.Sole.eq_of_mem (h : R.Sole T a x) (hy : (b, y) ∈ R.reservations)
    (ht : timestamp y.uuid = T) : b = a ∧ y = x := by
  have hmem : (b, y) ∈ ReservationList.session T R.reservations :=
    ReservationList.mem_session.mpr ⟨hy, ht⟩
  rw [h.session] at hmem
  exact Prod.mk.inj (List.mem_singleton.mp hmem)

/-- An element at the address is the one reservation. -/
theorem Resources.Sole.eq_of_address (h : R.Sole T a x) (hy : (a, y) ∈ R.reservations) : y = x := by
  have := ReservationList.lookup_of_mem h.valid.nodup hy
  rw [h.lookup] at this
  exact (Option.some.inj this).symm

theorem Resources.Sole.listedOk (h : R.Sole T a x) : (ReservationPtr.listed a).Ok T R := by
  refine ⟨h.valid.fresh _ h.mem.1, ?_⟩
  intro y hy
  rw [h.eq_of_address hy]
  exact h.mem.2

theorem Resources.Sole.heldInv (h : R.Sole T a x) : Held.Inv T R ⟨R, .listed a⟩ :=
  ⟨⟨h.valid, Resources.Confined.refl T R⟩, h.listedOk⟩

theorem Resources.Sole.put (h : R.Sole T a x) (hy : timestamp y.uuid = T) :
    (R.put a y).Sole T a y := by
  refine ⟨(h.heldInv.update h.listedOk.2 fun _ _ => hy).valid, ?_⟩
  rw [Resources.put, ReservationList.session_update h.listedOk.2 fun _ _ => hy, h.session]
  simp [ReservationList.update]

theorem Resources.Sole.remove (h : R.Sole T a x) : (R.remove a).Free T := by
  refine ⟨(h.heldInv.erase h.listedOk.2).valid, ?_⟩
  have hsession : ReservationList.session T (R.remove a).reservations =
      ReservationList.eraseAt (ReservationList.session T R.reservations) a := by
    simp only [ReservationList.session, ReservationList.eraseAt, Resources.remove,
      List.filter_filter, Bool.and_comm]
  rw [hsession, h.session]
  simp [ReservationList.eraseAt]

theorem Resources.Free.heldInv (h : R.Free T) : Held.Inv T R ⟨R, .null⟩ :=
  ⟨⟨h.valid, Resources.Confined.refl T R⟩, trivial⟩

theorem Resources.Free.push (h : R.Free T) (hx : timestamp x.uuid = T) :
    (R.push x).Sole T R.nextAddress x := by
  refine ⟨(h.heldInv.push hx).valid, ?_⟩
  simp only [Resources.push, ReservationList.session, List.filter_append] at *
  rw [show List.filter (fun e => decide (timestamp e.2.uuid = T)) R.reservations =
    [] from h.session]
  simp [hx]

/-- Changes of another session. -/
theorem Resources.Free.of_confined {T' : Nat} {R' : Resources} (h : R.Free T) (hne : T ≠ T')
    (hv : R'.Valid) (hc : Resources.Confined T' R R') : R'.Free T :=
  ⟨hv, (ReservationList.session_of_others hne hc.others).trans h.session⟩

theorem Resources.Sole.of_confined {T' : Nat} {R' : Resources} (h : R.Sole T a x) (hne : T ≠ T')
    (hv : R'.Valid) (hc : Resources.Confined T' R R') : R'.Sole T a x :=
  ⟨hv, (ReservationList.session_of_others hne hc.others).trans h.session⟩

@[simp] theorem Resources.put_put : (R.put a x).put a y = R.put a y := by
  simp only [Resources.put, ReservationList.update, List.map_map, Resources.mk.injEq, and_true]
  refine List.map_congr_left ?_
  intro e _
  by_cases he : e.1 = a <;> simp [he]

/-- Writing to the element that was just added. -/
theorem Resources.Valid.put_push (hv : R.Valid) : (R.push x).put R.nextAddress y = R.push y := by
  have hupdate : ReservationList.update R.reservations R.nextAddress (fun _ => y) =
      R.reservations := by
    refine (List.map_congr_left ?_).trans (List.map_id _)
    intro e he
    rw [if_neg (Nat.ne_of_lt (hv.fresh e he)), id]
  simp only [Resources.put, Resources.push, ReservationList.update, List.map_append] at hupdate ⊢
  rw [hupdate]
  simp

theorem Resources.Free.put_push (h : R.Free T) : (R.push x).put R.nextAddress y = R.push y :=
  h.valid.put_push

/-- Writing back what is there. -/
theorem Resources.Valid.put_self (hv : R.Valid)
    (hl : ReservationList.lookup R.reservations a = some x) : R.put a x = R := by
  have hupdate : ReservationList.update R.reservations a (fun _ => x) = R.reservations := by
    refine (List.map_congr_left ?_).trans (List.map_id _)
    rintro ⟨b, y⟩ he
    by_cases hb : b = a
    · subst hb
      have hy := ReservationList.lookup_of_mem hv.nodup he
      rw [hl] at hy
      cases hy
      simp
    · simp [hb]
  rw [Resources.put, hupdate]

theorem Resources.Sole.put_self (h : R.Sole T a x) : R.put a x = R := h.valid.put_self h.lookup

theorem Resources.remove_put : (R.put a x).remove a = R.remove a := by
  simp only [Resources.put, Resources.remove, ReservationList.update, ReservationList.eraseAt,
    Resources.mk.injEq, and_true, List.filter_map]
  have hfilter : (fun e : Nat × Reservation => decide (e.1 ≠ a)) ∘
      (fun e => if e.1 = a then (e.1, x) else e) = fun e => decide (e.1 ≠ a) := by
    funext e
    by_cases he : e.1 = a <;> simp [he]
  rw [hfilter]
  refine (List.map_congr_left ?_).trans (List.map_id _)
  intro e he
  have hne : e.1 ≠ a := of_decide_eq_true (List.mem_filter.mp he).2
  rw [if_neg hne, id]

end Lists

/-! ## The operations -/

section Operations

variable {T a : Nat} {x z : Reservation} {R : Resources} {p : ReservationPtr}

theorem deref_listed (h : R.Sole T a x) : deref.run ⟨R, .listed a⟩ = (.ok x, ⟨R, .listed a⟩) := by
  simp only [deref, Held.read, h.lookup]

theorem deref_own : deref.run ⟨R, .own z⟩ = (.ok z, ⟨R, .own z⟩) := rfl

theorem writeThrough_listed (h : R.Sole T a x) (f : Reservation → Reservation) :
    (writeThrough f).run ⟨R, .listed a⟩ = (.ok (), ⟨R.put a (f x), .listed a⟩) := by
  rw [writeThrough, bind_ok (deref_listed h)]
  rfl

theorem writeThrough_own (f : Reservation → Reservation) :
    (writeThrough f).run ⟨R, .own z⟩ = (.ok (), ⟨R, .own (f z)⟩) := rfl

theorem changeThrough_listed (h : R.Sole T a x) {f : Reservation → Option Reservation}
    {y : Reservation} (hf : f x = some y) :
    (changeThrough f).run ⟨R, .listed a⟩ = (.ok (), ⟨R.put a y, .listed a⟩) := by
  rw [changeThrough, bind_ok (deref_listed h), hf, require_some, pure_bind]
  exact writeThrough_listed h _

theorem itemAt_run {b : Nat} {y : Reservation} (hy : (b, y) ∈ R.reservations) (hv : R.Valid) :
    (itemAt b).run ⟨R, p⟩ = (.ok y, ⟨R, p⟩) := by
  simp only [itemAt, run_bind, run_get, ReservationList.lookup_of_mem hv.nodup hy, require_some,
    run_pure]

theorem changeAt_run {y : Reservation} (h : R.Sole T a x) {f : Reservation → Option Reservation}
    (hf : f x = some y) : (changeAt a f).run ⟨R, p⟩ = (.ok (), ⟨R.put a y, p⟩) := by
  rw [changeAt, bind_ok (itemAt_run h.mem.1 h.valid), hf, require_some, pure_bind]
  rfl

theorem changeAt_fault (h : R.Sole T a x) {f : Reservation → Option Reservation}
    (hf : f x = none) : (changeAt a f).run ⟨R, p⟩ = (.error .assertion, ⟨R, p⟩) := by
  rw [changeAt, bind_ok (itemAt_run h.mem.1 h.valid), hf, require_none, bind_error (run_fault _ _)]

theorem itemAt_ok {b : Nat} {s s' : Held} (hrun : (itemAt b).run s = (.ok x, s')) :
    s' = s ∧ ReservationList.lookup s.resources.reservations b = some x := by
  rw [itemAt, bind_ok (run_get s)] at hrun
  rcases hl : ReservationList.lookup s.resources.reservations b with _ | z
  · rw [hl] at hrun
    cases hrun
  · rw [hl] at hrun
    cases hrun
    exact ⟨rfl, rfl⟩

theorem changeAt_ok {b : Nat} {f : Reservation → Option Reservation} {s s' : Held}
    (hrun : (changeAt b f).run s = (.ok (), s')) :
    ∃ x y, ReservationList.lookup s.resources.reservations b = some x ∧ f x = some y ∧
      s' = ⟨s.resources.put b y, s.pointer⟩ := by
  rw [changeAt] at hrun
  obtain ⟨x, s₁, hitem, hrest⟩ := bind_eq_ok.mp hrun
  obtain ⟨rfl, hl⟩ := itemAt_ok hitem
  rcases hy : f x with _ | y
  · rw [hy] at hrest
    cases hrest
  · rw [hy] at hrest
    cases hrest
    exact ⟨x, y, hl, hy, rfl⟩

/-- Reservations of different timestamps are not equal. -/
theorem equals_of_timestamp {y : Reservation} (hz : timestamp z.uuid = T)
    (hy : timestamp y.uuid ≠ T) : z.equals y = false := by
  rw [← Bool.not_eq_true]
  intro heq
  rw [← (Reservation.equals_iff.mp heq).1] at hy
  exact hy hz

/-- The addresses of the list in front of the reservation of the session and behind it. -/
theorem Resources.Sole.split (h : R.Sole T a x) : ∃ l₁ l₂ : ReservationList,
    R.reservations = l₁ ++ (a, x) :: l₂ ∧
      (∀ e ∈ l₁, timestamp e.2.uuid ≠ T) ∧ ∀ e ∈ l₂, timestamp e.2.uuid ≠ T := by
  obtain ⟨l₁, l₂, hl⟩ := List.append_of_mem h.mem.1
  have hsession := h.session
  rw [hl, ReservationList.session, List.filter_append, List.filter_cons,
    if_pos (decide_eq_true h.mem.2)] at hsession
  have hlen := congrArg List.length hsession
  simp only [List.length_append, List.length_cons, List.length_nil] at hlen
  refine ⟨l₁, l₂, hl, ?_, ?_⟩
  · intro e he
    have hnil : l₁.filter (fun e => decide (timestamp e.2.uuid = T)) = [] :=
      List.length_eq_zero_iff.mp (by omega)
    simpa using List.filter_eq_nil_iff.mp hnil e he
  · intro e he
    have hnil : l₂.filter (fun e => decide (timestamp e.2.uuid = T)) = [] :=
      List.length_eq_zero_iff.mp (by omega)
    simpa using List.filter_eq_nil_iff.mp hnil e he

/-- Elements that are not equal are passed over. -/
theorem markLoop_unequal (hv : R.Valid) (hread : deref.run ⟨R, p⟩ = (.ok z, ⟨R, p⟩))
    {l : ReservationList} (hl : ∀ e ∈ l, e ∈ R.reservations) (hne : ∀ e ∈ l, z.equals e.2 = false)
    (rest : List Nat) (found : Bool) :
    (markLoop (l.map (·.1) ++ rest) found).run ⟨R, p⟩ = (markLoop rest found).run ⟨R, p⟩ := by
  induction l with
  | nil => rfl
  | cons e l ih =>
    have hitem : (itemAt e.1).run ⟨R, p⟩ = (.ok e.2, ⟨R, p⟩) :=
      itemAt_run (hl e List.mem_cons_self) hv
    rw [List.map_cons, List.cons_append, markLoop, bind_ok hread, bind_ok hitem,
      hne e List.mem_cons_self, if_neg Bool.false_ne_true]
    exact ih (fun e he => hl e (List.mem_cons_of_mem _ he)) fun e he =>
      hne e (List.mem_cons_of_mem _ he)

theorem markPreLoop_unequal (hv : R.Valid) (hread : deref.run ⟨R, p⟩ = (.ok z, ⟨R, p⟩))
    {l : ReservationList} (hl : ∀ e ∈ l, e ∈ R.reservations) (hne : ∀ e ∈ l, z.equals e.2 = false)
    (rest : List Nat) :
    (markPreLoop (l.map (·.1) ++ rest)).run ⟨R, p⟩ = (markPreLoop rest).run ⟨R, p⟩ := by
  induction l with
  | nil => rfl
  | cons e l ih =>
    have hitem : (itemAt e.1).run ⟨R, p⟩ = (.ok e.2, ⟨R, p⟩) :=
      itemAt_run (hl e List.mem_cons_self) hv
    rw [List.map_cons, List.cons_append, markPreLoop, bind_ok hread, bind_ok hitem,
      hne e List.mem_cons_self, if_neg Bool.false_ne_true]
    exact ih (fun e he => hl e (List.mem_cons_of_mem _ he)) fun e he =>
      hne e (List.mem_cons_of_mem _ he)

/-- `mark_reservation` passes over the reservations of other timestamps. -/
theorem markLoop_skip (hv : R.Valid) (hread : deref.run ⟨R, p⟩ = (.ok z, ⟨R, p⟩))
    (hz : timestamp z.uuid = T) {l : ReservationList} (hl : ∀ e ∈ l, e ∈ R.reservations)
    (hne : ∀ e ∈ l, timestamp e.2.uuid ≠ T) (rest : List Nat) (found : Bool) :
    (markLoop (l.map (·.1) ++ rest) found).run ⟨R, p⟩ = (markLoop rest found).run ⟨R, p⟩ :=
  markLoop_unequal hv hread hl (fun e he => equals_of_timestamp hz (hne e he)) rest found

theorem markPreLoop_skip (hv : R.Valid) (hread : deref.run ⟨R, p⟩ = (.ok z, ⟨R, p⟩))
    (hz : timestamp z.uuid = T) {l : ReservationList} (hl : ∀ e ∈ l, e ∈ R.reservations)
    (hne : ∀ e ∈ l, timestamp e.2.uuid ≠ T) (rest : List Nat) :
    (markPreLoop (l.map (·.1) ++ rest)).run ⟨R, p⟩ = (markPreLoop rest).run ⟨R, p⟩ :=
  markPreLoop_unequal hv hread hl (fun e he => equals_of_timestamp hz (hne e he)) rest

/-- `mark_reservation` on the one reservation of a session. -/
theorem markReservation_run {y : Reservation} (h : R.Sole T a x) (hy : markItem x = some y) :
    markReservation.run ⟨R, .listed a⟩ = (.ok (), ⟨R.put a y, .listed a⟩) := by
  obtain ⟨l₁, l₂, hl, h₁, h₂⟩ := h.split
  have hty : timestamp y.uuid = T := by rw [markItem_uuid x y hy]; exact h.mem.2
  have hput := h.put hty
  have hmem₁ : ∀ e ∈ l₁, e ∈ R.reservations := by
    intro e he
    rw [hl]
    exact List.mem_append_left _ he
  have hmem₂ : ∀ e ∈ l₂, e ∈ (R.put a y).reservations := by
    intro e he
    have hmem : e ∈ R.reservations := by
      rw [hl]
      exact List.mem_append_right _ (List.mem_cons_of_mem _ he)
    have hne : e.1 ≠ a := by
      intro heq
      have : (a, e.2) ∈ R.reservations := by rw [← heq]; exact hmem
      exact h₂ e he (by rw [h.eq_of_address this]; exact h.mem.2)
    exact List.mem_map.mpr ⟨e, hmem, if_neg hne⟩
  have hloop : (markLoop (R.reservations.map (·.1)) false).run ⟨R, .listed a⟩ =
      (.ok true, ⟨R.put a y, .listed a⟩) := by
    rw [hl, List.map_append, markLoop_skip h.valid (deref_listed h) h.mem.2 hmem₁ h₁, List.map_cons,
      markLoop, bind_ok (deref_listed h), bind_ok (itemAt_run h.mem.1 h.valid),
      Reservation.equals_refl, if_pos rfl, bind_ok (changeAt_run h hy)]
    have hskip := markLoop_skip hput.valid (deref_listed hput) hty hmem₂ h₂ [] true
    rw [List.append_nil] at hskip
    exact hskip
  rw [markReservation, bind_ok (run_get _), bind_ok hloop, if_pos rfl, run_pure]

theorem markReservation_fault (h : R.Sole T a x) (hy : markItem x = none) :
    markReservation.run ⟨R, .listed a⟩ = (.error .assertion, ⟨R, .listed a⟩) := by
  obtain ⟨l₁, l₂, hl, h₁, h₂⟩ := h.split
  have hmem₁ : ∀ e ∈ l₁, e ∈ R.reservations := by
    intro e he
    rw [hl]
    exact List.mem_append_left _ he
  have hloop : (markLoop (R.reservations.map (·.1)) false).run ⟨R, .listed a⟩ =
      (.error .assertion, ⟨R, .listed a⟩) := by
    rw [hl, List.map_append, markLoop_skip h.valid (deref_listed h) h.mem.2 hmem₁ h₁, List.map_cons,
      markLoop, bind_ok (deref_listed h), bind_ok (itemAt_run h.mem.1 h.valid),
      Reservation.equals_refl, if_pos rfl, bind_error (changeAt_fault h hy)]
  rw [markReservation, bind_ok (run_get _), bind_error hloop]

/-- Without a reservation there is nothing to mark. -/
theorem markReservation_null :
    markReservation.run ⟨R, .null⟩ = (.error .nullPointer, ⟨R, .null⟩) := by
  have hread : deref.run ⟨R, .null⟩ = (.error .nullPointer, ⟨R, .null⟩) := rfl
  rw [markReservation, bind_ok (run_get _)]
  rcases hl : R.reservations.map (·.1) with _ | ⟨b, rest⟩
  · rw [hl, markLoop, pure_bind, if_neg Bool.false_ne_true, changeThrough, bind_error hread]
  · rw [hl, markLoop, run_bind, bind_error hread]

/-- `mark_pre_reservation` with a pointer to an equal reservation. -/
theorem markPreReservation_run (h : R.Sole T a x) (hx : x.state = .created)
    (hread : deref.run ⟨R, p⟩ = (.ok z, ⟨R, p⟩)) (hz : z.equals x = true) :
    markPreReservation.run ⟨R, p⟩ = (.ok a, ⟨R.put a { x with state := .preReserved }, p⟩) := by
  obtain ⟨l₁, l₂, hl, h₁, h₂⟩ := h.split
  have hmem₁ : ∀ e ∈ l₁, e ∈ R.reservations := by
    intro e he
    rw [hl]
    exact List.mem_append_left _ he
  have htz : timestamp z.uuid = T := by
    rw [(Reservation.equals_iff.mp hz).1]
    exact h.mem.2
  have hpre : x.preReserve = some { x with state := .preReserved } := by
    rw [Reservation.preReserve, if_pos hx]
  have hloop : (markPreLoop (R.reservations.map (·.1))).run ⟨R, p⟩ =
      (.ok (some a), ⟨R.put a { x with state := .preReserved }, p⟩) := by
    rw [hl, List.map_append, markPreLoop_skip h.valid hread htz hmem₁ h₁, List.map_cons,
      markPreLoop, bind_ok hread, bind_ok (itemAt_run h.mem.1 h.valid), hz, if_pos rfl,
      bind_ok (changeAt_run h hpre), run_pure]
  rw [markPreReservation, bind_ok (run_get _), bind_ok hloop]
  rfl

/-- The reservation as `available_for_performance` leaves it. -/
def assessed (assessment : Assessment) (priority : UInt8) (z : Reservation) : Reservation :=
  (z.setPriority priority).updateLastBid (assessment.estimateBid (z.setPriority priority))

/-- The request can be performed: neither the assessment nor the bid is zero. -/
def Assessment.admits (assessment : Assessment) (priority : UInt8) (z : Reservation) : Bool :=
  !isZeroDouble (assessment.bareMetalResourceAssessment z.requirements) &&
    !isZeroDouble (assessment.estimateBid (z.setPriority priority))

theorem availableForPerformance_refused {assessment : Assessment} {priority : UInt8}
    (h : assessment.admits priority z = false) :
    ∃ z', (availableForPerformance assessment priority).run ⟨R, .own z⟩ =
      (.ok none, ⟨R, .own z'⟩) := by
  rw [availableForPerformance, bind_ok deref_own]
  by_cases hzero : isZeroDouble (assessment.bareMetalResourceAssessment z.requirements) = true
  · rw [if_pos hzero]
    exact ⟨z, rfl⟩
  rw [if_neg hzero, bind_ok (writeThrough_own _), bind_ok deref_own, bind_ok (writeThrough_own _)]
  have hbid : isZeroDouble (assessment.estimateBid (z.setPriority priority)) = true := by
    simpa [Assessment.admits, hzero] using h
  rw [if_pos hbid]
  exact ⟨_, rfl⟩

/-- `available_for_performance` adds a copy of a reservation that is not in the list. -/
theorem availableForPerformance_admitted {assessment : Assessment} {priority : UInt8}
    (h : assessment.admits priority z = true) :
    (availableForPerformance assessment priority).run ⟨R, .own z⟩ =
      (.ok (some R.nextAddress), ⟨R.push (assessed assessment priority z).copy,
        .own (assessed assessment priority z)⟩) := by
  obtain ⟨hzero, hbid⟩ := Bool.and_eq_true_iff.mp h
  rw [Bool.not_eq_true'] at hzero hbid
  rw [availableForPerformance, bind_ok deref_own, hzero, if_neg Bool.false_ne_true,
    bind_ok (writeThrough_own _), bind_ok deref_own, bind_ok (writeThrough_own _), hbid,
    if_neg Bool.false_ne_true, bind_ok deref_own]
  rfl

/-- On a reservation of the list, `available_for_performance` writes to the list. -/
theorem availableForPerformance_listed {assessment : Assessment} {priority : UInt8} {o : Option Nat}
    {s : Held} (h : R.Sole T a x)
    (hrun : (availableForPerformance assessment priority).run ⟨R, .listed a⟩ = (.ok o, s)) :
    s.pointer = .listed a ∧
      ((o = none ∧ assessment.admits priority x = false ∧
        ∃ y, y.state = x.state ∧ y.uuid = x.uuid ∧ s.resources = R.put a y) ∨
      ∃ y, o = some (R.put a y).nextAddress ∧ y.state = x.state ∧ y.uuid = x.uuid ∧
        s.resources = (R.put a y).push y.copy) := by
  rw [availableForPerformance, bind_ok (deref_listed h)] at hrun
  by_cases hzero : isZeroDouble (assessment.bareMetalResourceAssessment x.requirements) = true
  · rw [if_pos hzero] at hrun
    cases hrun
    exact ⟨rfl, Or.inl ⟨rfl, by simp [Assessment.admits, hzero], x, rfl, rfl, h.put_self.symm⟩⟩
  have h₁ : (R.put a (x.setPriority priority)).Sole T a (x.setPriority priority) := h.put h.mem.2
  rw [if_neg hzero, bind_ok (writeThrough_listed h _), bind_ok (deref_listed h₁),
    bind_ok (writeThrough_listed h₁ _), Resources.put_put] at hrun
  by_cases hbid : isZeroDouble (assessment.estimateBid (x.setPriority priority)) = true
  · rw [if_pos hbid] at hrun
    cases hrun
    exact ⟨rfl, Or.inl ⟨rfl, by simp [Assessment.admits, hbid], assessed assessment priority x, rfl,
      rfl, rfl⟩⟩
  have h₂ : (R.put a (assessed assessment priority x)).Sole T a (assessed assessment priority x) :=
    h.put h.mem.2
  rw [if_neg hbid] at hrun
  have hread := deref_listed h₂
  rw [assessed] at hread
  rw [bind_ok hread] at hrun
  cases hrun
  exact ⟨rfl, Or.inr ⟨assessed assessment priority x, rfl, rfl, rfl, rfl⟩⟩

/-- A loop of `mark_pre_reservation` that ends well met no equal element. -/
theorem markPreLoop_ok {addresses : List Nat} {o : Option Nat} {s s' : Held}
    (hread : deref.run s = (.ok x, s)) (hx : x.state ≠ .created)
    (hrun : (markPreLoop addresses).run s = (.ok o, s')) :
    o = none ∧ s' = s ∧ ∀ b ∈ addresses, ∀ y,
      ReservationList.lookup s.resources.reservations b = some y → x.equals y = false := by
  induction addresses with
  | nil =>
    cases hrun
    exact ⟨rfl, rfl, nofun⟩
  | cons b rest ih =>
    rw [markPreLoop, bind_ok hread] at hrun
    obtain ⟨y, s₁, hitem, hrest⟩ := bind_eq_ok.mp hrun
    rw [itemAt, bind_ok (run_get s)] at hitem
    rcases hy : ReservationList.lookup s.resources.reservations b with _ | z
    · rw [hy] at hitem
      cases hitem
    rw [hy, require_some, run_pure] at hitem
    cases hitem
    by_cases heq : x.equals y = true
    · -- An equal element has the same state, so its `pre_reserve` fails.
      rw [if_pos heq] at hrest
      obtain ⟨⟨⟩, s₂, hchange, -⟩ := bind_eq_ok.mp hrest
      have hstate : y.state ≠ .created := by
        rw [← (Reservation.equals_iff.mp heq).2.1]
        exact hx
      have hread' : (itemAt b).run s = (.ok y, s) := by
        rw [itemAt, bind_ok (run_get s), hy, require_some, run_pure]
      rw [changeAt, bind_ok hread', Reservation.preReserve, if_neg hstate] at hchange
      cases hchange
    · rw [if_neg heq] at hrest
      obtain ⟨rfl, rfl, hne⟩ := ih hrest
      refine ⟨rfl, rfl, ?_⟩
      intro c hc z hz
      rcases List.mem_cons.mp hc with rfl | hc
      · rw [hy] at hz
        cases hz
        exact Bool.eq_false_iff.mpr heq
      · exact hne c hc z hz

/-- `mark_pre_reservation` fails on a reservation of the list that is not new. -/
theorem markPreReservation_listed {o : Nat} {s' : Held}
    (hl : ReservationList.lookup R.reservations a = some x) (hx : x.state ≠ .created) :
    markPreReservation.run ⟨R, .listed a⟩ ≠ (.ok o, s') := by
  intro hrun
  rw [markPreReservation, bind_ok (run_get _)] at hrun
  obtain ⟨found, s₁, hloop, -⟩ := bind_eq_ok.mp hrun
  have hread : deref.run ⟨R, .listed a⟩ = (.ok x, ⟨R, .listed a⟩) := by
    simp only [deref, Held.read, hl]
  obtain ⟨-, -, hne⟩ := markPreLoop_ok hread hx hloop
  obtain ⟨e, he, rfl⟩ := Option.map_eq_some_iff.mp hl
  have hmem : a ∈ R.reservations.map (·.1) := by
    refine List.mem_map.mpr ⟨e, List.mem_of_find?_eq_some he, ?_⟩
    simpa using List.find?_some he
  have hself := hne a hmem e.2 hl
  rw [Reservation.equals_refl] at hself
  cases hself

theorem findEqual_sole (h : R.Sole T a x) : findEqual R.reservations x = some a := by
  rcases hf : R.reservations.find? (·.2.equals x) with _ | ⟨b, y⟩
  · exact absurd (Reservation.equals_refl x) (List.find?_eq_none.mp hf _ h.mem.1)
  · have heq := List.find?_some hf
    have hmem := List.mem_of_find?_eq_some hf
    have hty : timestamp y.uuid = T := by
      rw [(Reservation.equals_iff.mp heq).1]
      exact h.mem.2
    simp only [findEqual, hf, Option.map_some, (h.eq_of_mem hmem hty).1]

/-- `replenish_reservation` erases the one reservation of a session. -/
theorem replenishReservation_run {y : Reservation} (h : R.Sole T a x)
    (hy : x.replenish = some y) :
    replenishReservation.run ⟨R, .listed a⟩ = (.ok (), ⟨R.remove a, .listed a⟩) := by
  have hempty : ¬R.reservations.isEmpty = true := by
    intro he
    have hmem := h.mem.1
    rw [List.isEmpty_iff.mp he] at hmem
    cases hmem
  rw [replenishReservation, bind_ok (run_get _), if_neg hempty, bind_ok (deref_listed h)]
  simp only [findEqual_sole h]
  rw [bind_ok (changeThrough_listed h hy), run_modify]
  exact congrArg (fun r => ((Except.ok () : Except Fault Unit), (⟨r, .listed a⟩ : Held)))
    Resources.remove_put

/-- The reservation that `get_reservation_for` finds. -/
theorem Resources.Free.find?_eq_none {uuid : UUIDv4} (ulid : Ulid) (h : R.Free T)
    (hu : timestamp uuid = T) :
    R.reservations.find? (fun e => isSameTimestamp ulid e.2.uuid uuid) = none := by
  rw [List.find?_eq_none]
  intro e he hsame
  have hmem : e ∈ ReservationList.session T R.reservations :=
    ReservationList.mem_session.mpr ⟨he, (isSameTimestamp_iff.mp hsame).trans hu⟩
  rw [h.session] at hmem
  cases hmem

theorem Resources.Sole.find?_eq_some {uuid : UUIDv4} (ulid : Ulid) (h : R.Sole T a x)
    (hu : timestamp uuid = T) :
    R.reservations.find? (fun e => isSameTimestamp ulid e.2.uuid uuid) = some (a, x) := by
  rcases hf : R.reservations.find? (fun e => isSameTimestamp ulid e.2.uuid uuid) with _ | ⟨b, y⟩
  · refine absurd ?_ (List.find?_eq_none.mp hf _ h.mem.1)
    exact isSameTimestamp_iff.mpr (h.mem.2.trans hu.symm)
  · have hsame := List.find?_some hf
    rw [isSameTimestamp_iff] at hsame
    obtain ⟨rfl, rfl⟩ := h.eq_of_mem (List.mem_of_find?_eq_some hf) (hsame.trans hu)
    exact hf

theorem getReservationFor_none {ulid : Ulid} {uuid : UUIDv4}
    (hf : R.reservations.find? (fun e => isSameTimestamp ulid e.2.uuid uuid) = none) :
    (getReservationFor ulid uuid).run ⟨R, p⟩ = (.ok .null, ⟨R, p⟩) := by
  rw [getReservationFor, bind_ok (run_get _)]
  simp only [hf]
  rfl

theorem getReservationFor_some {ulid : Ulid} {uuid : UUIDv4} (hv : R.Valid)
    (hf : R.reservations.find? (fun e => isSameTimestamp ulid e.2.uuid uuid) = some (a, x)) :
    (getReservationFor ulid uuid).run ⟨R, p⟩ =
      (.ok (.listed a), ⟨R.put a (x.setUuid uuid), p⟩) := by
  rw [getReservationFor, bind_ok (run_get _)]
  simp only [hf]
  by_cases he : x.uuid = uuid
  · have hx : x.setUuid uuid = x := by rw [← he]; rfl
    have hl := ReservationList.lookup_of_mem hv.nodup (List.mem_of_find?_eq_some hf)
    rw [if_pos he, run_pure, hx, hv.put_self hl]
  · rw [if_neg he]
    rfl

end Operations

end Rankd

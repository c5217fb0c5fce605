import Rankd.Node.Acts
import Rankd.Node.Session

/-!
# Marking reservations in any list

`available_for_performance` adds a reservation in state `CREATED`, and the branch that called it
marks the reservation before it ends. So between two rounds every reservation of the list is marked
(`Node.Reachable.marked`), and one that was just added is equal to no other:

* `markReservation_pushed`, `markPreReservation_pushed`: a reservation that was just added
* `markReservation_iff`: the first reservation of a session, as for an ACC
* `Safe`, `Tidies`: programs that fail no assertion and leave the list alone, or keep a property of
  it
* `operatorCall_lasting`: a round keeps what editing, pre-reserving and granting keep
-/

namespace Rankd

open Infra Prog

/-- Every reservation of the list was marked since it was added. -/
def Resources.Marked (R : Resources) : Prop := ∀ e ∈ R.reservations, e.2.state ≠ .created

/-! ## Lists -/

section Lists

variable {a b : Nat} {R : Resources} {x y : Reservation}

theorem Resources.Marked.put (h : R.Marked) (hy : y.state ≠ .created) : (R.put a y).Marked := by
  intro e (he : e ∈ ReservationList.update R.reservations a fun _ => y)
  rcases ReservationList.mem_update he with he | ⟨r, -, rfl⟩
  · exact h e he
  · exact hy

theorem Resources.Marked.push (h : R.Marked) (hx : x.state ≠ .created) : (R.push x).Marked := by
  intro e he
  rcases List.mem_append.mp he with he | he
  · exact h e he
  · rw [List.mem_singleton.mp he]
    exact hx

theorem Resources.Marked.lookup (h : R.Marked)
    (hl : ReservationList.lookup R.reservations a = some x) : x.state ≠ .created :=
  h _ (ReservationList.lookup_mem hl)

theorem Resources.Valid.put (hv : R.Valid) : (R.put a y).Valid := by
  refine ⟨?_, ?_⟩
  · rw [Resources.put, ReservationList.addresses_update]
    exact hv.nodup
  · intro e (he : e ∈ ReservationList.update R.reservations a fun _ => y)
    rcases ReservationList.mem_update he with he | ⟨r, hr, rfl⟩
    · exact hv.fresh e he
    · exact hv.fresh (a, r) hr

theorem Resources.Valid.push (hv : R.Valid) : (R.push x).Valid := hv.append x

theorem Resources.Valid.lookup_push (hv : R.Valid) :
    ReservationList.lookup (R.push x).reservations R.nextAddress = some x :=
  ReservationList.lookup_of_mem hv.push.nodup (List.mem_append_right _ List.mem_cons_self)

end Lists

/-! ## Pointers -/

section Pointers

variable {s : Held} {x y z : Reservation}

theorem Held.read_listed {R : Resources} {a : Nat} : Held.read ⟨R, .listed a⟩ = .ok x ↔
    ReservationList.lookup R.reservations a = some x := by
  simp only [Held.read]
  rcases ReservationList.lookup R.reservations a with _ | y
  · simp
  · simp

/-- A pointer that can be read can be written. -/
theorem Held.read_write (hx : s.read = .ok x) : (s.write y).read = .ok y := by
  obtain ⟨R, p⟩ := s
  cases p with
  | null => cases hx
  | own z => rfl
  | listed a =>
    simp only [Held.read] at hx
    rcases hl : ReservationList.lookup R.reservations a with _ | z
    · rw [hl] at hx
      cases hx
    · have hupdate := ReservationList.lookup_update (f := fun _ => y) hl
      simp only [Held.write, Held.read, hupdate]

theorem Held.read_push (hx : s.read = .ok x) :
    Held.read ⟨s.resources.push y, s.pointer⟩ = .ok x := by
  obtain ⟨R, p⟩ := s
  cases p with
  | null => cases hx
  | own z => exact hx
  | listed a =>
    simp only [Held.read] at hx ⊢
    rcases hl : ReservationList.lookup R.reservations a with _ | z
    · rw [hl] at hx
      cases hx
    · rw [hl] at hx
      rw [Resources.push, ReservationList.lookup_append hl]
      exact hx

theorem Held.write_write : (s.write y).write z = s.write z := by
  obtain ⟨R, p⟩ := s
  cases p with
  | null => rfl
  | own x => rfl
  | listed a =>
    have hput : (R.put a y).put a z = R.put a z := Resources.put_put
    exact congrArg (fun R => (⟨R, .listed a⟩ : Held)) hput

/-- Writing changes one reservation of the list, at most. -/
theorem Held.mem_write {e : Nat × Reservation} (he : e ∈ (s.write y).resources.reservations) :
    e ∈ s.resources.reservations ∨ e.2 = y := by
  obtain ⟨R, p⟩ := s
  cases p with
  | null => exact Or.inl he
  | own x => exact Or.inl he
  | listed a =>
    have hmem : e ∈ ReservationList.update R.reservations a fun _ => y := he
    rcases ReservationList.mem_update hmem with he | ⟨r, -, rfl⟩
    · exact Or.inl he
    · exact Or.inr rfl

@[simp] theorem Held.write_nextAddress :
    (s.write y).resources.nextAddress = s.resources.nextAddress := by
  obtain ⟨R, p⟩ := s
  cases p <;> rfl

theorem Held.write_valid (hv : s.resources.Valid) : (s.write y).resources.Valid := by
  obtain ⟨R, p⟩ := s
  cases p with
  | null => exact hv
  | own x => exact hv
  | listed a => exact hv.put

/-- Writing keeps the list marked, if it keeps the state of what is written. -/
theorem Held.write_marked (h : s.resources.Marked) (hx : s.read = .ok x) (hy : y.state = x.state) :
    (s.write y).resources.Marked := by
  obtain ⟨R, p⟩ := s
  cases p with
  | null => exact h
  | own z => exact h
  | listed a =>
    simp only [Held.read] at hx
    rcases hl : ReservationList.lookup R.reservations a with _ | z
    · rw [hl] at hx
      cases hx
    · rw [hl] at hx
      cases hx
      exact h.put (hy ▸ h.lookup hl)

theorem deref_run (hx : s.read = .ok x) : deref.run s = (.ok x, s) := by
  simp only [deref, hx]

theorem writeThrough_run (hx : s.read = .ok x) (f : Reservation → Reservation) :
    (writeThrough f).run s = (.ok (), s.write (f x)) := by
  rw [writeThrough, bind_ok (deref_run hx), run_modify]

theorem deref_ok {s' : Held} (hrun : deref.run s = (.ok x, s')) : s' = s ∧ s.read = .ok x := by
  obtain ⟨hx, rfl⟩ := Prod.mk.inj hrun
  exact ⟨rfl, hx⟩

/-- **What `available_for_performance` does**: it writes its bid, and adds a copy if it admits. -/
theorem availableForPerformance_ok {assessment : Assessment} {priority : UInt8} {o : Option Nat}
    {s' : Held} (hrun : (availableForPerformance assessment priority).run s = (.ok o, s')) :
    ∃ x, s.read = .ok x ∧
      (assessment.admits priority x = false ∧ o = none ∧
          (s' = s ∨ s' = s.write (assessed assessment priority x)) ∨
        assessment.admits priority x = true ∧ o = some s.resources.nextAddress ∧
          s' = ⟨(s.write (assessed assessment priority x)).resources.push
            (assessed assessment priority x).copy,
            (s.write (assessed assessment priority x)).pointer⟩) := by
  rw [availableForPerformance] at hrun
  obtain ⟨x, s₁, hderef, hrest⟩ := bind_eq_ok.mp hrun
  obtain ⟨rfl, hx⟩ := deref_ok hderef
  refine ⟨x, hx, ?_⟩
  by_cases hzero : isZeroDouble (assessment.bareMetalResourceAssessment x.requirements) = true
  · rw [if_pos hzero] at hrest
    cases hrest
    exact Or.inl ⟨by simp [Assessment.admits, hzero], rfl, Or.inl rfl⟩
  rw [if_neg hzero, bind_ok (writeThrough_run hx _), bind_ok (deref_run (Held.read_write hx)),
    bind_ok (writeThrough_run (Held.read_write hx) _), Held.write_write] at hrest
  by_cases hbid : isZeroDouble (assessment.estimateBid (x.setPriority priority)) = true
  · rw [if_pos hbid] at hrest
    cases hrest
    exact Or.inl ⟨by simp [Assessment.admits, hbid], rfl, Or.inr rfl⟩
  rw [if_neg hbid, bind_ok (deref_run (Held.read_write hx))] at hrest
  cases hrest
  refine Or.inr ⟨by simp [Assessment.admits, hzero, hbid], ?_, rfl⟩
  rw [Held.write_nextAddress]

end Pointers

/-! ## Marking -/

section Marking

variable {T a b : Nat} {R : Resources} {p : ReservationPtr}
  {x y z : Reservation}

/-- A new reservation is equal to none that was marked. -/
theorem Resources.Marked.unequal (h : R.Marked) (hz : z.state = .created) :
    ∀ e ∈ R.reservations, z.equals e.2 = false := by
  intro e he
  rw [← Bool.not_eq_true]
  intro heq
  refine h e he ?_
  rw [← (Reservation.equals_iff.mp heq).2.1, hz]

theorem changeAt_put {f : Reservation → Option Reservation} (hv : R.Valid)
    (hx : (a, x) ∈ R.reservations) (hy : f x = some y) :
    (changeAt a f).run ⟨R, p⟩ = (.ok (), ⟨R.put a y, p⟩) := by
  rw [changeAt, bind_ok (itemAt_run hx hv), hy, require_some, pure_bind]
  rfl

theorem changeAt_assertion {f : Reservation → Option Reservation} (hv : R.Valid)
    (hx : (a, x) ∈ R.reservations) (hy : f x = none) :
    (changeAt a f).run ⟨R, p⟩ = (.error .assertion, ⟨R, p⟩) := by
  rw [changeAt, bind_ok (itemAt_run hx hv), hy, require_none, bind_error (run_fault _ _)]

theorem markItem_granted (hy : markItem x = some y) : y.state = .reserved := by
  unfold markItem Reservation.markReserved Reservation.reserve at hy
  split_ifs at hy
  · cases hy
    rfl
  · cases hy
    rfl

/-- **`mark_reservation` on the reservation that was just added.** -/
theorem markReservation_pushed (hv : R.Valid) (h : R.Marked)
    (hx : x.state = .created) : markReservation.run ⟨R.push x, .listed R.nextAddress⟩ =
      (.ok (), ⟨R.push { x with state := .reserved }, .listed R.nextAddress⟩) := by
  have hread : deref.run ⟨R.push x, .listed R.nextAddress⟩ =
      (.ok x, ⟨R.push x, .listed R.nextAddress⟩) := by
    simp only [deref, Held.read, hv.lookup_push]
  have hmem : (R.nextAddress, x) ∈ (R.push x).reservations :=
    List.mem_append_right _ List.mem_cons_self
  have hmark : markItem x = some { x with state := .reserved } := by
    simp [markItem, Reservation.reserve, hx]
  have hloop : (markLoop ((R.push x).reservations.map (·.1)) false).run
      ⟨R.push x, .listed R.nextAddress⟩ =
        (.ok true, ⟨R.push { x with state := .reserved }, .listed R.nextAddress⟩) := by
    have hkeys : (R.push x).reservations.map (·.1) =
        R.reservations.map (·.1) ++ [R.nextAddress] := List.map_append
    rw [hkeys, markLoop_unequal hv.push hread (fun e he => List.mem_append_left _ he)
      (h.unequal hx), markLoop, bind_ok hread, bind_ok (itemAt_run hmem hv.push),
      Reservation.equals_refl, if_pos rfl, bind_ok (changeAt_put hv.push hmem hmark), hv.put_push]
    rfl
  rw [markReservation, bind_ok (run_get _), bind_ok hloop, if_pos rfl, run_pure]

/-- **`mark_pre_reservation` after a copy of the reservation was added.** -/
theorem markPreReservation_pushed (hv : R.Valid) (h : R.Marked)
    (hx : x.state = .created) (hread : deref.run ⟨R.push x, p⟩ = (.ok z, ⟨R.push x, p⟩))
    (hz : z.equals x = true) : markPreReservation.run ⟨R.push x, p⟩ =
      (.ok R.nextAddress, ⟨R.push { x with state := .preReserved }, p⟩) := by
  have hmem : (R.nextAddress, x) ∈ (R.push x).reservations :=
    List.mem_append_right _ List.mem_cons_self
  have hpre : x.preReserve = some { x with state := .preReserved } := by
    rw [Reservation.preReserve, if_pos hx]
  have hcreated : z.state = .created := (Reservation.equals_iff.mp hz).2.1.trans hx
  have hloop : (markPreLoop ((R.push x).reservations.map (·.1))).run ⟨R.push x, p⟩ =
      (.ok (some R.nextAddress), ⟨R.push { x with state := .preReserved }, p⟩) := by
    have hkeys : (R.push x).reservations.map (·.1) =
        R.reservations.map (·.1) ++ [R.nextAddress] := List.map_append
    rw [hkeys, markPreLoop_unequal hv.push hread (fun e he => List.mem_append_left _ he)
      (h.unequal hcreated), markPreLoop, bind_ok hread, bind_ok (itemAt_run hmem hv.push), hz,
      if_pos rfl, bind_ok (changeAt_put hv.push hmem hpre), hv.put_push]
    rfl
  rw [markPreReservation, bind_ok (run_get _), bind_ok hloop]
  rfl

/-- Once the reservation itself is marked, an equal element fails the assertion. -/
theorem markLoop_reserved_iff (hv : R.Valid) (hread : deref.run ⟨R, p⟩ = (.ok z, ⟨R, p⟩))
    (hz : z.state = .reserved) {l : ReservationList} (hl : ∀ e ∈ l, e ∈ R.reservations)
    (found : Bool) : Succeeds (markLoop (l.map (·.1)) found) ⟨R, p⟩ ↔
      ∀ e ∈ l, z.equals e.2 = false := by
  induction l with
  | nil => simp [markLoop, Succeeds.pure_iff]
  | cons e l ih =>
    have ih := ih fun e he => hl e (List.mem_cons_of_mem _ he)
    have hitem : (itemAt e.1).run ⟨R, p⟩ = (.ok e.2, ⟨R, p⟩) :=
      itemAt_run (hl e List.mem_cons_self) hv
    rw [List.map_cons, markLoop, Succeeds.bind_of_ok hread, Succeeds.bind_of_ok hitem,
      List.forall_mem_cons]
    by_cases heq : z.equals e.2 = true
    · have hmark : markItem e.2 = none := by
        have hstate : e.2.state = .reserved := (Reservation.equals_iff.mp heq).2.1.symm.trans hz
        simp [markItem, Reservation.markReserved, hstate]
      have hchange := changeAt_assertion (p := p) hv (hl e List.mem_cons_self) hmark
      rw [if_pos heq, Succeeds.bind_of_error hchange, heq]
      simp
    · rw [if_neg heq, ih]
      rw [Bool.not_eq_true] at heq
      simp [heq]

/-- No other element of the list is equal to the reservation at the address, once
that is granted. -/
def Resources.Unrivalled (a : Nat) (x : Reservation) (R : Resources) : Prop :=
  ∀ e ∈ R.reservations, e.1 ≠ a → ({ x with state := .reserved } : Reservation).equals e.2 = false

/-- The loop of `mark_reservation`, for a reservation behind those of other sessions. -/
theorem markLoop_first {l₁ l₂ : ReservationList} (hv : R.Valid)
    (hl : R.reservations = l₁ ++ (a, x) :: l₂) (h₁ : ∀ e ∈ l₁, x.equals e.2 = false)
    (hx : x.state = .preReserved) :
    (markLoop (R.reservations.map (·.1)) false).run ⟨R, .listed a⟩ =
      (markLoop (l₂.map (·.1)) true).run ⟨R.put a { x with state := .reserved }, .listed a⟩ := by
  have hmem : (a, x) ∈ R.reservations := by simp [hl]
  have hread : deref.run ⟨R, .listed a⟩ = (.ok x, ⟨R, .listed a⟩) := by
    simp only [deref, Held.read, ReservationList.lookup_of_mem hv.nodup hmem]
  have hmark : markItem x = some { x with state := .reserved } := by
    simp [markItem, Reservation.markReserved, hx]
  have hkeys : R.reservations.map (·.1) = l₁.map (·.1) ++ a :: l₂.map (·.1) := by simp [hl]
  rw [hkeys, markLoop_unequal hv hread (fun e he => by simp [hl, he]) h₁, markLoop, bind_ok hread,
    bind_ok (itemAt_run hmem hv), Reservation.equals_refl, if_pos rfl,
    bind_ok (changeAt_put hv hmem hmark)]

/-- The other elements of a list are at other addresses. -/
theorem Resources.Valid.ne_of_split {l₁ l₂ : ReservationList} {e : Nat × Reservation} (hv : R.Valid)
    (hl : R.reservations = l₁ ++ (a, x) :: l₂) (he : e ∈ l₁ ∨ e ∈ l₂) : e.1 ≠ a := by
  have hnodup := hv.nodup
  rw [hl, ReservationList.addresses, List.map_append, List.map_cons] at hnodup
  obtain ⟨-, hbehind, hdisjoint⟩ := List.nodup_append.mp hnodup
  rcases he with he | he
  · exact hdisjoint e.1 (List.mem_map_of_mem he) a List.mem_cons_self
  · intro heq
    have hmem : e.1 ∈ l₂.map (·.1) := List.mem_map_of_mem he
    rw [heq] at hmem
    exact (List.nodup_cons.mp hbehind).1 hmem

/-- The elements of other sessions are no rivals. -/
theorem unrivalled_iff {l₁ l₂ : ReservationList} (hv : R.Valid)
    (hl : R.reservations = l₁ ++ (a, x) :: l₂) (h₁ : ∀ e ∈ l₁, e.2.uuid ≠ x.uuid) :
    R.Unrivalled a x ↔
      ∀ e ∈ l₂, ({ x with state := .reserved } : Reservation).equals e.2 = false := by
  constructor
  · intro h e he
    exact h e (by simp [hl, he]) (hv.ne_of_split hl (Or.inr he))
  · intro h e he hne
    rw [hl, List.mem_append, List.mem_cons] at he
    rcases he with he | rfl | he
    · rw [← Bool.not_eq_true]
      intro heq
      exact h₁ e he (Reservation.equals_iff.mp heq).1.symm
    · exact absurd rfl hne
    · exact h e he

/-- `mark_reservation` on a reservation behind those of other sessions, which has no rival. -/
theorem markReservation_first {l₁ l₂ : ReservationList} (hv : R.Valid)
    (hl : R.reservations = l₁ ++ (a, x) :: l₂) (h₁ : ∀ e ∈ l₁, e.2.uuid ≠ x.uuid)
    (hx : x.state = .preReserved) :
    (R.Unrivalled a x → markReservation.run ⟨R, .listed a⟩ =
      (.ok (), ⟨R.put a { x with state := .reserved }, .listed a⟩)) ∧
      (Succeeds markReservation ⟨R, .listed a⟩ → R.Unrivalled a x) := by
  have hmem : (a, x) ∈ R.reservations := by simp [hl]
  have hfront : ∀ e ∈ l₁, x.equals e.2 = false := by
    intro e he
    rw [← Bool.not_eq_true]
    intro heq
    exact h₁ e he (Reservation.equals_iff.mp heq).1.symm
  -- The elements behind the reservation are compared with it after it was marked.
  have hloop := markLoop_first hv hl hfront hx
  have hbehind : ∀ e ∈ l₂, e ∈ (R.put a { x with state := .reserved }).reservations := by
    intro e he
    exact List.mem_map.mpr ⟨e, by simp [hl, he], if_neg (hv.ne_of_split hl (Or.inr he))⟩
  have hread : deref.run ⟨R.put a { x with state := .reserved }, .listed a⟩ =
      (.ok { x with state := .reserved }, ⟨R.put a { x with state := .reserved }, .listed a⟩) := by
    have hlookup := ReservationList.lookup_update (f := fun _ => { x with state := .reserved })
      (ReservationList.lookup_of_mem hv.nodup hmem)
    simp only [deref, Held.read, Resources.put, hlookup]
  rw [unrivalled_iff hv hl h₁, markReservation]
  constructor
  · intro hne
    have hskip := markLoop_unequal hv.put hread hbehind hne [] true
    rw [List.append_nil] at hskip
    rw [bind_ok (run_get _), bind_ok (hloop.trans hskip), if_pos rfl, run_pure]
  · intro hsucceeds
    rw [Succeeds.bind_of_ok (run_get _)] at hsucceeds
    obtain ⟨found, s, hrun, -⟩ := Succeeds.bind_iff.mp hsucceeds
    rw [hloop] at hrun
    exact (markLoop_reserved_iff hv.put hread rfl hbehind true).mp ⟨found, s, hrun⟩

/-- **When `mark_reservation` gets through**, for the first reservation of a session. -/
theorem markReservation_iff {l₁ l₂ : ReservationList} (hv : R.Valid)
    (hl : R.reservations = l₁ ++ (a, x) :: l₂) (h₁ : ∀ e ∈ l₁, e.2.uuid ≠ x.uuid)
    (hx : x.state ≠ .created) :
    Succeeds markReservation ⟨R, .listed a⟩ ↔ x.state = .preReserved ∧ R.Unrivalled a x := by
  by_cases hpre : x.state = .preReserved
  · obtain ⟨hrun, hrival⟩ := markReservation_first hv hl h₁ hpre
    constructor
    · exact fun h => ⟨hpre, hrival h⟩
    · exact fun h => ⟨_, _, hrun h.2⟩
  · refine ⟨?_, fun h => absurd h.1 hpre⟩
    intro hsucceeds
    have hmem : (a, x) ∈ R.reservations := by simp [hl]
    have hread : deref.run ⟨R, .listed a⟩ = (.ok x, ⟨R, .listed a⟩) := by
      simp only [deref, Held.read, ReservationList.lookup_of_mem hv.nodup hmem]
    have hfront : ∀ e ∈ l₁, x.equals e.2 = false := by
      intro e he
      rw [← Bool.not_eq_true]
      intro heq
      exact h₁ e he (Reservation.equals_iff.mp heq).1.symm
    have hkeys : R.reservations.map (·.1) = l₁.map (·.1) ++ a :: l₂.map (·.1) := by simp [hl]
    have hmark : markItem x = none := by simp [markItem, Reservation.markReserved, hx, hpre]
    have hloop : (markLoop (R.reservations.map (·.1)) false).run ⟨R, .listed a⟩ =
        (.error .assertion, ⟨R, .listed a⟩) := by
      rw [hkeys, markLoop_unequal hv hread (fun e he => by simp [hl, he]) hfront, markLoop,
        bind_ok hread, bind_ok (itemAt_run hmem hv), Reservation.equals_refl, if_pos rfl,
        bind_error (changeAt_assertion hv hmem hmark)]
    rw [markReservation, Succeeds.bind_of_ok (run_get _), Succeeds.bind_of_error hloop] at hsucceeds
    exact hsucceeds.elim

end Marking

/-! ## Programs that keep the list marked -/

structure Resources.Tidy (R : Resources) : Prop where
  valid : R.Valid
  marked : R.Marked

/-- What a list keeps while its reservations are edited and pre-reserved ones are added. -/
structure Resources.Lasting (L : Resources → Prop) : Prop where
  tidy {R : Resources} (h : L R) : R.Tidy
  put {R : Resources} {a : Nat} {x y : Reservation} (h : L R)
    (hx : ReservationList.lookup R.reservations a = some x) (hy : y.state = x.state) : L (R.put a y)
  push {R : Resources} {x : Reservation} (h : L R) (hx : x.state = .preReserved) : L (R.push x)

/-- What a list also keeps while reservations are granted. -/
structure Resources.Granting (L : Resources → Prop) : Prop where
  put {R : Resources} {a : Nat} {x y : Reservation} (h : L R)
    (hx : ReservationList.lookup R.reservations a = some x)
      (hy : y.state = .reserved) : L (R.put a y)
  push {R : Resources} {x : Reservation} (h : L R) (hx : x.state = .reserved) : L (R.push x)

theorem Resources.Tidy.lasting : Resources.Lasting Resources.Tidy where
  tidy h := h
  put h hx hy := ⟨h.valid.put, h.marked.put (hy ▸ h.marked.lookup hx)⟩
  push h hx := ⟨h.valid.push, h.marked.push (by rw [hx]; nofun)⟩

theorem Resources.Tidy.granting : Resources.Granting Resources.Tidy where
  put h _ hy := ⟨h.valid.put, h.marked.put (by rw [hy]; nofun)⟩
  push h hx := ⟨h.valid.push, h.marked.push (by rw [hx]; nofun)⟩

section Writing

variable {L : Resources → Prop} {s : Held} {x y : Reservation}

theorem Resources.Lasting.write (hL : Resources.Lasting L) (h : L s.resources)
    (hx : s.read = .ok x) (hy : y.state = x.state) : L (s.write y).resources := by
  obtain ⟨R, p⟩ := s
  cases p with
  | null => exact h
  | own z => exact h
  | listed a => exact hL.put h (Held.read_listed.mp hx) hy

theorem Resources.Granting.write (hL : Resources.Granting L) (h : L s.resources)
    (hx : s.read = .ok x) (hy : y.state = .reserved) : L (s.write y).resources := by
  obtain ⟨R, p⟩ := s
  cases p with
  | null => exact h
  | own z => exact h
  | listed a => exact hL.put h (Held.read_listed.mp hx) hy

end Writing

/-- Programs that keep `J`, about the list and the pointer, and fail no assertion. -/
def Safe {α : Type} (J : Held → Prop) (p : ThreadM α) : Prop :=
  Spec (fun t => J t.held) p (fun _ t => J t.held) (· ≠ .assertion)

/-- Programs that keep `L`, about the list, and fail no assertion. -/
def Tidies {α : Type} (L : Resources → Prop) (p : ThreadM α) : Prop :=
    Safe (fun s => L s.resources) p

section Programs

variable {α β : Type} {J : Held → Prop} {L : Resources → Prop} {env : Env} {me : HandlerId}
  {peers : List Handler}

theorem Safe.bind {p : ThreadM α} {f : α → ThreadM β} (hp : Safe J p) (hf : ∀ a, Safe J (f a)) :
    Safe J (p >>= f) := Spec.bind hp hf

theorem Safe.pure (a : α) : Safe J (Pure.pure a) := Spec.pure fun _ h => h

theorem Safe.get : Safe J Prog.get := Spec.get fun _ h => h

theorem Safe.fault {e : Fault} (he : e ≠ .assertion) : Safe J (Prog.fault e : ThreadM α) :=
  Spec.fault he

theorem Safe.ite {c : Prop} [Decidable c] {p q : ThreadM α} (hp : Safe J p) (hq : Safe J q) :
    Safe J (if c then p else q) := Spec.ite hp hq

theorem Safe.forEach {l : List α} {body : α → ThreadM Unit} (h : ∀ a ∈ l, Safe J (body a)) :
    Safe J (Prog.forEach l body) := Spec.forEach h

theorem Safe.modify {f : Thread → Thread} (hf : ∀ t, (f t).held = t.held) :
    Safe J (Prog.modify f) := Spec.modify fun t h => (hf t).symm ▸ h

theorem setState_safe (state : HandlerState) : Safe J (setState state) := .modify fun _ => rfl

theorem stop_safe : Safe J stop := .modify fun _ => rfl

theorem setReservation_tidies (pointer : ReservationPtr) : Tidies L (setReservation pointer) :=
  fun _ h => h

theorem initiateTimeout_safe (type : TimeoutType) : Safe J (initiateTimeout me type) :=
  .modify fun _ => rfl

theorem firstByte_safe (bytes : Bytes) : Safe J (firstByte bytes) := Spec.require nofun

theorem sourceFirst_safe : Safe J sourceFirst := .bind .get fun _ => firstByte_safe _

theorem sendMessage_safe (message : Message) (target : Bytes) (type : IdentifierType) :
    Safe J (sendMessage message target type) :=
  .bind (Spec.ensure nofun) fun _ => .modify fun _ => rfl

theorem nearestToSource_safe : Safe J (nearestToSource env) :=
  .bind sourceFirst_safe fun _ => .bind (Spec.require nofun) fun _ => .pure _

theorem portTo_safe (target : UInt8) : Safe J (portTo env target) :=
  .bind (Spec.require nofun) fun _ => .bind (Spec.require nofun) fun _ => .pure _

/-- What is read is what the pointer points to. -/
theorem deref_spec (P : Held → Prop) :
    Spec P deref (fun x s => P s ∧ s.read = .ok x) (· ≠ .assertion) := by
  refine Spec.intro ?_ ?_
  · intro s x s' h hrun
    obtain ⟨rfl, hx⟩ := deref_ok hrun
    exact ⟨h, hx⟩
  · intro s e s' _ hrun
    obtain ⟨hread, -⟩ := Prod.mk.inj hrun
    rintro rfl
    unfold Held.read at hread
    split at hread
    · cases hread
    · split at hread
      · cases hread
      · cases hread
    · cases hread

theorem Safe.onReservation {p : HeldM α} (hp : Spec J p (fun _ => J) (· ≠ .assertion)) :
    Safe J (onReservation p) := by
  refine Spec.intro ?_ ?_
  · intro t a t' h hrun
    obtain ⟨s, hs, rfl⟩ := onReservation_ok hrun
    exact hp.ok h hs
  · intro t e t' h hrun
    obtain ⟨he, -⟩ := Prod.mk.inj hrun
    exact hp.error (s := t.held) h (Prod.ext he rfl)

theorem deref_safe : Safe J (onReservation deref) := by
  refine .onReservation (Spec.intro ?_ ?_)
  · intro s x s' h hrun
    exact ((deref_spec J).ok h hrun).1
  · intro s e s' h hrun
    exact (deref_spec J).error h hrun

/-- A setter that leaves the state. -/
theorem writeThrough_tidies (hL : Resources.Lasting L) {f : Reservation → Reservation}
    (hf : ∀ x, (f x).state = x.state) :
    Tidies L (onReservation (writeThrough f)) := by
  refine Safe.onReservation (Spec.bind (deref_spec _) fun x => Spec.modify ?_)
  rintro s ⟨h, hx⟩
  exact hL.write h hx (hf x)

theorem setPastNode_tidies (hL : Resources.Lasting L) (node : NodeIdentifier) :
    Tidies L (setPastNode node) :=
  .bind (writeThrough_tidies hL fun _ => rfl) fun _ => .bind deref_safe fun _ => Spec.ensure nofun

theorem addNextNode_tidies (hL : Resources.Lasting L) (node : NodeIdentifier) :
    Tidies L (addNextNode node) :=
  .bind (writeThrough_tidies hL fun _ => rfl) fun _ => .bind deref_safe fun _ => Spec.ensure nofun

/-- The end of a branch. -/
theorem finish_safe (state : HandlerState) (exit : Exit) :
    Safe J (do setState state; stop; return exit) :=
  .bind (setState_safe state) fun _ => .bind stop_safe fun _ => .pure exit

theorem refuseToSource_safe : Safe J (refuseToSource env) :=
  .bind .get fun _ => .bind nearestToSource_safe fun _ => sendMessage_safe _ _ _

theorem earForward_tidies (hL : Resources.Lasting L) (address : Bytes) :
    Tidies L (earForward env me address) := by
  refine .bind (firstByte_safe _) fun _ => .bind .get fun t => ?_
  split
  · exact .bind (sendMessage_safe _ _ _) fun _ => finish_safe _ _
  · refine .bind deref_safe fun _ => .bind (sendMessage_safe _ _ _) fun _ =>
      .bind (setState_safe _) fun _ => .bind (setPastNode_tidies hL _) fun _ => ?_
    exact .bind (initiateTimeout_safe _) fun _ => .bind stop_safe fun _ => .pure _
  · refine .bind (.modify fun _ => rfl) fun _ => .bind (Safe.forEach fun _ _ =>
      .bind deref_safe fun _ => sendMessage_safe _ _ _) fun _ =>
      .bind (setState_safe _) fun _ => .bind (setPastNode_tidies hL _) fun _ => ?_
    exact .bind (initiateTimeout_safe _) fun _ => .bind stop_safe fun _ => .pure _

theorem bidBranch_safe (value : BitVec 32) : Safe J (bidBranch me value) := by
  refine .bind .get fun _ => .ite ?_ (finish_safe _ _)
  exact .bind (.modify fun _ => rfl) fun _ => .bind (initiateTimeout_safe _) fun _ =>
    .bind (.modify fun _ => rfl) fun _ => .pure _

theorem sendAuctionEar_safe (uuid : UUIDv4) (winner : NodeIdentifier) :
    Safe J (sendAuctionEar env uuid winner) :=
  .bind deref_safe fun _ => .bind (firstByte_safe _) fun _ => .bind sourceFirst_safe fun _ =>
    .bind (portTo_safe _) fun _ => sendMessage_safe _ _ _

theorem tieRound_safe (winner : NodeIdentifier × Nat) : Safe J (tieRound env me winner) := by
  refine .bind .get fun _ => .bind ?_ fun _ => .bind (sendAuctionEar_safe _ _) fun _ =>
    .bind (setState_safe _) fun _ => initiateTimeout_safe _
  exact .bind (.modify fun _ => rfl) fun _ => .pure _

theorem auctionEnd_safe : Safe J (auctionEnd env me) := by
  refine .bind .get fun t => .ite ?_ ?_
  · exact .bind (sendMessage_safe _ _ _) fun _ => finish_safe _ _
  · split
    · exact .bind (sendAuctionEar_safe _ _) fun _ => .bind (setState_safe _) fun _ =>
        .bind (initiateTimeout_safe _) fun _ => .bind stop_safe fun _ => .pure _
    · exact .bind (Safe.forEach fun w _ => tieRound_safe w) fun _ =>
        .bind stop_safe fun _ => .pure _

theorem leaveSwitch_safe (exit : Exit) : Safe J (leaveSwitch exit) := by
  cases exit with
  | breaks => exact .modify fun _ => rfl
  | returns => exact .pure ()
  | waits => exact .pure ()

theorem wake_safe : Safe J (wake env me) :=
  .bind (.modify fun _ => rfl) fun _ => .bind auctionEnd_safe leaveSwitch_safe

theorem pastNodePort_safe : Safe J (pastNodePort env) :=
  .bind deref_safe fun _ => .ite (.bind (firstByte_safe _) fun _ => .pure _) (.pure _)

theorem accRelay_tidies (hL : Resources.Lasting L) : Tidies L (accRelay env) := by
  refine .bind .get fun _ => .bind pastNodePort_safe fun port => ?_
  cases port with
  | none => exact .bind stop_safe fun _ => .pure _
  | some target =>
    exact .bind (sendMessage_safe _ _ _) fun _ => .bind (setState_safe _) fun _ =>
      .bind (addNextNode_tidies hL _) fun _ => .bind stop_safe fun _ => .pure _

theorem rekeyToOriginal_safe (original : UUIDv4) : Safe J (rekeyToOriginal original) :=
  .bind .get fun _ => .bind (Spec.ensure nofun) fun _ => .modify fun _ => rfl

/-- The ACC branch after `mark_reservation`. -/
theorem accEnd_tidies (hL : Resources.Lasting L) (t : Thread) :
    Tidies L (match t.translationTable.find? t.self.uuid with
    | some original => do rekeyToOriginal original; accRelay env
    | none =>
      if t.originSet.contains t.self.uuid then do
        communicateResult .ok t.self.uuid
        addNextNode t.self.sourceIdentifier
        setState .reserved
        stop
        return .breaks
      else
        accRelay env) := by
  split
  · exact .bind (rekeyToOriginal_safe _) fun _ => accRelay_tidies hL
  · refine .ite ?_ (accRelay_tidies hL)
    exact .bind (.modify fun _ => rfl) fun _ => .bind (addNextNode_tidies hL _) fun _ =>
      finish_safe _ _

theorem isPreReserving_safe (t : Thread) (handler : Handler) :
    Safe J (isPreReserving t handler) := by
  unfold isPreReserving
  split
  · exact .pure _
  · exact .pure _
  · exact .bind (Spec.require nofun) fun _ => .pure _

theorem refErase_safe : Safe J (refErase me peers) := by
  refine .bind .get fun t => ?_
  split
  · exact .pure _
  · refine .bind (isPreReserving_safe _ _) fun _ => .ite ?_ (.pure _)
    exact .bind (.modify fun _ => rfl) fun _ => .fault nofun

theorem refRelay_safe : Safe J (refRelay env) := by
  have hport : Safe J (sourcePort env) :=
    .bind .get fun _ => .ite (.bind sourceFirst_safe fun _ => .pure _) (.pure _)
  refine .bind .get fun _ => .bind hport fun port => ?_
  cases port with
  | none => exact .bind stop_safe fun _ => .pure _
  | some target => exact .bind (sendMessage_safe _ _ _) fun _ => finish_safe _ _

theorem refBranch_safe : Safe J (refBranch env me peers) := by
  refine .bind refErase_safe fun _ => .bind .get fun t => ?_
  split
  · exact .bind (.modify fun _ => rfl) fun _ => .bind .get fun _ =>
      .ite refRelay_safe (finish_safe _ _)
  · refine .ite ?_ refRelay_safe
    exact .bind (.modify fun _ => rfl) fun _ => .bind (.modify fun _ => rfl) fun _ =>
      finish_safe _ _

/-- The address of a listener is read without an assertion. -/
theorem listenerAddress_safe (code : UInt8) (listener : ListenerArray) :
    Safe J (liftExcept (listenerAddress env code listener)) := by
  have hne : ∀ e, listenerAddress env code listener = .error e → e ≠ .assertion := by
    intro e he
    rintro rfl
    unfold listenerAddress at he
    split at he
    · cases he
    · cases he
    · dsimp only at he
      split_ifs at he
      · split at he
        · cases he
        · cases he
      · cases he
  rcases hl : listenerAddress env code listener with e | address
  · exact Spec.fault (hne e hl)
  · exact .pure _

theorem repBranch_safe (code : UInt8) (listener : ListenerArray) :
    Safe J (repBranch env me code listener) := by
  refine .bind (setState_safe _) fun _ => .bind (listenerAddress_safe _ _) fun _ =>
    .bind .get fun _ => .ite ?_ (.ite ?_ (finish_safe _ _))
  · exact .bind sourceFirst_safe fun _ => .bind (portTo_safe _) fun _ =>
      .bind (sendMessage_safe _ _ _) fun _ => finish_safe _ _
  · refine .bind .get fun _ => .bind deref_safe fun _ => .bind (Safe.forEach fun _ _ => ?_) fun _ =>
      .bind (initiateTimeout_safe _) fun _ => .bind stop_safe fun _ => .pure _
    exact .bind (firstByte_safe _) fun _ => .bind sourceFirst_safe fun _ =>
      .bind (portTo_safe _) fun _ => sendMessage_safe _ _ _

theorem checkReservation_safe : Safe J checkReservation :=
  .bind .get fun _ => .ite (.pure _) (.bind deref_safe fun _ => Spec.ensure nofun)

/-! ### Requests -/

/-- A list whose last element was just added, a copy of what the pointer points to. -/
structure Thread.Offers (L : Resources → Prop) (R : Resources) (z : Reservation) (t : Thread) :
    Prop where
  list : L R
  resources : t.resources = R.push z.copy
  read : t.held.read = .ok z

theorem availableForPerformance_faults (assessment : Assessment) (priority : UInt8) :
    Spec (fun _ => True) (availableForPerformance assessment priority) (fun _ _ => True)
      (· ≠ .assertion) := by
  have hderef : Spec (fun _ : Held => True) deref (fun _ _ => True) (· ≠ .assertion) := by
    refine Spec.intro (fun _ _ _ _ _ => trivial) ?_
    intro s e s' h hrun
    exact (deref_spec fun _ => True).error h hrun
  have hwrite : ∀ f : Reservation → Reservation,
      Spec (fun _ : Held => True) (writeThrough f) (fun _ _ => True) (· ≠ .assertion) :=
    fun f => Spec.bind hderef fun _ => Spec.modify fun _ _ => trivial
  refine Spec.bind hderef fun _ => Spec.ite (Spec.pure fun _ _ => trivial) ?_
  refine Spec.bind (hwrite _) fun _ => Spec.bind hderef fun _ => Spec.bind (hwrite _) fun _ => ?_
  exact Spec.ite (Spec.pure fun _ _ => trivial) (Spec.bind hderef fun _ => fun _ _ => trivial)

/-- A thread after an assessment: no reservation was added, or one at the address. -/
def Thread.Assessed (L : Resources → Prop) (o : Option Nat) (t : Thread) : Prop :=
  o = none ∧ L t.resources ∨ ∃ R z, o = some R.nextAddress ∧ t.Offers L R z

/-- **An assessment** leaves the list as it is, or adds one reservation to it. -/
theorem available_spec (hL : Resources.Lasting L) (assessment : Assessment) (priority : UInt8) :
    Spec (fun t => L t.resources) (onReservation (availableForPerformance assessment priority))
      (Thread.Assessed L) (· ≠ .assertion) := by
  refine Spec.intro ?_ ?_
  · intro t o t' h hrun
    obtain ⟨s, hs, rfl⟩ := onReservation_ok hrun
    obtain ⟨x, hx, ⟨-, rfl, rfl | rfl⟩ | ⟨-, rfl, rfl⟩⟩ := availableForPerformance_ok hs
    · exact Or.inl ⟨rfl, h⟩
    · exact Or.inl ⟨rfl, hL.write h hx rfl⟩
    · have hstate : (assessed assessment priority x).state = x.state := rfl
      refine Or.inr ⟨(t.held.write (assessed assessment priority x)).resources,
        assessed assessment priority x, ?_, hL.write (s := t.held) h hx hstate, rfl,
        Held.read_push (Held.read_write hx)⟩
      rw [Held.write_nextAddress]
      rfl
  · intro t e t' _ hrun
    obtain ⟨he, -⟩ := Prod.mk.inj hrun
    exact (availableForPerformance_faults assessment priority).error (s := t.held) trivial
      (Prod.ext he rfl)

/-- The pointer is to the reservation that was just added to a list. -/
def Held.Added (L : Resources → Prop) (s : Held) : Prop :=
  ∃ (R : Resources) (x : Reservation), L R ∧ x.state = .created ∧
    s = ⟨R.push x, .listed R.nextAddress⟩

theorem Thread.Offers.added {R : Resources} {z : Reservation} {t : Thread} (h : t.Offers L R z) :
    Held.Added L ⟨t.resources, .listed R.nextAddress⟩ :=
  ⟨R, z.copy, h.list, rfl, by rw [h.resources]⟩

theorem setAdded_spec (address : Nat) :
    Spec (Thread.Assessed L (some address)) (setReservation (.listed address))
      (fun _ t => t.held.Added L) (· ≠ .assertion) := by
  refine Spec.modify ?_
  rintro t (⟨hnone, -⟩ | ⟨R, z, haddress, h⟩)
  · cases hnone
  · cases haddress
    exact h.added

theorem markAdded_spec (hL : Resources.Lasting L) (hgrant : Resources.Granting L) :
    Spec (fun t => t.held.Added L) (onReservation markReservation) (fun _ t => L t.resources)
      (· ≠ .assertion) := by
  rintro t ⟨R, x, h, hx, hheld⟩
  have htidy := hL.tidy h
  have hrun := markReservation_pushed htidy.valid htidy.marked hx
  rw [← hheld] at hrun
  rw [run_onReservation hrun]
  exact hgrant.push h rfl

theorem markPreAdded_spec (hL : Resources.Lasting L) : Spec (fun t => t.held.Added L)
    (onReservation markPreReservation) (fun _ t => L t.resources) (· ≠ .assertion) := by
  rintro t ⟨R, x, h, hx, hheld⟩
  have htidy := hL.tidy h
  have hread : deref.run ⟨R.push x, .listed R.nextAddress⟩ =
      (.ok x, ⟨R.push x, .listed R.nextAddress⟩) := by
    simp only [deref, Held.read, htidy.valid.lookup_push]
  have hrun :=
    markPreReservation_pushed htidy.valid htidy.marked hx hread (Reservation.equals_refl x)
  rw [← hheld] at hrun
  rw [run_onReservation hrun]
  exact hL.push h rfl

/-- The bid is written to the reservation that was just added. -/
theorem writeAdded_safe (hL : Resources.Lasting L) {f : Reservation → Reservation}
    (hf : ∀ x, (f x).state = x.state) : Safe (Held.Added L) (onReservation (writeThrough f)) := by
  refine .onReservation (Spec.bind (deref_spec _) fun x => Spec.modify ?_)
  rintro s ⟨⟨R, z, h, hz, rfl⟩, hx⟩
  have htidy := hL.tidy h
  refine ⟨R, f x, h, ?_, ?_⟩
  · simp only [Held.read, htidy.valid.lookup_push] at hx
    cases hx
    rw [hf, hz]
  · rw [Held.write]
    exact congrArg (fun R' => (⟨R', .listed R.nextAddress⟩ : Held)) htidy.valid.put_push

theorem Tidies.weaken {p : ThreadM α} {c : Prop} (hp : Tidies L p) :
    Spec (fun t => L t.resources) p (fun _ t => L t.resources) (fun e => c → e ≠ .assertion) :=
  Spec.weakenFault hp fun _ he _ => he

/-- A request that is not admitted. -/
theorem Tidies.refused {p : ThreadM α} (hp : Tidies L p) :
    Spec (Thread.Assessed L none) p (fun _ t => L t.resources) (· ≠ .assertion) := by
  refine Spec.imp hp ?_
  rintro t (⟨-, h⟩ | ⟨R, z, hnone, -⟩)
  · exact h
  · cases hnone

theorem earListener_tidies (hL : Resources.Lasting L) (hgrant : Resources.Granting L)
    (r : Request) :
    Tidies L (earListener env r) := by
  refine Spec.bind (available_spec hL env.assessment r.priority) fun position => ?_
  cases position with
  | none => exact Tidies.refused (.bind refuseToSource_safe fun _ => finish_safe _ _)
  | some address =>
    refine Spec.bind (setAdded_spec address) fun _ =>
      Spec.bind (markAdded_spec hL hgrant) fun _ => ?_
    show Tidies L _
    exact .bind .get fun _ => .bind nearestToSource_safe fun _ =>
      .bind (sendMessage_safe _ _ _) fun _ =>
      finish_safe _ _

theorem marBid_tidies (hL : Resources.Lasting L) (r : Request) : Tidies L (marBid env me r) := by
  refine Spec.bind (available_spec hL env.assessment r.priority) fun position => ?_
  cases position with
  | none =>
    exact Tidies.refused (.bind .get fun _ => .bind sourceFirst_safe fun _ =>
      .bind (portTo_safe _) fun _ => .bind (sendMessage_safe _ _ _) fun _ => finish_safe _ _)
  | some address =>
    have hend : ∀ a, Tidies L (do
        setReservation (.listed a)
        initiateTimeout me .bid
        stop
        return Exit.breaks) := fun a =>
      .bind (setReservation_tidies _) fun _ => .bind (initiateTimeout_safe _) fun _ =>
        .bind stop_safe fun _ => .pure _
    exact Spec.bind (setAdded_spec address) fun _ => Spec.bind deref_safe fun _ =>
      Spec.bind Safe.get fun _ => Spec.bind sourceFirst_safe fun _ =>
        Spec.bind (portTo_safe _) fun _ =>
      Spec.bind (sendMessage_safe _ _ _) fun _ => Spec.bind (setState_safe _) fun _ =>
      Spec.bind (writeAdded_safe hL fun _ => rfl) fun _ => Spec.bind (markPreAdded_spec hL) hend

theorem buildReservation_tidies (r : Request) (address : Bytes) :
    Tidies L (buildReservation env r address) := by
  unfold buildReservation
  split
  · exact .bind (setReservation_tidies _) fun _ => .pure _
  · exact .ite (.pure _) (.fault nofun)
  · exact .fault nofun

theorem setReservationUuid_tidies (hL : Resources.Lasting L) : Tidies L setReservationUuid :=
  .bind .get fun _ => writeThrough_tidies hL fun _ => rfl

theorem marBranch_tidies (hL : Resources.Lasting L) (r : Request) :
    Tidies L (marBranch env me r) := by
  refine .bind (setState_safe _) fun _ => .bind (listenerAddress_safe _ _) fun _ =>
    .bind (buildReservation_tidies _ _) fun _ => .ite ?_ (finish_safe _ _)
  exact .bind (setReservationUuid_tidies hL) fun _ => marBid_tidies hL r

/-- An EAR under a UUID that is not in the store, for a pre-reservation that can be
admitted again. -/
def Thread.Readmits (env : Env) (me : HandlerId) (peers : List Handler)
    (uuid : UUIDv4) (r : Request)
    (t : Thread) : Prop :=
  isBidInStore me peers t uuid = false ∧ ∃ a x, t.self.reservation = .listed a ∧
    ReservationList.lookup t.resources.reservations a = some x ∧
    env.assessment.admits r.priority x = true

/-- **An EAR for another listener.** A new reservation is marked, and an old one cannot be. -/
theorem earRelay_spec (hL : Resources.Lasting L) {t₀ : Thread} {uuid : UUIDv4} {r : Request}
    {address : Bytes} (h : L t₀.resources)
    (hown : ∀ z, t₀.self.reservation = .own z → z.state = .created) :
    Spec (· = t₀) (earRelay env me peers uuid r address) (fun _ t => L t.resources)
      (fun e => ¬t₀.Readmits env me peers uuid r → e ≠ .assertion) := by
  rintro t rfl
  have htidy := hL.tidy h
  -- Whatever comes after the marking keeps the list marked.
  have hforward : ∀ p, Tidies L (do setReservation p; earForward env me address) :=
    fun p => .bind (setReservation_tidies _) fun _ => earForward_tidies hL _
  rw [earRelay, bind_ok (run_get t)]
  by_cases hbid : isBidInStore me peers t uuid = true
  · rw [if_pos hbid]
    exact (hforward _).weaken t h
  rw [if_neg hbid]
  rcases havail : (onReservation (availableForPerformance env.assessment r.priority)).run t with
    ⟨e | o, t₁⟩
  · rw [bind_error havail]
    intro _
    exact (available_spec hL _ _).error h havail
  rw [bind_ok havail]
  have hassessed := (available_spec hL _ _).ok h havail
  cases o with
  | none =>
    refine Spec.weakenFault (Tidies.refused ?_) (fun e he _ => he) t₁ hassessed
    exact .bind (setReservation_tidies _) fun _ => .bind refuseToSource_safe fun _ =>
      finish_safe _ _
  | some address' =>
    obtain ⟨s, hs, rfl⟩ := onReservation_ok havail
    obtain ⟨x, hx, ⟨-, hnone, -⟩ | ⟨hadmits, -, rfl⟩⟩ := availableForPerformance_ok hs
    · cases hnone
    rcases hp : t.self.reservation with _ | a | z
    · simp only [hp, Held.read] at hx
      cases hx
    · -- The pointer is to the old reservation, which is not new any more.
      rw [hp] at hx
      have hl := Held.read_listed.mp hx
      have hreadmits : t.Readmits env me peers uuid r :=
        ⟨Bool.not_eq_true _ ▸ hbid, a, x, hp, hl, hadmits⟩
      dsimp only
      rcases hmark : (onReservation markPreReservation).run _ with ⟨e | b, t₂⟩
      · rw [bind_error hmark]
        exact fun hnot => absurd hreadmits hnot
      · obtain ⟨s₂, hs₂, -⟩ := onReservation_ok hmark
        simp only [Held.write, Thread.loaded] at hs₂
        refine absurd hs₂
          (markPreReservation_listed (x := assessed env.assessment r.priority x) ?_ ?_)
        · exact ReservationList.lookup_append (ReservationList.lookup_update (f := fun _ => _) hl)
        · show x.state ≠ .created
          exact htidy.marked.lookup hl
    · simp only [hp, Held.read] at hx
      cases hx
      have hcreated : (assessed env.assessment r.priority x).state = .created := hown x hp
      have hread : deref.run ⟨t.resources.push (assessed env.assessment r.priority x).copy,
          .own (assessed env.assessment r.priority x)⟩ = (.ok _, _) := deref_own
      have hmark := markPreReservation_pushed htidy.valid htidy.marked rfl hread (by
        rw [Reservation.equals_iff]
        exact ⟨rfl, hcreated, RequestingCapabilities.equals_refl _⟩)
      dsimp only
      rw [bind_ok (run_onReservation hmark)]
      exact (hforward _).weaken _ (hL.push h rfl)

/-- The reservation `x` at the address `a` is the first one of the handler's session. -/
structure Thread.First (a : Nat) (x : Reservation) (t : Thread) : Prop where
  split : ∃ l₁ l₂ : ReservationList, t.resources.reservations = l₁ ++ (a, x) :: l₂ ∧
    ∀ e ∈ l₁, timestamp e.2.uuid ≠ timestamp t.self.uuid
  uuid : x.uuid = t.self.uuid

theorem Thread.First.lookup {a : Nat} {x : Reservation} {t : Thread} (h : t.First a x)
    (hv : t.resources.Valid) : ReservationList.lookup t.resources.reservations a = some x := by
  obtain ⟨l₁, l₂, hl, -⟩ := h.split
  exact ReservationList.lookup_of_mem hv.nodup (by simp [hl])

/-- The pointer as a round starts with it. -/
def Thread.Loaded (t : Thread) : Prop :=
  t.self.reservation = .null ∨ ∃ a x, t.self.reservation = .listed a ∧ t.First a x

theorem Resources.Valid.put_split {R : Resources} {l₁ l₂ : ReservationList} {a : Nat}
    {x y : Reservation} (hv : R.Valid) (hl : R.reservations = l₁ ++ (a, x) :: l₂) :
    (R.put a y).reservations = l₁ ++ (a, y) :: l₂ := by
  have hkeep : ∀ l : ReservationList, (∀ e ∈ l, e.1 ≠ a) →
      ReservationList.update l a (fun _ => y) = l := by
    intro l hne
    refine (List.map_congr_left ?_).trans (List.map_id _)
    intro e he
    rw [if_neg (hne e he), id]
  have h₁ := hkeep l₁ fun e he => hv.ne_of_split hl (Or.inl he)
  have h₂ := hkeep l₂ fun e he => hv.ne_of_split hl (Or.inr he)
  unfold ReservationList.update at h₁ h₂
  simp [Resources.put, ReservationList.update, hl, h₁, h₂]

/-- The reservation that `get_reservation_for` finds is the first one. -/
theorem Thread.First.loaded {env : Env} {t : Thread} {a : Nat} {x : Reservation}
    (hv : t.resources.Valid) (hf : t.resources.reservations.find?
      (fun e => isSameTimestamp env.ulid e.2.uuid t.self.uuid) = some (a, x)) :
    (t.loaded (t.resources.put a (x.setUuid t.self.uuid)) (.listed a)).First a
      (x.setUuid t.self.uuid) := by
  obtain ⟨-, l₁, l₂, hl, hfront⟩ := List.find?_eq_some_iff_append.mp hf
  refine ⟨⟨l₁, l₂, hv.put_split hl, ?_⟩, rfl⟩
  intro e he (heq : timestamp e.2.uuid = timestamp t.self.uuid)
  have hsame := hfront e he
  rw [isSameTimestamp_iff.mpr heq] at hsame
  cases hsame

/-- **A round starts with the first reservation of its session**, or with none. -/
theorem loadReservation_lasting (hL : Resources.Lasting L) {t : Thread} (env : Env)
    (h : L t.resources) : ∃ R p, (loadReservation env).run t = (.ok (), t.loaded R p) ∧ L R ∧
      (t.loaded R p).Loaded := by
  have hv := (hL.tidy h).valid
  rcases hf : t.resources.reservations.find?
    (fun e => isSameTimestamp env.ulid e.2.uuid t.self.uuid) with _ | ⟨a, x⟩
  · exact ⟨t.resources, .null, loadReservation_none hf, h, Or.inl rfl⟩
  · have hl : ReservationList.lookup t.resources.reservations a = some x :=
      ReservationList.lookup_of_mem hv.nodup (List.mem_of_find?_eq_some hf)
    exact ⟨_, _, loadReservation_some hv hf, hL.put h hl rfl, Or.inr ⟨a, _, rfl, .loaded hv hf⟩⟩

theorem loadReservation_loaded {t : Thread} (env : Env) (htidy : t.resources.Tidy) :
    ∃ R p, (loadReservation env).run t = (.ok (), t.loaded R p) ∧ R.Tidy ∧
      (t.loaded R p).Loaded :=
  loadReservation_lasting Resources.Tidy.lasting env htidy

/-- A round starts with a reservation of its session. -/
theorem Thread.Loaded.session {t : Thread} (hload : t.Loaded) (hv : t.resources.Valid)
    {z : Reservation} (hz : t.held.read = .ok z) : z.uuid = t.self.uuid := by
  rcases hload with hnull | ⟨a, x, hp, hfirst⟩
  · simp only [Thread.held, hnull, Held.read] at hz
    cases hz
  · have hl := hfirst.lookup hv
    simp only [Thread.held, hp, Held.read, hl] at hz
    cases hz
    exact hfirst.uuid

theorem identifyReservation_loaded {t : Thread} (h : t.Loaded) (hv : t.resources.Valid) :
    identifyReservation.run t = (.ok (), t) := by
  rw [identifyReservation, bind_ok (run_get t)]
  rcases h with hnull | ⟨a, x, hp, hfirst⟩
  · rw [if_pos hnull, run_pure]
  · have hl := hfirst.lookup hv
    have hnull : ¬t.self.reservation = .null := by
      rw [hp]
      simp
    have hx : x.setUuid t.self.uuid = x := by
      rw [← hfirst.uuid]
      rfl
    have hwrite : (writeThrough (·.setUuid t.self.uuid)).run t.held = (.ok (), t.held) := by
      have hread : t.held.read = .ok x := by
        rw [Thread.held, hp]
        exact Held.read_listed.mpr hl
      rw [writeThrough_run hread, hx, Thread.held, hp]
      exact congrArg (fun R => ((Except.ok () : Except Fault Unit), (⟨R, .listed a⟩ : Held)))
        (hv.put_self hl)
    rw [if_neg hnull, setReservationUuid, bind_ok (run_get t), run_onReservation hwrite]
    rfl

/-- An EAR for another listener that fails an assertion: see `Thread.Readmits`. -/
def Thread.EarFails (env : Env) (me : HandlerId) (peers : List Handler) (uuid : UUIDv4)
    (r : Request) (t : Thread) : Prop :=
  t.self.state = .preReserved ∧ t.Readmits env me peers uuid r ∧
    ∃ address, listenerAddress env r.listenerLength r.listener = .ok address ∧
      iAmListener env r.listenerLength address = false

/-- **An EAR keeps the list marked**, and grants at its listener only. -/
theorem earBranch_spec (hL : Resources.Lasting L) {t₀ : Thread} {uuid : UUIDv4} {r : Request}
    (hgrant : r.forMe env = true → Resources.Granting L) (h : L t₀.resources) (hload : t₀.Loaded) :
    Spec (· = t₀) (earBranch env me peers uuid r) (fun _ t => L t.resources)
      (fun e => ¬t₀.EarFails env me peers uuid r → e ≠ .assertion) := by
  rintro t rfl
  have htidy := hL.tidy h
  have hgrants :
    ∀ {address : Bytes}, listenerAddress env r.listenerLength r.listener = .ok address →
      iAmListener env r.listenerLength address = true → Resources.Granting L := fun hl hme =>
    hgrant (by rw [Request.forMe, hl]; exact hme)
  by_cases hs : t.self.state = .preReserved
  · rw [earBranch, bind_ok (startAssessing_preReserved hs)]
    rcases haddress : (liftExcept (listenerAddress env r.listenerLength r.listener)).run t with
      ⟨e | address, t₁⟩
    · rw [bind_error haddress]
      exact fun _ => (listenerAddress_safe (J := fun _ => True) _ _).error trivial haddress
    obtain ⟨rfl, hl⟩ := liftExcept_ok haddress
    rw [bind_ok haddress, bind_ok (earReservation_preReserved hs address), if_pos rfl,
      bind_ok (identifyReservation_loaded hload htidy.valid)]
    rcases hme : iAmListener env r.listenerLength address with _ | _
    · rw [if_neg Bool.false_ne_true]
      have hown : ∀ z, t₁.self.reservation = .own z → z.state = .created := by
        intro z hz
        rcases hload with hnull | ⟨a, x, hp, -⟩
        · rw [hnull] at hz
          cases hz
        · rw [hp] at hz
          cases hz
      refine (earRelay_spec hL h hown).weakenFault ?_ t₁ rfl
      exact fun e he hfails => he fun hreadmits => hfails ⟨hs, hreadmits, address, hl, hme⟩
    · rw [if_pos rfl]
      exact (earListener_tidies hL (hgrants hl hme) r).weaken t₁ h
  · rw [earBranch, bind_ok (startAssessing_other hs)]
    rcases haddress : (liftExcept (listenerAddress env r.listenerLength r.listener)).run
      (t.inState .assessing) with ⟨e | address, t₁⟩
    · rw [bind_error haddress]
      exact fun _ => (listenerAddress_safe (J := fun _ => True) _ _).error trivial haddress
    obtain ⟨rfl, hl⟩ := liftExcept_ok haddress
    have hnew := earReservation_assessing (t := t) (r := r) env address
    rw [bind_ok haddress]
    rcases hbuild : (buildReservation env r address).run (t.inState .assessing) with
      ⟨e | built, t₂⟩
    · rw [bind_error (hnew.trans hbuild)]
      exact fun _ =>
        (buildReservation_tidies (L := L) r address).error (s := t.inState .assessing) h
        hbuild
    rw [bind_ok (hnew.trans hbuild)]
    rcases buildReservation_ok hbuild with ⟨rfl, rfl⟩ | ⟨capabilities, rfl, -, rfl⟩
    · exact h
    · have hidentify : identifyReservation.run
          ((t.inState .assessing).loaded (t.inState .assessing).resources
            (.own ((Reservation.new capabilities r.priority).markListener address))) =
          (.ok (), t.built r address capabilities) := rfl
      rw [if_pos rfl, bind_ok hidentify]
      rcases hme : iAmListener env r.listenerLength address with _ | _
      · rw [if_neg Bool.false_ne_true]
        have hbuilt : L (t.built r address capabilities).resources := h
        refine (earRelay_spec hL hbuilt ?_).weakenFault ?_ _ rfl
        · rintro z ⟨⟩
          rfl
        · -- The pointer is not to a reservation of the list.
          intro e he _
          refine he ?_
          rintro ⟨-, a, x, hp, -⟩
          cases hp
      · rw [if_pos rfl]
        exact (earListener_tidies hL (hgrants hl hme) r).weaken (t.built r address capabilities) h

/-! ### ACC -/

/-- `mark_reservation` grants reservations, if it does not fail. -/
theorem markLoop_lasting (hgrant : Resources.Granting L) {l : List Nat} {found found' : Bool}
    {s s' : Held} (h : L s.resources) (hrun : (markLoop l found).run s = (.ok found', s')) :
    L s'.resources := by
  induction l generalizing s found with
  | nil =>
    cases hrun
    exact h
  | cons a rest ih =>
    rw [markLoop] at hrun
    obtain ⟨z, s₁, hderef, hrun₁⟩ := bind_eq_ok.mp hrun
    obtain ⟨rfl, -⟩ := deref_ok hderef
    obtain ⟨item, s₂, hitem, hrun₂⟩ := bind_eq_ok.mp hrun₁
    obtain ⟨rfl, -⟩ := itemAt_ok hitem
    split_ifs at hrun₂
    · obtain ⟨⟨⟩, s₃, hchange, hrun₃⟩ := bind_eq_ok.mp hrun₂
      obtain ⟨x, y, hx, hy, rfl⟩ := changeAt_ok hchange
      exact ih (hgrant.put h hx (markItem_granted hy)) hrun₃
    · exact ih h hrun₂

theorem markReservation_lasting (hgrant : Resources.Granting L) {s s' : Held} (h : L s.resources)
    (hrun : markReservation.run s = (.ok (), s')) : L s'.resources := by
  rw [markReservation, bind_ok (run_get s)] at hrun
  obtain ⟨found, s₁, hloop, hrest⟩ := bind_eq_ok.mp hrun
  have h₁ := markLoop_lasting hgrant h hloop
  split_ifs at hrest
  · cases hrest
    exact h₁
  · rw [changeThrough] at hrest
    obtain ⟨x, s₂, hderef, hrest₁⟩ := bind_eq_ok.mp hrest
    obtain ⟨rfl, hx⟩ := deref_ok hderef
    rcases hy : x.reserve with _ | y
    · rw [hy] at hrest₁
      cases hrest₁
    rw [hy, require_some, pure_bind, writeThrough_run hx] at hrest₁
    cases hrest₁
    refine hgrant.write h₁ hx ?_
    unfold Reservation.reserve at hy
    split_ifs at hy
    cases hy
    rfl

/-- An ACC that fails an assertion: the reservation is granted, or a second one of
the session is. -/
def Thread.AccFails (t : Thread) : Prop :=
  t.self.state ≠ .reserved ∧ ∃ a x, t.self.reservation = .listed a ∧
    ReservationList.lookup t.resources.reservations a = some x ∧
    ¬(x.state = .preReserved ∧ t.resources.Unrivalled a x)

theorem accBranch_spec (hL : Resources.Lasting L) (hgrant : Resources.Granting L) {t₀ : Thread}
    (h : L t₀.resources) (hload : t₀.Loaded) : Spec (· = t₀) (accBranch env)
      (fun _ t => L t.resources) (fun e => ¬t₀.AccFails → e ≠ .assertion) := by
  rintro t rfl
  have htidy := hL.tidy h
  by_cases hs : t.self.state = .reserved
  · rw [accBranch_repeated hs]
    exact h
  rw [accBranch, bind_ok (run_get t), if_neg hs]
  rcases hmark : (onReservation markReservation).run t with ⟨e | ⟨⟩, t₁⟩
  · rw [bind_error hmark]
    intro hfails
    obtain ⟨hresult, -⟩ := Prod.mk.inj hmark
    dsimp only at hresult
    rcases hload with hnull | ⟨a, x, hp, hfirst⟩
    · rw [hnull, markReservation_null] at hresult
      cases hresult
      simp
    · -- The reservation is marked without a fault.
      have hl := hfirst.lookup htidy.valid
      have hgood : x.state = .preReserved ∧ t.resources.Unrivalled a x := by
        by_contra hbad
        exact hfails ⟨hs, a, x, hp, hl, hbad⟩
      obtain ⟨l₁, l₂, hsplit, hfront⟩ := hfirst.split
      have hne : ∀ e ∈ l₁, e.2.uuid ≠ x.uuid := by
        intro e he heq
        exact hfront e he (by rw [heq, hfirst.uuid])
      rw [hp, (markReservation_first htidy.valid hsplit hne hgood.1).1 hgood.2] at hresult
      cases hresult
  · rw [bind_ok hmark]
    obtain ⟨s, hs', rfl⟩ := onReservation_ok hmark
    exact (accEnd_tidies hL t).weaken _ (markReservation_lasting hgrant h hs')

/-- The past node of the reservation is a simulated one without a port. -/
def Reservation.Cut (env : Env) (x : Reservation) : Prop :=
  x.pastNode.2 = .simulation ∧ ∃ b, x.pastNode.1.head? = some b ∧ portInTopology env b = none

theorem addNextNode_held {node : NodeIdentifier} {a : Nat} {t t' : Thread} {x : Reservation}
    (hp : t.self.reservation = .listed a) (hl : ReservationList.lookup t.resources.reservations a =
      some x) (hrun : (addNextNode node).run t = (.ok (), t')) :
    t' = t.loaded (t.resources.put a (x.addNextNode node)) (.listed a) := by
  have hread : Held.read ⟨t.resources, t.self.reservation⟩ = .ok x := by
    rw [hp]
    exact Held.read_listed.mpr hl
  rw [addNextNode, bind_ok (run_onReservation (writeThrough_run hread _))] at hrun
  obtain ⟨z, t₁, hderef, hprint⟩ := bind_eq_ok.mp hrun
  obtain ⟨s, hs, rfl⟩ := onReservation_ok hderef
  obtain ⟨rfl, -⟩ := deref_ok hs
  obtain ⟨rfl, -⟩ := ensure_ok hprint
  rw [hp]
  rfl

/-- The reservation of an ACC that is sent on knows its source, unless there is no
way to send it. -/
theorem accRelay_taken {a : Nat} {t t' : Thread} {x : Reservation} {exit : Exit}
    (hp : t.self.reservation = .listed a) (hl : ReservationList.lookup t.resources.reservations a =
      some x) (hrun : (accRelay env).run t = (.ok exit, t')) :
    (t'.self.state = .reserved ∧
        t'.resources = t.resources.put a (x.addNextNode t.self.sourceIdentifier)) ∨
      x.Cut env ∧ t' = t.stopped := by
  have hread : Held.read ⟨t.resources, t.self.reservation⟩ = .ok x := by
    rw [hp]
    exact Held.read_listed.mpr hl
  have hend : ∀ {target : Bytes}, (do
      sendMessage (newAcc t.self.uuid) target .simulation
      setState .reserved
      addNextNode t.self.sourceIdentifier
      stop
      return Exit.breaks).run t = (.ok exit, t') → t'.self.state = .reserved ∧
        t'.resources = t.resources.put a (x.addNextNode t.self.sourceIdentifier) := by
    intro target hrun
    obtain ⟨⟨⟩, t₁, hsend, hrun₁⟩ := bind_eq_ok.mp hrun
    obtain ⟨-, rfl⟩ := sendMessage_ok hsend
    rw [bind_ok (run_setState _)] at hrun₁
    obtain ⟨⟨⟩, t₂, hnext, hrun₂⟩ := bind_eq_ok.mp hrun₁
    cases addNextNode_held (t := (t.sent _ _ _).inState .reserved) hp hl hnext
    cases hrun₂
    exact ⟨rfl, rfl⟩
  rw [accRelay, bind_ok (run_get t)] at hrun
  obtain ⟨port, t₁, hport, hrest⟩ := bind_eq_ok.mp hrun
  rw [pastNodePort, bind_ok (run_onReservation (deref_run hread))] at hport
  split_ifs at hport with htype
  · obtain ⟨b, t₂, hfirst, hpure⟩ := bind_eq_ok.mp hport
    obtain ⟨rfl, hb⟩ := firstByte_ok hfirst
    cases hpure
    rcases hb' : portInTopology env b with _ | target
    · simp only [hb'] at hrest
      cases hrest
      exact Or.inr ⟨⟨htype, b, hb, hb'⟩, rfl⟩
    · simp only [hb'] at hrest
      exact Or.inl (hend hrest)
  · cases hport
    exact Or.inl (hend hrest)

/--
**An ACC at a handler that is not reserved** marks the first reservation of the session. The
handler is reserved and the reservation knows the source, unless the ACC has to be sent on
and there is no way.
-/
theorem accBranch_taken {t t' : Thread} {exit : Exit} (htidy : t.resources.Tidy) (hload : t.Loaded)
    (hs : t.self.state ≠ .reserved) (hrun : (accBranch env).run t = (.ok exit, t')) :
    ∃ a x, t.First a x ∧ x.state = .preReserved ∧
      ((t'.self.state = .reserved ∧ t'.resources = t.resources.put a
          ({ x with state := .reserved }.addNextNode t.self.sourceIdentifier)) ∨
        x.Cut env ∧ (t.translationTable.find? t.self.uuid = none →
          t.originSet.contains t.self.uuid = false) ∧
        t'.self.state = t.self.state ∧
        t'.resources = t.resources.put a { x with state := .reserved }) := by
  rw [accBranch, bind_ok (run_get t), if_neg hs] at hrun
  obtain ⟨⟨⟩, t₁, honce, hrest⟩ := bind_eq_ok.mp hrun
  obtain ⟨s, hmark, rfl⟩ := onReservation_ok honce
  rcases hload with hnull | ⟨a, x, hp, hfirst⟩
  · rw [hnull, markReservation_null] at hmark
    cases hmark
  have hl := hfirst.lookup htidy.valid
  obtain ⟨l₁, l₂, hsplit, hfront⟩ := hfirst.split
  have hne : ∀ e ∈ l₁, e.2.uuid ≠ x.uuid := by
    intro e he heq
    exact hfront e he (by rw [heq, hfirst.uuid])
  rw [hp] at hmark
  obtain ⟨hpre, hunrivalled⟩ :=
    (markReservation_iff htidy.valid hsplit hne (htidy.marked.lookup hl)).mp ⟨_, _, hmark⟩
  rw [(markReservation_first htidy.valid hsplit hne hpre).1 hunrivalled] at hmark
  obtain ⟨-, rfl⟩ := Prod.mk.inj hmark
  refine ⟨a, x, hfirst, hpre, ?_⟩
  have hl' :
    ReservationList.lookup (t.resources.put a { x with state := .reserved }).reservations a =
      some { x with state := .reserved } := ReservationList.lookup_update (f := fun _ => _) hl
  rcases htable : t.translationTable.find? t.self.uuid with _ | original
  · simp only [htable] at hrest
    split_ifs at hrest with horigin
    · obtain ⟨⟨⟩, t₂, hresult, hrest₁⟩ := bind_eq_ok.mp hrest
      cases hresult
      obtain ⟨⟨⟩, t₃, hnext, hrest₂⟩ := bind_eq_ok.mp hrest₁
      cases addNextNode_held (a := a) (x := { x with state := .reserved }) rfl hl' hnext
      cases hrest₂
      refine Or.inl ⟨rfl, ?_⟩
      exact Resources.put_put
    · rcases accRelay_taken (t := t.loaded _ _) rfl hl' hrest with ⟨hstate, hres⟩ | ⟨hcut, rfl⟩
      · exact Or.inl ⟨hstate, hres.trans Resources.put_put⟩
      · exact Or.inr ⟨hcut, fun _ => Bool.not_eq_true _ ▸ horigin, rfl, rfl⟩
  · simp only [htable] at hrest
    obtain ⟨⟨⟩, t₂, hrekey, hrest₁⟩ := bind_eq_ok.mp hrest
    rw [rekeyToOriginal, bind_ok (run_get _)] at hrekey
    obtain ⟨⟨⟩, t₃, hensure, hmodify⟩ := bind_eq_ok.mp hrekey
    obtain ⟨rfl, -⟩ := ensure_ok hensure
    cases hmodify
    rcases accRelay_taken (t := Thread.refiled _ _ (t.loaded _ _)) rfl hl' hrest₁ with
      ⟨hstate, hres⟩ | ⟨hcut, rfl⟩
    · exact Or.inl ⟨hstate, hres.trans Resources.put_put⟩
    · exact Or.inr ⟨hcut, (by simp), rfl, rfl⟩

/-! ### Rounds -/

/-- A message that fails an assertion. -/
def Thread.Fails (env : Env) (me : HandlerId) (peers : List Handler) (t : Thread) : Message → Prop
  | .ear _ uuid r => t.EarFails env me peers uuid r
  | .acc .. => t.AccFails
  | .mar .. | .bid .. | .ref .. | .rep .. => False

/-- A message that may grant a reservation. -/
def Message.Grants (env : Env) : Message → Prop
  | .ear _ _ r => r.forMe env = true
  | .acc .. => True
  | .mar .. | .bid .. | .ref .. | .rep .. => False

/--
**A round keeps what lasts of the list**, and fails an assertion for an ACC and an EAR only. It
grants no reservation for other messages than those that may.
-/
theorem operatorCall_lasting (hL : Resources.Lasting L) {message : Message}
    (hgrant : message.Grants env → Resources.Granting L) (me : HandlerId) (peers : List Handler)
    {t : Thread} (h : L t.resources) : ∃ R p,
      (loadReservation env).run t = (.ok (), t.loaded R p) ∧
      Spec (· = t) (operatorCall env me peers message) (fun _ t => L t.resources)
        (fun e => ¬(t.loaded R p).Fails env me peers message → e ≠ .assertion) := by
  obtain ⟨R, p, hrun, hR, hload⟩ := loadReservation_lasting hL env h
  refine ⟨R, p, hrun, ?_⟩
  rintro t rfl
  rw [operatorCall, bind_ok hrun]
  have hswitch : Spec (· = t.loaded R p) (messageSwitch env me peers message)
      (fun _ t => L t.resources)
      (fun e => ¬(t.loaded R p).Fails env me peers message → e ≠ .assertion) := by
    cases message with
    | ear v uuid r => exact earBranch_spec hL hgrant hR hload
    | acc v u => exact accBranch_spec hL (hgrant trivial) hR hload
    | mar v u r => exact (marBranch_tidies hL r).weaken.imp (by rintro _ rfl; exact hR)
    | bid v u value => exact (Tidies.weaken (bidBranch_safe value)).imp (by rintro _ rfl; exact hR)
    | ref v u => exact (Tidies.weaken refBranch_safe).imp (by rintro _ rfl; exact hR)
    | rep v u l b a => exact (Tidies.weaken (repBranch_safe l a)).imp (by rintro _ rfl; exact hR)
  refine Spec.bind (P := (· = t.loaded R p)) (Q := fun _ => (· = t.loaded R p)) ?_ (fun _ =>
    Spec.bind hswitch fun exit => Tidies.weaken (leaveSwitch_safe exit)) _ rfl
  refine Spec.intro ?_ ?_
  · rintro _ ⟨⟩ t' rfl hcheck
    exact checkReservation_ok hcheck
  · rintro _ e t' rfl hcheck -
    exact (checkReservation_safe (J := fun _ => True)).error trivial hcheck

/-- **A round keeps the list marked**, and fails an assertion for an ACC and an EAR only. -/
theorem operatorCall_spec (env : Env) (me : HandlerId) (peers : List Handler) (message : Message)
    {t : Thread} (htidy : t.resources.Tidy) : ∃ R p,
      (loadReservation env).run t = (.ok (), t.loaded R p) ∧
      Spec (· = t) (operatorCall env me peers message) (fun _ t => t.resources.Tidy)
        (fun e => ¬(t.loaded R p).Fails env me peers message → e ≠ .assertion) :=
  operatorCall_lasting Resources.Tidy.lasting (fun _ => Resources.Tidy.granting) me peers htidy

end Programs

/-! ## Nodes -/

section Nodes

variable {env : Env} {n n' : Node}

/-- A timeout takes one reservation from the list and clears one of the handler that it closes. -/
theorem Thread.TimedOut.reservation {type : TimeoutType} {r : Except Fault Unit} {t t' : Thread}
    (ht : t.TimedOut type r t') {e : Nat × Reservation} (he : e ∈ t'.resources.reservations) :
    e ∈ t.resources.reservations ∨ t'.self.state = .closed ∧ e.2.state = .cleared ∧
      ∃ x, t.held.read = .ok x ∧ e.2.uuid = x.uuid := by
  cases ht with
  | idle => exact Or.inl he
  | failed => exact Or.inl he
  | released hn hx hy ha =>
    rename_i a x y
    rcases Held.mem_write (s := t.held) (ReservationList.mem_eraseAt he) with hmem | heq
    · exact Or.inl hmem
    · unfold Reservation.replenish at hy
      split_ifs at hy
      cases hy
      exact Or.inr ⟨rfl, by rw [heq], x, hx, by rw [heq]⟩

theorem Thread.TimedOut.marked {type : TimeoutType} {r : Except Fault Unit} {t t' : Thread}
    (ht : t.TimedOut type r t') (h : t.resources.Marked) : t'.resources.Marked := by
  intro e he
  rcases ht.reservation he with hmem | ⟨-, hcleared, -⟩
  · exact h e hmem
  · rw [hcleared]
    nofun

theorem Node.Inv.step_marked (hn : n.Inv) (h : n.resources.Marked) {action : Action}
    (hrun : (perform env action).run n = (.ok (), n')) : n'.resources.Marked := by
  cases hn.stepped hrun with
  | dropped hf => exact hf.resources ▸ h
  | bid hf => exact hf.resources ▸ h
  | round hh hcall =>
    rename_i message source n₁ i t
    have htidy : (n₁.startThread i message source).resources.Tidy :=
      ⟨(hh.inv hn).valid, show n₁.resources.Marked from hh.resources ▸ h⟩
    obtain ⟨R, p, -, hspec⟩ := operatorCall_spec env i (n₁.accepting i message source).handlers
      message htidy
    exact (hspec.ok rfl hcall).marked
  | woken hwake =>
    rename_i i t
    exact (Tidies.weaken (c := True) (L := Resources.Tidy) wake_safe |>.ok (s := n.thread i)
      ⟨hn.valid, h⟩ hwake).marked
  | fired hfire => exact (onTimeout_timedOut hfire).marked h
  | marked => exact h

/-- **Between two steps every reservation is marked.** -/
theorem Node.Reachable.marked (hn : n.Reachable) : n.resources.Marked := by
  induction hn with
  | refl => exact fun e he => by cases he
  | tail hrun hstep ih =>
    obtain ⟨env, action, -, hperform⟩ := hstep
    exact (Node.Reachable.inv hrun).step_marked ih hperform

end Nodes

end Rankd

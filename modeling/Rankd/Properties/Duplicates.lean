import Mathlib.Data.List.TakeWhile
import Rankd.Node.Marking
import Rankd.Properties.Granted

/-!
# Lists with equal reservations

`operator==` of `Reservation` compares the UUID, the state and the kinds of the requirements, so a
list can have several equal reservations. The operations of `Resources` take a pointer to one of
them and look for an element that is equal.

* `replenish_reservation` clears what the pointer points to and erases the first equal element
* `mark_pre_reservation` marks the first equal element, and otherwise adds a copy
* `mark_reservation` marks equal elements up to the one that the pointer points to
-/

namespace Rankd

open Infra Infra.Prog

/-! ## In front of an element and behind it -/

namespace ReservationList

/-- The elements in front of the one at the address. -/
def ahead (l : ReservationList) (a : Nat) : ReservationList := l.takeWhile (·.1 ≠ a)

/-- The elements behind the one at the address. -/
def behind (l : ReservationList) (a : Nat) : ReservationList := (l.dropWhile (·.1 ≠ a)).tail

variable {l : ReservationList} {a : Nat} {x : Reservation} {e : Nat × Reservation}

theorem ne_of_mem_ahead (he : e ∈ ahead l a) : e.1 ≠ a := by
  simpa using List.mem_takeWhile_imp he

theorem split_of_lookup (hl : lookup l a = some x) : l = ahead l a ++ (a, x) :: behind l a := by
  induction l with
  | nil => cases hl
  | cons e rest ih =>
    simp only [lookup, ahead, behind, List.find?_cons, List.takeWhile_cons, List.dropWhile_cons]
      at hl ih ⊢
    by_cases ha : e.1 = a
    · simp only [ha, decide_true, Option.map_some, Option.some.injEq] at hl
      simp [ha, ← hl, Prod.ext_iff]
    · simp only [ha, decide_false] at hl
      simp only [ne_eq, ha, not_false_eq_true, decide_true, if_true, List.cons_append]
      exact congrArg (e :: ·) (ih hl)

end ReservationList

/-! ## Erasing the reservation that is given -/

/-- No element in front of the reservation at the address is equal to it. -/
def Resources.Foremost (a : Nat) (x : Reservation) (R : Resources) : Prop :=
  ∀ e ∈ ReservationList.ahead R.reservations a, e.2.equals x = false

/-- No reservation of the list is `CLEARED`. -/
def Resources.Uncleared (R : Resources) : Prop := ∀ e ∈ R.reservations, e.2.state ≠ .cleared

/-- `replenish_reservation` takes the reservation at the address away, and that one only. -/
def Resources.ErasesAt (a : Nat) (R : Resources) : Prop :=
  replenishReservation.run ⟨R, .listed a⟩ = (.ok (), ⟨R.remove a, .listed a⟩)

section Erasing

variable {R : Resources} {a : Nat} {x : Reservation} {s : Held}

theorem findEqual_iff {l : ReservationList} (hl : ReservationList.lookup l a = some x) :
    findEqual l x = some a ↔ ∀ e ∈ ReservationList.ahead l a, e.2.equals x = false := by
  have hsplit := ReservationList.split_of_lookup hl
  constructor
  · intro h e he
    obtain ⟨f, hf, ha⟩ := Option.map_eq_some_iff.mp h
    rw [hsplit, List.find?_append] at hf
    rcases hahead : (ReservationList.ahead l a).find? (·.2.equals x) with _ | g
    · exact Bool.eq_false_iff.mpr (List.find?_eq_none.mp hahead e he)
    · rw [hahead, Option.some_or, Option.some.injEq] at hf
      have hne := ReservationList.ne_of_mem_ahead (List.mem_of_find?_eq_some hahead)
      exact absurd (by rw [hf, ha]) hne
  · intro h
    have hnone : (ReservationList.ahead l a).find? (·.2.equals x) = none :=
      List.find?_eq_none.mpr fun e he => Bool.eq_false_iff.mp (h e he)
    rw [findEqual, hsplit, List.find?_append, hnone]
    simp

theorem Reservation.replenish_granted (hx : x.state = .preReserved ∨ x.state = .reserved) :
    x.replenish = some { x with state := .cleared } := by
  rw [Reservation.replenish, if_pos]
  rcases hx with hx | hx <;> simp [hx]

/-- The pointer's reservation is cleared, the first equal one is erased. -/
theorem replenishReservation_found (hl : ReservationList.lookup R.reservations a = some x)
    (hx : x.state = .preReserved ∨ x.state = .reserved) :
    ∃ b, findEqual R.reservations x = some b ∧
      replenishReservation.run ⟨R, .listed a⟩ =
        (.ok (), ⟨(R.put a { x with state := .cleared }).remove b, .listed a⟩) ∧
      (b ≠ a → ReservationList.lookup
        ((R.put a { x with state := .cleared }).remove b).reservations a =
          some { x with state := .cleared }) := by
  obtain ⟨b, hb⟩ : ∃ b, findEqual R.reservations x = some b := by
    rcases hf : R.reservations.find? (·.2.equals x) with _ | e
    · exact absurd (Reservation.equals_refl x)
        (List.find?_eq_none.mp hf _ (ReservationList.lookup_mem hl))
    · exact ⟨e.1, by rw [findEqual, hf, Option.map_some]⟩
  refine ⟨b, hb, ?_, ?_⟩
  · exact replenishReservation_releases (Held.read_listed.mpr hl)
      (Reservation.replenish_granted hx) hb
  · intro hne
    rw [Resources.remove, ReservationList.lookup_eraseAt, if_neg (Ne.symm hne)]
    exact ReservationList.lookup_update (f := fun _ => { x with state := .cleared }) hl

/-- The first equal element is the one that the pointer points to. -/
theorem replenishReservation_iff (hl : ReservationList.lookup R.reservations a = some x)
    (hx : x.state = .preReserved ∨ x.state = .reserved) : R.ErasesAt a ↔ R.Foremost a x := by
  obtain ⟨b, hb, hrun, hkept⟩ := replenishReservation_found hl hx
  rw [Resources.ErasesAt, Resources.Foremost, ← findEqual_iff hl, hb, hrun, Prod.mk.injEq,
    Option.some.injEq, Held.mk.injEq]
  constructor
  · rintro ⟨-, hresources, -⟩
    by_contra hne
    have hkept := hkept hne
    rw [hresources, Resources.remove, ReservationList.lookup_eraseAt, if_pos rfl] at hkept
    cases hkept
  · rintro rfl
    exact ⟨rfl, Resources.remove_put, rfl⟩

/-- Without an equal element it throws, and changes nothing. -/
theorem replenishReservation_absent (hr : s.read = .ok x)
    (h : ∀ e ∈ s.resources.reservations, e.2.equals x = false) :
    replenishReservation.run s = (.error .exception, s) := by
  have hnone : findEqual s.resources.reservations x = none := by
    rw [findEqual, List.find?_eq_none.mpr fun e he => Bool.eq_false_iff.mp (h e he),
      Option.map_none]
  rw [replenishReservation, bind_ok (run_get s)]
  split_ifs
  · rfl
  · rw [bind_ok (deref_run hr)]
    simp only [hnone]
    rfl

end Erasing

/-! ## Runs of the operations -/

/-- The calls that work on the reservation list. -/
inductive Resources.Call
  | availableForPerformance (assessment : Assessment) (priority : UInt8)
  | markPreReservation
  | markReservation
  | getReservationFor (ulid : Ulid) (uuid : UUIDv4)
  | replenishReservation

def Resources.Call.run : Resources.Call → HeldM Unit
  | .availableForPerformance assessment priority => do
    let _ ← Rankd.availableForPerformance assessment priority
  | .markPreReservation => do let _ ← Rankd.markPreReservation
  | .markReservation => Rankd.markReservation
  | .getReservationFor ulid uuid => do let _ ← Rankd.getReservationFor ulid uuid
  | .replenishReservation => Rankd.replenishReservation

/-- The list after a call, also where the call throws. -/
def Resources.after (R : Resources) (call : Resources.Call)
    (pointer : ReservationPtr) : Resources :=
  (call.run.run ⟨R, pointer⟩).2.resources

/-- The lists that calls lead to, each of them one that `C` allows. -/
inductive Resources.ReachedBy (C : Resources → Resources.Call → ReservationPtr → Prop) :
    Resources → Prop
  | empty : ReachedBy C ⟨[], 0⟩
  | call {R : Resources} {call : Resources.Call} {pointer : ReservationPtr} (h : ReachedBy C R)
    (hc : C R call pointer) : ReachedBy C (R.after call pointer)

/-- Only the foremost of equal elements is given to `replenish_reservation`. -/
def Resources.ReplenishesForemost (R : Resources) (call : Resources.Call)
    (pointer : ReservationPtr) : Prop :=
  call = .replenishReservation → ∀ a x, pointer = .listed a →
    ReservationList.lookup R.reservations a = some x → R.Foremost a x

/-- Programs that leave no `CLEARED` reservation in the list, also where they fault. -/
def KeepsUncleared {α : Type} (p : HeldM α) : Prop :=
  Triple (·.resources.Uncleared) p (fun _ s => s.resources.Uncleared) (·.resources.Uncleared)

section Runs

variable {R : Resources} {a : Nat} {x y : Reservation} {s : Held}
  {f : Reservation → Option Reservation}

theorem Resources.Uncleared.put (h : R.Uncleared) (hy : y.state ≠ .cleared) :
    (R.put a y).Uncleared := by
  intro e (he : e ∈ ReservationList.update R.reservations a fun _ => y)
  rcases ReservationList.mem_update he with he | ⟨r, -, rfl⟩
  · exact h e he
  · exact hy

theorem Resources.Uncleared.push (h : R.Uncleared) (hx : x.state ≠ .cleared) :
    (R.push x).Uncleared := by
  intro e he
  rcases List.mem_append.mp he with he | he
  · exact h e he
  · rw [List.mem_singleton.mp he]
    exact hx

/-- Writing through the pointer a state that is not new, or not `CLEARED`. -/
theorem Resources.Uncleared.write (h : s.resources.Uncleared) (hx : s.read = .ok x)
    (hy : y.state = x.state ∨ y.state ≠ .cleared) : (s.write y).resources.Uncleared := by
  obtain ⟨R, p⟩ := s
  cases p with
  | null => exact h
  | own z => exact h
  | listed a =>
    refine Resources.Uncleared.put h ?_
    rcases hy with hy | hy
    · rw [hy]
      exact h _ (ReservationList.lookup_mem (Held.read_listed.mp hx))
    · exact hy

theorem KeepsUncleared.pure {α : Type} (c : α) : KeepsUncleared (Pure.pure c : HeldM α) :=
  Triple.pure fun _ h => h

theorem KeepsUncleared.fault {α : Type} (e : Fault) :
    KeepsUncleared (Prog.fault e : HeldM α) := Triple.fault_intro fun _ h => h

theorem KeepsUncleared.bind {α β : Type} {p : HeldM α} {q : α → HeldM β} (hp : KeepsUncleared p)
    (hq : ∀ c, KeepsUncleared (q c)) : KeepsUncleared (p >>= q) := Triple.bind hp hq

theorem KeepsUncleared.get {α : Type} {q : Held → HeldM α}
    (hq : ∀ s, s.resources.Uncleared → KeepsUncleared (q s)) :
    KeepsUncleared (Prog.get >>= q) := fun s h => hq s h s h

theorem KeepsUncleared.modify {f : Held → Held}
    (hf : ∀ s, s.resources.Uncleared → (f s).resources.Uncleared) :
    KeepsUncleared (Prog.modify f) := hf

theorem KeepsUncleared.require {α β : Type} {o : Option α} {e : Fault} {q : α → HeldM β}
    (hq : ∀ c, o = some c → KeepsUncleared (q c)) :
    KeepsUncleared (Prog.require o e >>= q) := by
  cases o with
  | none => exact .fault e
  | some c => exact hq c rfl

theorem KeepsUncleared.ite {α : Type} {c : Prop} [Decidable c] {p q : HeldM α}
    (hp : KeepsUncleared p) (hq : KeepsUncleared q) : KeepsUncleared (if c then p else q) :=
  Triple.ite (fun _ => hp) fun _ => hq

theorem KeepsUncleared.readOnly {α : Type} {p : HeldM α} (hp : ReadOnly p) : KeepsUncleared p :=
  hp.triple

theorem deref_uncleared : KeepsUncleared deref := .readOnly fun _ => rfl

theorem writeThrough_uncleared {f : Reservation → Reservation}
    (hf : ∀ x, (f x).state = x.state ∨ (f x).state ≠ .cleared) :
    KeepsUncleared (writeThrough f) := by
  intro s h
  rcases hx : s.read with e | x
  · have hread : deref.run s = (.error e, s) := by simp only [deref, hx]
    rw [writeThrough, bind_error hread]
    exact h
  · rw [writeThrough_run hx]
    exact h.write hx (hf x)

theorem changeThrough_uncleared (hf : ∀ x y, f x = some y → y.state ≠ .cleared) :
    KeepsUncleared (changeThrough f) :=
  .bind deref_uncleared fun x => .require fun y hy =>
    writeThrough_uncleared fun _ => Or.inr (hf x y hy)

theorem itemAt_uncleared : KeepsUncleared (itemAt a) :=
  .readOnly (.bind .get fun _ => .require _ _)

theorem changeAt_uncleared (hf : ∀ x y, f x = some y → y.state ≠ .cleared) :
    KeepsUncleared (changeAt a f) :=
  .bind itemAt_uncleared fun x => .require fun y hy =>
    .modify fun _ h => h.put (hf x y hy)

theorem pushBack_uncleared : KeepsUncleared (pushBack x) :=
  .get fun _ _ => .bind (.modify fun _ h => h.push (x := x.copy) (by simp [Reservation.copy]))
    fun _ => .pure _

/-! ### The calls -/

theorem reserve_uncleared (x y : Reservation) (hy : x.reserve = some y) : y.state ≠ .cleared := by
  unfold Reservation.reserve at hy
  split_ifs at hy
  cases hy
  simp

theorem preReserve_uncleared (x y : Reservation) (hy : x.preReserve = some y) :
    y.state ≠ .cleared := by
  unfold Reservation.preReserve at hy
  split_ifs at hy
  cases hy
  simp

theorem markItem_uncleared (x y : Reservation) (hy : markItem x = some y) : y.state ≠ .cleared := by
  simp [markItem_granted hy]

theorem availableForPerformance_uncleared (assessment : Assessment) (priority : UInt8) :
    KeepsUncleared (availableForPerformance assessment priority) := by
  refine .bind deref_uncleared fun statement => .ite (.pure _) ?_
  refine .bind (writeThrough_uncleared fun _ => Or.inl rfl) fun _ => ?_
  refine .bind deref_uncleared fun statement => ?_
  refine .bind (writeThrough_uncleared fun _ => Or.inl rfl) fun _ => .ite (.pure _) ?_
  exact .bind deref_uncleared fun _ => .bind pushBack_uncleared fun _ => .pure _

theorem markLoop_uncleared (addresses : List Nat) (found : Bool) :
    KeepsUncleared (markLoop addresses found) := by
  induction addresses generalizing found with
  | nil => exact .pure _
  | cons b rest ih =>
    refine .bind deref_uncleared fun r => .bind itemAt_uncleared fun item => .ite ?_ (ih found)
    exact .bind (changeAt_uncleared markItem_uncleared) fun _ => ih true

theorem markPreLoop_uncleared (addresses : List Nat) : KeepsUncleared (markPreLoop addresses) := by
  induction addresses with
  | nil => exact .pure _
  | cons b rest ih =>
    refine .bind deref_uncleared fun r => .bind itemAt_uncleared fun item => .ite ?_ ih
    exact .bind (changeAt_uncleared preReserve_uncleared) fun _ => .pure _

theorem markReservation_uncleared : KeepsUncleared markReservation :=
  .get fun _ _ => .bind (markLoop_uncleared _ _) fun _ =>
    .ite (.pure _) (changeThrough_uncleared reserve_uncleared)

theorem markPreReservation_uncleared : KeepsUncleared markPreReservation := by
  refine .get fun _ _ => .bind (markPreLoop_uncleared _) fun found => ?_
  cases found with
  | some b => exact .pure _
  | none =>
    exact .bind (changeThrough_uncleared preReserve_uncleared) fun _ =>
      .bind deref_uncleared fun _ => pushBack_uncleared

theorem getReservationFor_uncleared (ulid : Ulid) (uuid : UUIDv4) :
    KeepsUncleared (getReservationFor ulid uuid) := by
  refine .get fun s h => ?_
  rcases hfound : s.resources.reservations.find? fun e => isSameTimestamp ulid e.2.uuid uuid with
    _ | ⟨b, r⟩
  · simp only [hfound]
    exact .pure _
  · simp only [hfound]
    have hr : (r.setUuid uuid).state ≠ .cleared := h _ (List.mem_of_find?_eq_some hfound)
    have hwrite : KeepsUncleared (writeAt b (r.setUuid uuid)) := .modify fun _ hs => hs.put hr
    exact .ite (.pure _) (.bind hwrite fun _ => .pure _)

/-- Erasing the foremost of equal elements. -/
theorem replenishReservation_uncleared {p : ReservationPtr} (h : R.Uncleared)
    (hfore : ∀ a x, p = .listed a → ReservationList.lookup R.reservations a = some x →
      R.Foremost a x) : (replenishReservation.run ⟨R, p⟩).2.resources.Uncleared := by
  rcases hrun : replenishReservation.run ⟨R, p⟩ with ⟨result, s'⟩
  rcases replenishReservation_cases hrun with ⟨e, rfl, rfl⟩ | ⟨b, x, y, rfl, hx, hy, hb, rfl⟩
  · exact h
  · have herase : ∀ R' : Resources, (∀ e ∈ ReservationList.eraseAt R'.reservations b,
        e ∈ R.reservations) → (R'.remove b).Uncleared := fun R' hsub e he => h e (hsub e he)
    cases p with
    | null => cases hx
    | own z => exact herase R fun e he => ReservationList.mem_eraseAt he
    | listed a =>
      have hl := Held.read_listed.mp hx
      have hba := (findEqual_iff hl).mpr (hfore a x rfl hl)
      rw [hb, Option.some.injEq] at hba
      subst hba
      refine herase (R.put b y) fun e he => ?_
      have hremove : (R.put b y).remove b = R.remove b := Resources.remove_put
      have he' : e ∈ (R.remove b).reservations := by
        rw [← hremove]
        exact he
      exact ReservationList.mem_eraseAt he'

/-- One call. -/
theorem Resources.Uncleared.after (h : R.Uncleared) (call : Resources.Call) (p : ReservationPtr)
    (hc : R.ReplenishesForemost call p) : (R.after call p).Uncleared := by
  have hkeeps : KeepsUncleared call.run → (R.after call p).Uncleared := by
    intro hk
    rcases hrun : call.run.run ⟨R, p⟩ with ⟨_ | _, s'⟩
    · rw [Resources.after, hrun]
      exact Triple.fault hk (s := ⟨R, p⟩) h hrun
    · rw [Resources.after, hrun]
      exact Triple.ok hk (s := ⟨R, p⟩) h hrun
  cases call with
  | availableForPerformance assessment priority =>
    exact hkeeps (.bind (availableForPerformance_uncleared assessment priority) fun _ => .pure _)
  | markPreReservation => exact hkeeps (.bind markPreReservation_uncleared fun _ => .pure _)
  | markReservation => exact hkeeps markReservation_uncleared
  | getReservationFor ulid uuid =>
    exact hkeeps (.bind (getReservationFor_uncleared ulid uuid) fun _ => .pure _)
  | replenishReservation => exact replenishReservation_uncleared h (hc rfl)

theorem Resources.ReachedBy.uncleared (h : Resources.ReachedBy Resources.ReplenishesForemost R) :
    R.Uncleared := by
  induction h with
  | empty => exact nofun
  | call _ hc ih => exact ih.after _ _ hc

/-- The element that the pointer points to is left in the list, `CLEARED`. -/
theorem replenishReservation_uncleared_iff (hu : R.Uncleared)
    (hl : ReservationList.lookup R.reservations a = some x)
    (hx : x.state = .preReserved ∨ x.state = .reserved) :
    (R.after .replenishReservation (.listed a)).Uncleared ↔ R.Foremost a x := by
  constructor
  · intro h
    obtain ⟨b, hb, hrun, hkept⟩ := replenishReservation_found hl hx
    have hafter : R.after .replenishReservation (.listed a) =
        (R.put a { x with state := .cleared }).remove b := congrArg (·.2.resources) hrun
    rw [hafter] at h
    rw [Resources.Foremost, ← findEqual_iff hl, hb, Option.some.injEq]
    by_contra hne
    exact h _ (ReservationList.lookup_mem (hkept hne)) rfl
  · intro hfore
    refine hu.after _ _ fun _ b y hb hy => ?_
    cases hb
    rw [hl] at hy
    cases hy
    exact hfore

end Runs

/-! ### What is expected of `replenish_reservation` -/

structure Resources.ReplenishesExactly (R : Resources) : Prop where
  removes : ∀ a x, ReservationList.lookup R.reservations a = some x →
    x.state = .preReserved ∨ x.state = .reserved → R.ErasesAt a
  throws : ∀ p x, Held.read ⟨R, p⟩ = .ok x → (∀ e ∈ R.reservations, e.2.equals x = false) →
    replenishReservation.run ⟨R, p⟩ = (.error .exception, ⟨R, p⟩)
  uncleared : R.Uncleared

/--
**When a replenishment removes the reservation that is given.** It does for the foremost of equal
elements, and a list that was only replenished so never holds a `CLEARED` reservation.
-/
theorem replenish_reservation_iff_foremost (R : Resources) :
    (Resources.ReachedBy Resources.ReplenishesForemost R → R.Uncleared) ∧
    (∀ a x, ReservationList.lookup R.reservations a = some x →
      x.state = .preReserved ∨ x.state = .reserved →
        (R.ErasesAt a ↔ R.Foremost a x) ∧
        (R.Uncleared →
          ((R.after .replenishReservation (.listed a)).Uncleared ↔ R.Foremost a x))) ∧
    ∀ p x, Held.read ⟨R, p⟩ = .ok x → (∀ e ∈ R.reservations, e.2.equals x = false) →
      replenishReservation.run ⟨R, p⟩ = (.error .exception, ⟨R, p⟩) := by
  refine ⟨fun h => h.uncleared, ?_, fun p x hx h => replenishReservation_absent hx h⟩
  intro a x hl hx
  exact ⟨replenishReservation_iff hl hx, fun hu => replenishReservation_uncleared_iff hu hl hx⟩

/-- A request that every node can perform. -/
def alwaysAdmits : Assessment := ⟨fun _ => 1, fun _ => 1⟩

def plainRequest : Reservation := .new default 0

/-- A second request of the same UUID is added, and both are granted. -/
def grantedTwice : Resources :=
  (((Resources.mk [] 0).after (.availableForPerformance alwaysAdmits 0) (.own plainRequest)).after
    (.availableForPerformance alwaysAdmits 0) (.own plainRequest)).after
    .markReservation (.own plainRequest)

theorem replenish_reservation_iff_foremost_granted :
    grantedTwice.ErasesAt 0 ∧ ¬grantedTwice.ErasesAt 1 := by
  have h := (replenish_reservation_iff_foremost grantedTwice).2.1
  constructor
  · exact ((h 0 { assessed alwaysAdmits 0 plainRequest with state := .reserved } rfl
      (Or.inr rfl)).1).mpr nofun
  · intro herases
    have hfore := ((h 1 { assessed alwaysAdmits 0 plainRequest with state := .reserved } rfl
      (Or.inr rfl)).1).mp herases
    have hequal := hfore (0, { assessed alwaysAdmits 0 plainRequest with state := .reserved })
      List.mem_cons_self
    rw [Reservation.equals_refl] at hequal
    cases hequal

/-- The second of two equal reservations is cleared, and the first one is erased. -/
theorem replenish_reservation_takes_first : ¬∀ R : Resources,
    Resources.ReachedBy (fun _ _ _ => True) R → R.ReplenishesExactly := by
  intro h
  have hreached : Resources.ReachedBy (fun _ _ _ => True) grantedTwice :=
    .call (.call (.call .empty trivial) trivial) trivial
  have hcleared : Resources.ReachedBy (fun _ _ _ => True)
      (grantedTwice.after .replenishReservation (.listed 1)) := .call hreached trivial
  exact (h _ hcleared).uncleared
    (1, { assessed alwaysAdmits 0 plainRequest with state := .cleared }) List.mem_cons_self rfl

/-! ## Pre-reserving -/

/-- What is expected of `mark_pre_reservation`, for a pointer to the reservation `r`. -/
def Held.PreReserves (r : Reservation) (s : Held) : Prop :=
  ∃ b s' x, markPreReservation.run s = (.ok b, s') ∧
    ReservationList.lookup s'.resources.reservations b = some x ∧
    (x.uuid = r.uuid ∧ x.requirements = r.requirements ∧ x.listener = r.listener ∧
      x.pastNode = r.pastNode ∧ x.nextNodes = r.nextNodes) ∧
    x.state = .preReserved ∧
    ReservationList.eraseAt s'.resources.reservations b =
      ReservationList.eraseAt s.resources.reservations b

/-- The first equal element of the list has the data of the reservation. -/
def Resources.FirstMatches (r : Reservation) (R : Resources) : Prop :=
  ∃ e, R.reservations.find? (r.equals ·.2) = some e ∧ e.2.requirements = r.requirements ∧
    e.2.listener = r.listener ∧ e.2.pastNode = r.pastNode ∧ e.2.nextNodes = r.nextNodes

section PreReserving

variable {R : Resources} {p : ReservationPtr} {a : Nat} {r x : Reservation} {s : Held}

theorem changeThrough_own {f : Reservation → Option Reservation} (hf : f r = some x) :
    (changeThrough f).run ⟨R, .own r⟩ = (.ok (), ⟨R, .own x⟩) := by
  rw [changeThrough, bind_ok deref_own, hf, require_some, pure_bind]
  rfl

/-- The first equal element is marked in place. -/
theorem markPreReservation_found {e : Nat × Reservation} (hv : R.Valid)
    (hread : Held.read ⟨R, p⟩ = .ok r) (hr : r.state = .created)
    (he : R.reservations.find? (r.equals ·.2) = some e) : markPreReservation.run ⟨R, p⟩ =
      (.ok e.1, ⟨R.put e.1 { e.2 with state := .preReserved }, p⟩) := by
  obtain ⟨heq, l₁, l₂, hl, h₁⟩ := List.find?_eq_some_iff_append.mp he
  have hmem : (e.1, e.2) ∈ R.reservations := List.mem_of_find?_eq_some he
  have hpre : e.2.preReserve = some { e.2 with state := .preReserved } := by
    rw [Reservation.preReserve, if_pos ((Reservation.equals_iff.mp heq).2.1.symm.trans hr)]
  have hkeys : R.reservations.map (·.1) = l₁.map (·.1) ++ e.1 :: l₂.map (·.1) := by simp [hl]
  have hloop : (markPreLoop (R.reservations.map (·.1))).run ⟨R, p⟩ =
      (.ok (some e.1), ⟨R.put e.1 { e.2 with state := .preReserved }, p⟩) := by
    rw [hkeys, markPreLoop_unequal hv (deref_run hread) (fun f hf => by simp [hl, hf])
      (fun f hf => by simpa using h₁ f hf), markPreLoop, bind_ok (deref_run hread),
      bind_ok (itemAt_run hmem hv), heq, if_pos rfl, bind_ok (changeAt_put hv hmem hpre), run_pure]
  rw [markPreReservation, bind_ok (run_get _), bind_ok hloop]
  rfl

/-- Without an equal element the reservation is marked, and a copy is added. -/
theorem markPreReservation_absent (hv : R.Valid) (hr : r.state = .created)
    (h : R.reservations.find? (r.equals ·.2) = none) :
    markPreReservation.run ⟨R, .own r⟩ = (.ok R.nextAddress,
      ⟨R.push r.copy, .own { r with state := .preReserved }⟩) := by
  have hloop := markPreLoop_unequal (p := .own r) hv deref_own (fun e he => he)
    (fun e he => by simpa using List.find?_eq_none.mp h e he) []
  rw [List.append_nil] at hloop
  have hpre : r.preReserve = some { r with state := .preReserved } := by
    rw [Reservation.preReserve, if_pos hr]
  rw [markPreReservation, bind_ok (run_get _), bind_ok hloop]
  simp only [bind_ok (changeThrough_own hpre), bind_ok deref_own]
  rfl

/--
**When a pre-reservation takes effect in the list.** The first equal element is marked, so it has to
have the data of the reservation. Where there is none, the element that is added is `CREATED`.
-/
theorem mark_pre_reservation_iff (hv : s.resources.Valid) (hread : s.read = .ok r)
    (hr : r.state = .created) : s.PreReserves r ↔ s.resources.FirstMatches r := by
  obtain ⟨R, p⟩ := s
  rcases hfind : R.reservations.find? (r.equals ·.2) with _ | e
  · constructor
    · rintro ⟨b, s', x, hrun, hx, -, hstate, -⟩
      cases p with
      | null => cases hread
      | listed a =>
        have hself := List.find?_eq_none.mp hfind _
          (ReservationList.lookup_mem (Held.read_listed.mp hread))
        exact absurd (Reservation.equals_refl r) hself
      | own z =>
        cases hread
        rw [markPreReservation_absent hv hr hfind] at hrun
        cases hrun
        rw [hv.lookup_push, Option.some.injEq] at hx
        rw [← hx] at hstate
        cases hstate
    · rintro ⟨e, he, -⟩
      rw [hfind] at he
      cases he
  · have hrun := markPreReservation_found hv hread hr hfind
    have hmem : (e.1, e.2) ∈ R.reservations := List.mem_of_find?_eq_some hfind
    have heq : r.equals e.2 = true := by simpa using List.find?_some hfind
    have hlookup := ReservationList.lookup_update (f := fun _ => { e.2 with state := .preReserved })
      (ReservationList.lookup_of_mem hv.nodup hmem)
    constructor
    · rintro ⟨b, s', x, hrun', hx, ⟨-, hreq, hlistener, hpast, hnext⟩, -, -⟩
      rw [hrun] at hrun'
      cases hrun'
      rw [Resources.put, hlookup, Option.some.injEq] at hx
      subst hx
      exact ⟨e, hfind, hreq, hlistener, hpast, hnext⟩
    · rintro ⟨f, hf, hreq, hlistener, hpast, hnext⟩
      rw [hfind] at hf
      cases hf
      refine ⟨e.1, _, { e.2 with state := .preReserved }, hrun, hlookup,
        ⟨(Reservation.equals_iff.mp heq).1.symm, hreq, hlistener, hpast, hnext⟩, rfl, ?_⟩
      exact congrArg Resources.reservations (Resources.remove_put (R := R) (a := e.1))

end PreReserving

theorem mark_pre_reservation_iff_listed :
    Held.PreReserves plainRequest ⟨⟨[(0, plainRequest)], 1⟩, .listed 0⟩ :=
  (mark_pre_reservation_iff ⟨by simp [ReservationList.addresses], by simp⟩ rfl rfl).mpr
    ⟨(0, plainRequest), rfl, rfl, rfl, rfl, rfl⟩

/-- A reservation that is not in the list is added without its state. -/
theorem mark_pre_reservation_copies : ¬∀ (s : Held) (r : Reservation), s.resources.Valid →
    s.read = .ok r → r.state = .created → s.PreReserves r := by
  intro h
  obtain ⟨b, s', x, hrun, hx, -, hstate, -⟩ := h ⟨⟨[], 0⟩, .own plainRequest⟩ plainRequest
    ⟨List.nodup_nil, nofun⟩ rfl rfl
  cases hrun
  cases hx
  cases hstate

/-! ## Reserving -/

/-- The list with the elements that are equal to `r` in state `RESERVED`. -/
def ReservationList.reserveEqual (r : Reservation) (l : ReservationList) : ReservationList :=
  l.map fun e => if r.equals e.2 then (e.1, { e.2 with state := .reserved }) else e

/-- What is expected of `mark_reservation`, for a pointer to the reservation `r`. -/
def Held.reservedAlike (r : Reservation) (s : Held) : Held :=
  if s.resources.reservations.any (r.equals ·.2) then
    { s with resources := { s.resources with
      reservations := ReservationList.reserveEqual r s.resources.reservations } }
  else s.write { r with state := .reserved }

/--
A reservation of its own is new or has an equal in the list. One of the list is the last of its
equals, and those behind it are not equal to it either once it is `RESERVED`.
-/
def Held.MarksAlike (r : Reservation) (s : Held) : Prop :=
  match s.pointer with
  | .null => False
  | .own _ => r.state = .created ∨ ∃ e ∈ s.resources.reservations, r.equals e.2 = true
  | .listed a => ∀ e ∈ ReservationList.behind s.resources.reservations a,
      r.equals e.2 = false ∧ ({ r with state := .reserved } : Reservation).equals e.2 = false

section Reserving

variable {R : Resources} {p : ReservationPtr} {a : Nat} {r x : Reservation} {s : Held}

theorem markItem_of_state (hx : x.state = .created ∨ x.state = .preReserved) :
    markItem x = some { x with state := .reserved } := by
  rcases hx with hx | hx <;> simp [markItem, Reservation.reserve, Reservation.markReserved, hx]

/-- Marking an element in the middle of the list. -/
theorem Resources.Valid.put_middle {l₁ l₂ : ReservationList} {e : Nat × Reservation} (hv : R.Valid)
    (hl : R.reservations = l₁ ++ e :: l₂) : (R.put e.1 x).reservations = l₁ ++ (e.1, x) :: l₂ := by
  have hkeep : ∀ l : ReservationList, (∀ f ∈ l, f.1 ≠ e.1) →
      (l.map fun f => if f.1 = e.1 then (f.1, x) else f) = l := by
    intro l h
    refine (List.map_congr_left fun f hf => ?_).trans (List.map_id l)
    rw [if_neg (h f hf), id]
  rw [Resources.put, ReservationList.update, hl, List.map_append, List.map_cons, if_pos rfl,
    hkeep l₁ fun f hf => hv.ne_of_split hl (Or.inl hf),
    hkeep l₂ fun f hf => hv.ne_of_split hl (Or.inr hf)]

@[simp] theorem ReservationList.addresses_reserveEqual (r : Reservation) (l : ReservationList) :
    addresses (reserveEqual r l) = addresses l := by
  simp only [addresses, reserveEqual, List.map_map]
  refine List.map_congr_left fun e _ => ?_
  by_cases he : r.equals e.2 = true <;> simp [he]

theorem Resources.Valid.of_addresses {l : ReservationList} (hv : R.Valid)
    (hl : ReservationList.addresses l = ReservationList.addresses R.reservations) :
    Resources.Valid ⟨l, R.nextAddress⟩ := by
  refine ⟨hl ▸ hv.nodup, fun e he => ?_⟩
  have hmem : e.1 ∈ ReservationList.addresses R.reservations := hl ▸ List.mem_map_of_mem he
  obtain ⟨f, hf, hfe⟩ := List.mem_map.mp hmem
  rw [← hfe]
  exact hv.fresh f hf

/-- While `*reservation` stays the same, the equal elements are marked. -/
theorem markLoop_front (l₁ l l₂ : ReservationList) (hv : R.Valid)
    (hl : R.reservations = l₁ ++ (l ++ l₂)) (hread : Held.read ⟨R, p⟩ = .ok r)
    (hr : r.state = .created ∨ r.state = .preReserved) (hp : ∀ e ∈ l, p ≠ .listed e.1)
    (rest : List Nat) (found : Bool) :
    (markLoop (l.map (·.1) ++ rest) found).run ⟨R, p⟩ =
      (markLoop rest (found || l.any (r.equals ·.2))).run
        ⟨⟨l₁ ++ (ReservationList.reserveEqual r l ++ l₂), R.nextAddress⟩, p⟩ := by
  induction l generalizing R l₁ found with
  | nil =>
    obtain ⟨reservations, next⟩ := R
    cases hl
    simp [ReservationList.reserveEqual]
  | cons e l ih =>
    have hl' : R.reservations = l₁ ++ e :: (l ++ l₂) := hl
    have hmem : (e.1, e.2) ∈ R.reservations := by simp [hl']
    have hp' : ∀ f ∈ l, p ≠ .listed f.1 := fun f hf => hp f (List.mem_cons_of_mem _ hf)
    rw [List.map_cons, List.cons_append, markLoop, bind_ok (deref_run hread),
      bind_ok (itemAt_run hmem hv)]
    by_cases heq : r.equals e.2 = true
    · have hmark : markItem e.2 = some { e.2 with state := .reserved } := by
        refine markItem_of_state ?_
        rw [← (Reservation.equals_iff.mp heq).2.1]
        exact hr
      have hread' : Held.read ⟨R.put e.1 { e.2 with state := .reserved }, p⟩ = .ok r := by
        cases p with
        | null => cases hread
        | own z => exact hread
        | listed a =>
          have hne : a ≠ e.1 := fun h => hp e List.mem_cons_self (by rw [h])
          rw [Held.read_listed, Resources.put, ReservationList.lookup_update_ne hne]
          exact Held.read_listed.mp hread
      have hput := hv.put_middle (x := { e.2 with state := .reserved }) hl'
      rw [heq, if_pos rfl, bind_ok (changeAt_put hv hmem hmark),
        ih (l₁ ++ [(e.1, { e.2 with state := .reserved })]) hv.put (by simp [hput]) hread' hp']
      simp [ReservationList.reserveEqual, heq, Resources.put]
    · rw [if_neg heq, ih (l₁ ++ [e]) hv (by simp [hl']) hread hp']
      simp [ReservationList.reserveEqual, heq]

theorem ReservationList.reserveEqual_of_unequal {l : ReservationList}
    (h : ∀ e ∈ l, r.equals e.2 = false) : reserveEqual r l = l := by
  refine (List.map_congr_left fun e he => ?_).trans (List.map_id l)
  rw [h e he, if_neg Bool.false_ne_true, id]

/-- An equal element does change. -/
theorem ReservationList.reserveEqual_eq_self_iff {l : ReservationList}
    (hr : r.state = .created ∨ r.state = .preReserved) :
    reserveEqual r l = l ↔ ∀ e ∈ l, r.equals e.2 = false := by
  refine ⟨fun h => ?_, reserveEqual_of_unequal⟩
  induction l with
  | nil => exact nofun
  | cons e l ih =>
    obtain ⟨hhead, htail⟩ := List.cons.inj (show _ :: reserveEqual r l = e :: l from h)
    refine List.forall_mem_cons.mpr ⟨?_, ih htail⟩
    rw [← Bool.not_eq_true]
    intro heq
    simp only [heq, if_true] at hhead
    have hstate : ReservationState.reserved = e.2.state := congrArg (·.2.state) hhead
    rw [← (Reservation.equals_iff.mp heq).2.1] at hstate
    rcases hr with hr | hr <;> rw [hr] at hstate <;> cases hstate

/-- A pointer outside the list: all elements are compared with the same reservation. -/
theorem markReservation_own_iff (hv : R.Valid)
    (hr : r.state = .created ∨ r.state = .preReserved) :
    markReservation.run ⟨R, .own r⟩ = (.ok (), Held.reservedAlike r ⟨R, .own r⟩) ↔
      r.state = .created ∨ ∃ e ∈ R.reservations, r.equals e.2 = true := by
  have hloop := markLoop_front (p := .own r) [] R.reservations [] hv (by simp) rfl hr
    (fun _ _ => nofun) [] false
  rw [List.append_nil, List.append_nil, List.nil_append, Bool.false_or] at hloop
  rw [markReservation, bind_ok (run_get _), bind_ok hloop, Held.reservedAlike]
  by_cases hany : R.reservations.any (r.equals ·.2) = true
  · rw [hany, if_pos rfl, if_pos rfl]
    refine iff_of_true rfl (Or.inr ?_)
    simpa using hany
  · have hne : ∀ e ∈ R.reservations, r.equals e.2 = false := by simpa using hany
    rw [if_neg hany, if_neg hany, ReservationList.reserveEqual_of_unequal hne]
    rcases hr with hr | hr
    · have hreserve : r.reserve = some { r with state := .reserved } :=
        by simp [Reservation.reserve, hr]
      exact iff_of_true (changeThrough_own hreserve) (Or.inl hr)
    · have hreserve : r.reserve = none := by simp [Reservation.reserve, hr]
      refine iff_of_false ?_ ?_
      · rw [changeThrough, bind_ok deref_own, hreserve, require_none, bind_error (run_fault _ _)]
        simp
      · rintro (hcreated | ⟨e, he, heq⟩)
        · rw [hr] at hcreated
          cases hcreated
        · rw [hne e he] at heq
          cases heq

/-- The loop from the beginning of the list up to the reservation itself. -/
theorem markLoop_itself {l₁ l₂ : ReservationList} (hv : R.Valid)
    (hl : R.reservations = l₁ ++ (a, r) :: l₂)
    (hr : r.state = .created ∨ r.state = .preReserved) :
    ∃ R' : Resources, R'.Valid ∧
      R' = ⟨ReservationList.reserveEqual r l₁ ++ (a, { r with state := .reserved }) :: l₂,
        R.nextAddress⟩ ∧
      (markLoop (R.reservations.map (·.1)) false).run ⟨R, .listed a⟩ =
        (markLoop (l₂.map (·.1)) true).run ⟨R', .listed a⟩ := by
  have hread : Held.read ⟨R, .listed a⟩ = .ok r :=
    Held.read_listed.mpr (ReservationList.lookup_of_mem hv.nodup (by simp [hl]))
  have hloop := markLoop_front (p := .listed a) [] l₁ ((a, r) :: l₂) hv hl hread hr
    (fun e he h => hv.ne_of_split hl (Or.inl he) (by cases h; rfl)) (a :: l₂.map (·.1)) false
  have hkeys : R.reservations.map (·.1) = l₁.map (·.1) ++ a :: l₂.map (·.1) := by simp [hl]
  have hv₁ : Resources.Valid ⟨ReservationList.reserveEqual r l₁ ++ (a, r) :: l₂,
    R.nextAddress⟩ := by
    refine hv.of_addresses ?_
    rw [hl, ReservationList.addresses_append, ReservationList.addresses_append,
      ReservationList.addresses_reserveEqual]
  have hmem : (a, r) ∈ ReservationList.reserveEqual r l₁ ++ (a, r) :: l₂ := by simp
  have hread₁ : Held.read ⟨⟨ReservationList.reserveEqual r l₁ ++ (a, r) :: l₂, R.nextAddress⟩,
      .listed a⟩ = .ok r := Held.read_listed.mpr (ReservationList.lookup_of_mem hv₁.nodup hmem)
  refine ⟨_, hv₁.put (a := a) (y := { r with state := .reserved }), ?_, ?_⟩
  · exact congrArg (Resources.mk · R.nextAddress) (hv₁.put_middle rfl)
  · rw [hkeys, hloop, List.nil_append, markLoop, bind_ok (deref_run hread₁),
      bind_ok (itemAt_run hmem hv₁), Reservation.equals_refl, if_pos rfl,
      bind_ok (changeAt_put hv₁ hmem (markItem_of_state hr))]

/-- A pointer into the list: the elements behind it are compared with a `RESERVED` reservation. -/
theorem markReservation_listed_iff (hv : R.Valid)
    (hl : ReservationList.lookup R.reservations a = some r)
    (hr : r.state = .created ∨ r.state = .preReserved) :
    markReservation.run ⟨R, .listed a⟩ = (.ok (), Held.reservedAlike r ⟨R, .listed a⟩) ↔
      ∀ e ∈ ReservationList.behind R.reservations a,
        r.equals e.2 = false ∧
        ({ r with state := .reserved } : Reservation).equals e.2 = false := by
  have hsplit := ReservationList.split_of_lookup hl
  generalize ReservationList.ahead R.reservations a = l₁ at hsplit
  generalize ReservationList.behind R.reservations a = l₂ at hsplit ⊢
  obtain ⟨R', hv', hR', hloop⟩ := markLoop_itself hv hsplit hr
  have hmem' : ∀ e ∈ l₂, e ∈ R'.reservations := fun e he => by simp [hR', he]
  have hread' : deref.run ⟨R', .listed a⟩ =
      (.ok { r with state := .reserved }, ⟨R', .listed a⟩) :=
    deref_run (Held.read_listed.mpr (ReservationList.lookup_of_mem hv'.nodup (by simp [hR'])))
  have hany : R.reservations.any (r.equals ·.2) = true := by simp [hsplit]
  have hexpected : Held.reservedAlike r ⟨R, .listed a⟩ =
      ⟨⟨ReservationList.reserveEqual r l₁ ++
        (a, { r with state := .reserved }) :: ReservationList.reserveEqual r l₂, R.nextAddress⟩,
          .listed a⟩ := by
    rw [Held.reservedAlike, if_pos hany]
    simp [hsplit, ReservationList.reserveEqual]
  rw [markReservation, bind_ok (run_get _), hexpected]
  constructor
  · intro hrun
    obtain ⟨found, s', hbehind, hfound⟩ := bind_eq_ok.mp hrun
    rw [hloop] at hbehind
    have hne := (markLoop_reserved_iff hv' hread' rfl hmem' true).mp ⟨found, s', hbehind⟩
    have hskip := markLoop_unequal hv' hread' hmem' hne [] true
    rw [List.append_nil] at hskip
    rw [hskip] at hbehind
    cases hbehind
    cases hfound
    -- The loop left the elements behind as they were, so none of them was to be marked.
    have hlists := List.append_cancel_left (congrArg Resources.reservations hR')
    have hsame := (ReservationList.reserveEqual_eq_self_iff hr).mp (List.cons.inj hlists).2
    exact fun e he => ⟨hsame e he, hne e he⟩
  · intro h
    have hskip := markLoop_unequal hv' hread' hmem' (fun e he => (h e he).2) [] true
    rw [List.append_nil] at hskip
    rw [bind_ok (hloop.trans hskip), if_pos rfl, run_pure, hR',
      ReservationList.reserveEqual_of_unequal fun e he => (h e he).1]

end Reserving

/--
**When `mark_reservation` treats equal elements alike.** The pointer's reservation must be the last
of its equals in the list; outside the list it must be new, or have an equal in it.
-/
theorem mark_reservation_iff_last {s : Held} {r : Reservation} (hv : s.resources.Valid)
    (hread : s.read = .ok r) (hr : r.state = .created ∨ r.state = .preReserved) :
    markReservation.run s = (.ok (), s.reservedAlike r) ↔ s.MarksAlike r := by
  obtain ⟨R, p⟩ := s
  cases p with
  | null => cases hread
  | own z =>
    cases hread
    exact markReservation_own_iff hv hr
  | listed a => exact markReservation_listed_iff hv (Held.read_listed.mp hread) hr

/-- Two equal reservations of a list. -/
def requestedTwice : Resources := ⟨[(0, plainRequest), (1, plainRequest)], 2⟩

theorem mark_reservation_iff_last_second : markReservation.run ⟨requestedTwice, .listed 1⟩ =
    (.ok (), Held.reservedAlike plainRequest ⟨requestedTwice, .listed 1⟩) :=
  (mark_reservation_iff_last ⟨by decide, by decide⟩ rfl (Or.inl rfl)).mpr nofun

/-- Through a pointer to the first of them only the first is marked. -/
theorem mark_reservation_passes_equal : ¬∀ (s : Held) (r : Reservation), s.resources.Valid →
    s.read = .ok r → r.state = .created ∨ r.state = .preReserved →
      markReservation.run s = (.ok (), s.reservedAlike r) := by
  intro h
  have hrun := h ⟨requestedTwice, .listed 0⟩ plainRequest ⟨by decide, by decide⟩ rfl (Or.inl rfl)
  have hstates := congrArg (fun result => result.2.resources.reservations.map (·.2.state)) hrun
  revert hstates
  decide

end Rankd

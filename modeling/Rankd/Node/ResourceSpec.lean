import Rankd.Node.ReservationList

/-!
# The reservation operations stay within a session

Every operation of `Resources`, called with a pointer to a reservation of the timestamp `T`, changes
reservations of this timestamp only. The invariant is `Held.Inv`, and it also holds at a fault.
-/

namespace Rankd

open Infra Prog

/-- The list is valid and was changed within the timestamp `T` only. -/
structure Held.Kept (T : Nat) (r₀ : Resources) (s : Held) : Prop where
  valid : s.resources.Valid
  confined : Resources.Confined T r₀ s.resources

/-- The same, and the pointer is of the timestamp `T`. -/
structure Held.Inv (T : Nat) (r₀ : Resources) (s : Held) : Prop extends Held.Kept T r₀ s where
  pointer : s.pointer.Ok T s.resources

namespace Held

variable {T : Nat} {r₀ : Resources}

/-- Replacing an element of the timestamp by another of it. -/
theorem Inv.update {s : Held} (h : Inv T r₀ s) {a : Nat} {f : Reservation → Reservation}
    (ha : ∀ x, (a, x) ∈ s.resources.reservations → timestamp x.uuid = T)
    (hf : ∀ x, (a, x) ∈ s.resources.reservations → timestamp (f x).uuid = T) :
    Inv T r₀ { s with resources := { s.resources with
      reservations := ReservationList.update s.resources.reservations a f } } where
  valid :=
    { nodup := by
        simp only [ReservationList.addresses_update]
        exact h.valid.nodup
      fresh := by
        intro e he
        rcases ReservationList.mem_update he with he | ⟨x, hx, rfl⟩
        · exact h.valid.fresh e he
        · exact h.valid.fresh (a, x) hx }
  confined :=
    { others := (ReservationList.others_update ha hf).trans h.confined.others
      next := h.confined.next
      address := by
        intro b x hx ht
        rcases ReservationList.mem_update hx with hx | ⟨y, hy, heq⟩
        · exact h.confined.address b x hx ht
        · obtain ⟨rfl, -⟩ := Prod.mk.inj heq
          exact h.confined.address b y hy (ha y hy) }
  pointer := by
    have hp := h.pointer
    rcases hptr : s.pointer with _ | b | x
    · trivial
    · rw [hptr] at hp
      refine ⟨hp.1, ?_⟩
      intro x hx
      rcases ReservationList.mem_update hx with hx | ⟨y, hy, heq⟩
      · exact hp.2 x hx
      · obtain ⟨rfl, rfl⟩ := Prod.mk.inj heq
        exact hf y hy
    · rw [hptr] at hp
      exact hp

/-- Replacing the reservation the pointer owns. -/
theorem Inv.setOwn {s : Held} (h : Inv T r₀ s) {x : Reservation} (hx : timestamp x.uuid = T) :
    Inv T r₀ { s with pointer := .own x } where
  valid := h.valid
  confined := h.confined
  pointer := hx

theorem Inv.push {s : Held} (h : Inv T r₀ s) {x : Reservation} (hx : timestamp x.uuid = T) :
    Inv T r₀ { s with resources :=
      { reservations := s.resources.reservations ++ [(s.resources.nextAddress, x)]
        nextAddress := s.resources.nextAddress + 1 } } where
  valid := h.valid.append x
  confined :=
    { others := (ReservationList.others_append_session hx).trans h.confined.others
      next := Nat.le_succ_of_le h.confined.next
      address := by
        intro a y hy ht
        rcases List.mem_append.mp hy with hy | hy
        · exact h.confined.address a y hy ht
        · obtain ⟨rfl, rfl⟩ := Prod.mk.inj (List.mem_singleton.mp hy)
          exact Or.inr h.confined.next }
  pointer := by
    have hp := h.pointer
    rcases hptr : s.pointer with _ | b | y
    · trivial
    · rw [hptr] at hp
      refine ⟨Nat.lt_succ_of_lt hp.1, ?_⟩
      intro y hy
      rcases List.mem_append.mp hy with hy | hy
      · exact hp.2 y hy
      · obtain ⟨rfl, rfl⟩ := Prod.mk.inj (List.mem_singleton.mp hy)
        exact hx
    · rw [hptr] at hp
      exact hp

theorem Inv.erase {s : Held} (h : Inv T r₀ s) {a : Nat}
    (ha : ∀ x, (a, x) ∈ s.resources.reservations → timestamp x.uuid = T) :
    Inv T r₀ { s with resources := { s.resources with
      reservations := ReservationList.eraseAt s.resources.reservations a } } where
  valid :=
    { nodup := h.valid.nodup.sublist (List.filter_sublist.map _)
      fresh := fun e he => h.valid.fresh e (ReservationList.mem_eraseAt he) }
  confined :=
    { others := (ReservationList.others_eraseAt ha).trans h.confined.others
      next := h.confined.next
      address := fun b x hx ht =>
        h.confined.address b x (ReservationList.mem_eraseAt hx) ht }
  pointer := by
    have hp := h.pointer
    rcases hptr : s.pointer with _ | b | x
    · trivial
    · rw [hptr] at hp
      exact ⟨hp.1, fun x hx => hp.2 x (ReservationList.mem_eraseAt hx)⟩
    · rw [hptr] at hp
      exact hp

end Held

/-! ## The operations -/

section Operations

variable {T : Nat} {r₀ : Resources}

/-- Triples whose invariant is `Held.Inv`. -/
abbrev HeldKeeps {α : Type} (T : Nat) (r₀ : Resources) (p : HeldM α)
    (Q : α → Held → Prop) : Prop :=
  Triple (Held.Inv T r₀) p (fun a s => Held.Inv T r₀ s ∧ Q a s) (Held.Inv T r₀)

theorem Held.Inv.read {s : Held} {r : Reservation} (hs : Held.Inv T r₀ s) (h : s.read = .ok r) :
    timestamp r.uuid = T := by
  obtain ⟨res, pointer⟩ := s
  have hp := hs.pointer
  cases pointer with
  | null => cases h
  | own x => cases h; exact hp
  | listed a =>
    simp only [Held.read] at h
    rcases hl : ReservationList.lookup res.reservations a with _ | x
    · rw [hl] at h; cases h
    · rw [hl] at h
      cases h
      exact hp.2 r (ReservationList.lookup_mem hl)

theorem Held.Inv.write {s : Held} {r : Reservation} (hs : Held.Inv T r₀ s)
    (hr : timestamp r.uuid = T) : Held.Inv T r₀ (s.write r) := by
  obtain ⟨res, pointer⟩ := s
  cases pointer with
  | null => exact hs
  | listed a => exact hs.update hs.pointer.2 fun _ _ => hr
  | own x => exact hs.setOwn hr

theorem deref_keeps : HeldKeeps T r₀ deref (fun r _ => timestamp r.uuid = T) := by
  intro s hs
  simp only [deref]
  rcases hr : s.read with e | r
  · exact hs
  · exact ⟨hs, hs.read hr⟩

theorem itemAt_keeps (a : Nat) : HeldKeeps T r₀ (itemAt a)
    (fun r s => ReservationList.lookup s.resources.reservations a = some r) := by
  intro s hs
  simp only [itemAt, run_bind, run_get]
  rcases hl : ReservationList.lookup s.resources.reservations a with _ | r
  · exact hs
  · exact ⟨hs, hl⟩

theorem writeThrough_keeps {f : Reservation → Reservation}
    (hf : ∀ x, timestamp x.uuid = T → timestamp (f x).uuid = T) :
    HeldKeeps T r₀ (writeThrough f) (fun _ _ => True) := by
  refine Triple.bind deref_keeps fun r => Triple.modify ?_
  rintro s ⟨hs, hr⟩
  exact ⟨hs.write (hf r hr), trivial⟩

theorem changeThrough_keeps {f : Reservation → Option Reservation}
    (hf : ∀ x y, f x = some y → y.uuid = x.uuid) :
    HeldKeeps T r₀ (changeThrough f) (fun _ _ => True) := by
  refine Triple.bind deref_keeps fun r => ?_
  refine Triple.bind (Q := fun r' s => Held.Inv T r₀ s ∧ timestamp r'.uuid = T) ?_ fun r' => ?_
  · refine Triple.require ?_ fun s hs => hs.1
    rintro r' hr' s ⟨hs, hr⟩
    exact ⟨hs, by rw [hf r r' hr', hr]⟩
  · exact Triple.assume fun hr => writeThrough_keeps fun _ _ => hr

/-- What an address returned by an operation points to. -/
def ListedOk (T : Nat) (a : Nat) (s : Held) : Prop :=
  a < s.resources.nextAddress ∧ ∀ x, (a, x) ∈ s.resources.reservations → timestamp x.uuid = T

/-- Changing an element that is known to be of the timestamp. -/
theorem changeAt_keeps {a : Nat} {f : Reservation → Option Reservation}
    (hf : ∀ x y, f x = some y → y.uuid = x.uuid) :
    Triple (fun s => Held.Inv T r₀ s ∧ ListedOk T a s) (changeAt a f)
      (fun _ s => Held.Inv T r₀ s ∧ ListedOk T a s) (Held.Inv T r₀) := by
  rintro s ⟨hs, hlt, ha⟩
  simp only [changeAt, itemAt, run_bind, run_get]
  rcases hl : ReservationList.lookup s.resources.reservations a with _ | r
  · exact hs
  · simp only [require_some, run_pure]
    rcases hfr : f r with _ | r'
    · exact hs
    · have hr' : timestamp r'.uuid = T := by
        rw [hf r r' hfr]
        exact ha r (ReservationList.lookup_mem hl)
      refine ⟨hs.update ha fun _ _ => hr', hlt, ?_⟩
      intro x (hx : (a, x) ∈ ReservationList.update s.resources.reservations a fun _ => r')
      rcases ReservationList.mem_update hx with hx | ⟨y, -, heq⟩
      · exact ha x hx
      · rw [(Prod.mk.inj heq).2]
        exact hr'

theorem pushBack_keeps {r : Reservation} (hr : timestamp r.uuid = T) :
    HeldKeeps T r₀ (pushBack r) (fun a s => ListedOk T a s) := by
  intro s hs
  refine ⟨hs.push hr, Nat.lt_succ_self _, ?_⟩
  intro x hx
  rcases List.mem_append.mp hx with hx | hx
  · exact absurd (hs.valid.fresh _ hx) (Nat.lt_irrefl _)
  · obtain ⟨-, rfl⟩ := Prod.mk.inj (List.mem_singleton.mp hx)
    exact hr

theorem availableForPerformance_keeps (assessment : Assessment) (priority : UInt8) :
    HeldKeeps T r₀ (availableForPerformance assessment priority)
      (fun o s => ∀ a, o = some a → ListedOk T a s) := by
  refine Triple.bind deref_keeps fun r => ?_
  refine Triple.ite (fun _ => ?_) fun _ => ?_
  · exact Triple.pure fun s hs => ⟨hs.1, fun a h => by cases h⟩
  refine Triple.bind ((writeThrough_keeps (f := (·.setPriority priority)) fun _ h => h).weaken
    (fun s hs => hs.1) fun _ _ h => h.1) fun _ => ?_
  refine Triple.bind deref_keeps fun r => ?_
  refine Triple.bind ((writeThrough_keeps
    (f := (·.updateLastBid (assessment.estimateBid r))) fun _ h => h).weaken
    (fun s hs => hs.1) fun _ _ h => h.1) fun _ => ?_
  refine Triple.ite (fun _ => ?_) fun _ => ?_
  · exact Triple.pure fun s hs => ⟨hs, fun a h => by cases h⟩
  refine Triple.bind deref_keeps fun r => Triple.assume fun hr => ?_
  refine Triple.bind (pushBack_keeps hr) fun a => Triple.pure ?_
  rintro s ⟨hs, ha⟩
  refine ⟨hs, ?_⟩
  rintro b ⟨⟩
  exact ha

theorem markReserved_uuid (x y : Reservation) (h : x.markReserved = some y) : y.uuid = x.uuid := by
  unfold Reservation.markReserved at h
  split_ifs at h
  cases h
  rfl

theorem reserve_uuid (x y : Reservation) (h : x.reserve = some y) : y.uuid = x.uuid := by
  unfold Reservation.reserve at h
  split_ifs at h
  cases h
  rfl

theorem preReserve_uuid (x y : Reservation) (h : x.preReserve = some y) : y.uuid = x.uuid := by
  unfold Reservation.preReserve at h
  split_ifs at h
  cases h
  rfl

theorem replenish_uuid (x y : Reservation) (h : x.replenish = some y) : y.uuid = x.uuid := by
  unfold Reservation.replenish at h
  split_ifs at h
  cases h
  rfl

theorem markItem_uuid (x y : Reservation) (h : markItem x = some y) : y.uuid = x.uuid := by
  unfold markItem at h
  split_ifs at h
  · exact markReserved_uuid x y h
  · exact reserve_uuid x y h

/-- An element equal to one of the timestamp is of the timestamp. -/
theorem listedOk_of_equals {s : Held} {a : Nat} {r item : Reservation} (hs : Held.Inv T r₀ s)
    (hitem : ReservationList.lookup s.resources.reservations a = some item)
    (he : item.uuid = r.uuid) (hr : timestamp r.uuid = T) : ListedOk T a s := by
  refine ⟨hs.valid.fresh _ (ReservationList.lookup_mem hitem), ?_⟩
  intro x hx
  have hx' := ReservationList.lookup_of_mem hs.valid.nodup hx
  rw [hitem] at hx'
  cases hx'
  rw [he, hr]

theorem markLoop_keeps (l : List Nat) (found : Bool) :
    HeldKeeps T r₀ (markLoop l found) (fun _ _ => True) := by
  induction l generalizing found with
  | nil => exact Triple.pure fun s hs => ⟨hs, trivial⟩
  | cons a rest ih =>
    refine Triple.bind deref_keeps fun r => Triple.assume fun hr => ?_
    refine Triple.bind (itemAt_keeps a) fun item => ?_
    refine Triple.ite (fun he => ?_) fun _ => (ih found).weaken (fun s hs => hs.1) fun _ _ h => h
    refine Triple.bind ((changeAt_keeps markItem_uuid).weaken ?_ fun _ _ h => h.1) fun _ => ih true
    rintro s ⟨hs, hitem⟩
    exact ⟨hs, listedOk_of_equals hs hitem (Reservation.equals_iff.mp he).1.symm hr⟩

theorem markReservation_keeps : HeldKeeps T r₀ markReservation (fun _ _ => True) := by
  refine Triple.bind (Triple.get fun s hs => hs) fun s₁ => ?_
  refine Triple.bind (markLoop_keeps _ _) fun found => ?_
  refine Triple.ite (fun _ => Triple.pure fun s hs => hs) fun _ => ?_
  exact (changeThrough_keeps reserve_uuid).weaken (fun s hs => hs.1) fun _ _ h => h

theorem markPreLoop_keeps (l : List Nat) :
    HeldKeeps T r₀ (markPreLoop l) (fun o s => ∀ a, o = some a → ListedOk T a s) := by
  induction l with
  | nil => exact Triple.pure fun s hs => ⟨hs, by rintro a ⟨⟩⟩
  | cons a rest ih =>
    refine Triple.bind deref_keeps fun r => Triple.assume fun hr => ?_
    refine Triple.bind (itemAt_keeps a) fun item => ?_
    refine Triple.ite (fun he => ?_) fun _ => ih.weaken (fun s hs => hs.1) fun _ _ h => h
    refine Triple.bind ((changeAt_keeps preReserve_uuid).weaken ?_ fun _ _ h => h) fun _ => ?_
    · rintro s ⟨hs, hitem⟩
      exact ⟨hs, listedOk_of_equals hs hitem (Reservation.equals_iff.mp he).1.symm hr⟩
    · refine Triple.pure ?_
      rintro s ⟨hs, ha⟩
      refine ⟨hs, ?_⟩
      rintro b ⟨⟩
      exact ha

theorem markPreReservation_keeps : HeldKeeps T r₀ markPreReservation (ListedOk T) := by
  refine Triple.bind (Triple.get fun s hs => hs) fun s₁ => ?_
  refine Triple.bind (markPreLoop_keeps _) fun found => ?_
  cases found with
  | some a => exact Triple.pure fun s hs => ⟨hs.1, hs.2 a rfl⟩
  | none =>
    refine Triple.bind ((changeThrough_keeps preReserve_uuid).weaken (fun s hs => hs.1)
      fun _ _ h => h.1) fun _ => ?_
    exact Triple.bind deref_keeps fun r => Triple.assume fun hr => pushBack_keeps hr

theorem findEqual_listedOk {s : Held} {a : Nat} {r : Reservation} (hs : Held.Inv T r₀ s)
    (h : findEqual s.resources.reservations r = some a) (hr : timestamp r.uuid = T) :
    ListedOk T a s := by
  obtain ⟨e, he, rfl⟩ := Option.map_eq_some_iff.mp h
  have hequals := List.find?_some he
  have hmem := List.mem_of_find?_eq_some he
  exact listedOk_of_equals hs (ReservationList.lookup_of_mem hs.valid.nodup hmem)
    (Reservation.equals_iff.mp hequals).1 hr

/-- Writing through the pointer keeps the addresses of the timestamp where they are. -/
theorem ListedOk.write {s : Held} {a : Nat} {r : Reservation} (ha : ListedOk T a s)
    (hr : timestamp r.uuid = T) : ListedOk T a (s.write r) := by
  obtain ⟨res, pointer⟩ := s
  cases pointer with
  | null => exact ha
  | own x => exact ha
  | listed b =>
    refine ⟨ha.1, ?_⟩
    intro x (hx : (a, x) ∈ ReservationList.update res.reservations b fun _ => r)
    rcases ReservationList.mem_update hx with hx | ⟨y, -, heq⟩
    · exact ha.2 x hx
    · rw [(Prod.mk.inj heq).2]
      exact hr

theorem replenishReservation_keeps :
    HeldKeeps T r₀ replenishReservation (fun _ _ => True) := by
  intro s hs
  simp only [replenishReservation, run_bind, run_get]
  by_cases hempty : s.resources.reservations.isEmpty
  · rw [if_pos hempty]
    exact hs
  rw [if_neg hempty]
  simp only [deref, run_bind]
  rcases hr : s.read with e | r
  · exact hs
  have hts := hs.read hr
  rcases hfind : findEqual s.resources.reservations r with _ | a
  · simp only [hfind]
    exact hs
  simp only [hfind, changeThrough, writeThrough, deref, run_bind, hr]
  rcases hrep : r.replenish with _ | r'
  · exact hs
  have hts' : timestamp r'.uuid = T := by rw [replenish_uuid r r' hrep, hts]
  simp only [require_some, run_pure, hr, run_modify]
  refine ⟨(hs.write hts').erase ?_, trivial⟩
  exact ((findEqual_listedOk hs hfind hts).write hts').2

/-- The lookup of a reservation does not fail. -/
theorem getReservationFor_keeps (r₀ : Resources) (ulid : Ulid) {uuid : UUIDv4}
    (hu : timestamp uuid = T) :
    Triple (Held.Kept T r₀) (getReservationFor ulid uuid)
      (fun p s => Held.Kept T r₀ s ∧ p.Ok T s.resources) (fun _ => False) := by
  intro s hs
  simp only [getReservationFor, run_bind, run_get]
  rcases hf : s.resources.reservations.find? fun e => isSameTimestamp ulid e.2.uuid uuid with _ | e
  · rw [hf]
    exact ⟨hs, trivial⟩
  · have hmem := List.mem_of_find?_eq_some hf
    have hts : timestamp e.2.uuid = T := by
      have := List.find?_some hf
      rw [isSameTimestamp_iff] at this
      rw [this, hu]
    have hall : ∀ x, (e.1, x) ∈ s.resources.reservations → timestamp x.uuid = T := by
      intro x hx
      have h1 := ReservationList.lookup_of_mem hs.valid.nodup hx
      have h2 := ReservationList.lookup_of_mem hs.valid.nodup (a := e.1) (r := e.2) hmem
      rw [h1] at h2
      cases h2
      exact hts
    have hinv : Held.Inv T r₀ ⟨s.resources, .null⟩ := ⟨⟨hs.valid, hs.confined⟩, trivial⟩
    rw [hf]
    by_cases he : e.2.uuid = uuid
    · simp only [he, if_true]
      exact ⟨hs, hs.valid.fresh e hmem, hall⟩
    · simp only [he, if_false]
      have hup := hinv.update hall (f := fun _ => e.2.setUuid uuid) fun _ _ => hu
      refine ⟨⟨hup.valid, hup.confined⟩, hs.valid.fresh e hmem, ?_⟩
      intro x (hx : (e.1, x) ∈
        ReservationList.update s.resources.reservations e.1 fun _ => e.2.setUuid uuid)
      rcases ReservationList.mem_update hx with hx | ⟨y, -, heq⟩
      · exact hall x hx
      · rw [(Prod.mk.inj heq).2]
        exact hu

end Operations

end Rankd

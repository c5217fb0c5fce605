import Rankd.Node.ReplyRun

/-!
# The first reservation of a session

`get_reservation_for` takes the first reservation of a timestamp, so the order of the reservations
of a session matters. `Resources.Leads` says that the reservation at an address is the first of its
session, or gone; it stays true while other sessions are at work and while reservations of the
session are released.

* `findEqual_leads`: the first reservation of a session is the one `replenish_reservation` erases
* `loadReservation_leads`: a round of a handler starts with the first reservation of its session
* `Thread.TimedOut.addresses`: a timeout takes reservations of a session, at most
-/

namespace Rankd

open Infra Prog

/-- The reservation at the address is the first of the session with timestamp `T`, or gone. -/
def Resources.Leads (T a : Nat) (R : Resources) : Prop :=
  a ∈ ReservationList.addresses (ReservationList.session T R.reservations) →
    (ReservationList.addresses (ReservationList.session T R.reservations)).head? = some a

/-- There is no reservation of the session at the address any more. -/
def Resources.Lacks (T a : Nat) (R : Resources) : Prop :=
  a ∉ ReservationList.addresses (ReservationList.session T R.reservations)

section Leading

variable {T T' a b : Nat} {R R' : Resources} {x y : Reservation}

/-- Other sessions do not matter. -/
theorem Resources.Confined.session_eq (hc : Resources.Confined T' R R') (hne : T ≠ T') :
    ReservationList.session T R'.reservations = ReservationList.session T R.reservations :=
  ReservationList.session_of_others hne hc.others

/-- Taking elements away leaves the first one first, or takes it. -/
theorem Resources.Leads.of_filter {p : Nat → Bool}
    (h : ReservationList.addresses (ReservationList.session T R'.reservations) =
      (ReservationList.addresses (ReservationList.session T R.reservations)).filter p)
    (hl : R.Leads T a) : R'.Leads T a := by
  intro hmem
  rw [h] at hmem ⊢
  obtain ⟨hmem, hp⟩ := List.mem_filter.mp hmem
  have hhead := hl hmem
  rcases hs : ReservationList.addresses (ReservationList.session T R.reservations)
    with _ | ⟨c, rest⟩
  · rw [hs] at hhead
    cases hhead
  · rw [hs] at hhead
    cases hhead
    rw [List.filter_cons_of_pos hp]
    rfl

theorem Resources.Lacks.of_filter {p : Nat → Bool}
    (h : ReservationList.addresses (ReservationList.session T R'.reservations) =
      (ReservationList.addresses (ReservationList.session T R.reservations)).filter p)
    (hl : R.Lacks T a) : R'.Lacks T a := by
  rw [Resources.Lacks, h]
  intro hmem
  exact hl (List.mem_filter.mp hmem).1

/-- Editing an element leaves it where it is, in its session. -/
theorem ReservationList.addresses_session_update {l : ReservationList} (hn : (addresses l).Nodup)
    (hl : lookup l a = some x) (he : x.Edited y) :
    addresses (session T (update l a fun _ => y)) = addresses (session T l) := by
  have hsame : ∀ e ∈ l, (decide (timestamp (if e.1 = a then (e.1, y) else e).2.uuid = T)) =
      decide (timestamp e.2.uuid = T) := by
    intro e hmem
    by_cases hea : e.1 = a
    · rw [if_pos hea]
      have hmem' := lookup_of_mem hn (a := e.1) (r := e.2) hmem
      rw [hea, hl] at hmem'
      cases hmem'
      simp only [he.session]
    · rw [if_neg hea]
  rw [session, update, List.filter_map, addresses, List.map_map, session, addresses]
  rw [List.filter_congr (q := fun e => decide (timestamp e.2.uuid = T)) hsame]
  refine List.map_congr_left ?_
  intro e _
  simp only [Function.comp_apply]
  split_ifs
  · rfl
  · rfl

theorem ReservationList.addresses_session_eraseAt (l : ReservationList) :
    addresses (session T (eraseAt l b)) = (addresses (session T l)).filter fun c => c ≠ b := by
  rw [session, eraseAt, List.filter_comm, addresses, addresses, List.filter_map]
  rfl

/-- What `replenish_reservation` leaves of a session. -/
theorem Held.addresses_released {s : Held} (hv : s.resources.Valid) (hx : s.read = .ok x)
    (hy : x.replenish = some y) :
    ReservationList.addresses (ReservationList.session T (s.released b y).resources.reservations) =
      (ReservationList.addresses (ReservationList.session T s.resources.reservations)).filter
        fun c => c ≠ b := by
  obtain ⟨resources, pointer⟩ := s
  rw [Held.released, ReservationList.addresses_session_eraseAt]
  cases pointer with
  | null => cases hx
  | own z => rfl
  | listed a =>
    simp only [Held.read] at hx
    rcases hl : ReservationList.lookup resources.reservations a with _ | z
    · rw [hl] at hx
      cases hx
    · rw [hl] at hx
      cases hx
      rw [Held.write, ReservationList.addresses_session_update hv.nodup hl (.replenish hy)]

theorem find?_of_imp {α : Type} {p q : α → Bool} {l : List α} {e : α}
    (himp : ∀ c ∈ l, p c = true → q c = true) (hq : l.find? q = some e) (hp : p e = true) :
    l.find? p = some e := by
  induction l with
  | nil => cases hq
  | cons c rest ih =>
    by_cases hc : q c = true
    · rw [List.find?_cons_of_pos hc] at hq
      cases hq
      exact List.find?_cons_of_pos hp
    · have hpc : ¬p c = true := fun h => hc (himp c List.mem_cons_self h)
      rw [List.find?_cons_of_neg hc] at hq
      rw [List.find?_cons_of_neg hpc]
      exact ih (fun d hd => himp d (List.mem_cons_of_mem c hd)) hq

/-- The first reservation of a session is the first one that is equal to it. -/
theorem findEqual_leads (hv : R.Valid) (hl : ReservationList.lookup R.reservations a = some x)
    (hx : timestamp x.uuid = T) (hlead : R.Leads T a) : findEqual R.reservations x = some a := by
  have hmem := ReservationList.lookup_mem hl
  have hsession := ReservationList.mem_session.mpr ⟨hmem, hx⟩
  have hhead := hlead (ReservationList.mem_addresses hsession)
  rw [ReservationList.addresses, List.head?_map] at hhead
  obtain ⟨e, he, hea⟩ := Option.map_eq_some_iff.mp hhead
  rw [ReservationList.session, List.head?_filter] at he
  have hex : e = (a, x) := by
    have he' := ReservationList.lookup_of_mem hv.nodup (a := e.1) (r := e.2)
      (List.mem_of_find?_eq_some he)
    rw [hea, hl] at he'
    cases he'
    exact Prod.ext hea rfl
  subst hex
  rw [findEqual, find?_of_imp (p := fun e => e.2.equals x) ?_ he (by simp)]
  · rfl
  · intro c _ hc
    rw [decide_eq_true_eq, (Reservation.equals_iff.mp hc).1, hx]

/-- **A round starts with the first reservation of the session**, if there is one. -/
theorem loadReservation_leads {t : Thread} (env : Env) (hT : timestamp t.self.uuid = T)
    (hv : t.resources.Valid) : ∃ R p, (loadReservation env).run t = (.ok (), t.loaded R p) ∧
      ReservationList.addresses (ReservationList.session T R.reservations) =
        ReservationList.addresses (ReservationList.session T t.resources.reservations) ∧
      (p = .null ∧ ReservationList.session T t.resources.reservations = [] ∨ ∃ a, p = .listed a ∧
        (ReservationList.addresses (ReservationList.session T R.reservations)).head? = some a) := by
  have hpred : (fun e : Nat × Reservation => isSameTimestamp env.ulid e.2.uuid t.self.uuid) =
      fun e => decide (timestamp e.2.uuid = T) := by
    funext e
    rw [Bool.eq_iff_iff, isSameTimestamp_iff, decide_eq_true_eq, hT]
  rcases hf : t.resources.reservations.find?
    (fun e => isSameTimestamp env.ulid e.2.uuid t.self.uuid) with _ | ⟨a, x⟩
  · refine ⟨t.resources, .null, loadReservation_none hf, rfl, Or.inl ⟨rfl, ?_⟩⟩
    rw [hpred, ← List.head?_filter, List.head?_eq_none_iff] at hf
    exact hf
  · have hlookup : ReservationList.lookup t.resources.reservations a = some x :=
      ReservationList.lookup_of_mem hv.nodup (List.mem_of_find?_eq_some hf)
    have hts : timestamp x.uuid = T := by
      have hsame := List.find?_some hf
      rw [← hT]
      exact isSameTimestamp_iff.mp hsame
    have hload := loadReservation_some hv hf
    have hhead : (ReservationList.addresses
        (ReservationList.session T t.resources.reservations)).head? = some a := by
      rw [hpred, ← List.head?_filter] at hf
      rw [ReservationList.addresses, List.head?_map, ReservationList.session, hf]
      rfl
    have hsame := ReservationList.addresses_session_update (T := T) hv.nodup hlookup
      (y := x.setUuid t.self.uuid) (.setUuid (by rw [hT, hts]))
    exact ⟨t.resources.put a (x.setUuid t.self.uuid), .listed a, hload, hsame,
      Or.inr ⟨a, rfl, hsame ▸ hhead⟩⟩

end Leading

/-! ## Timeouts -/

/-- A timeout takes reservations, at most. -/
theorem Thread.TimedOut.addresses {type : TimeoutType} {r : Except Fault Unit} {t t' : Thread}
    (ht : t.TimedOut type r t') (hv : t.resources.Valid) (T : Nat) : ∃ p : Nat → Bool,
      ReservationList.addresses (ReservationList.session T t'.resources.reservations) =
        (ReservationList.addresses
        (ReservationList.session T t.resources.reservations)).filter p := by
  cases ht with
  | idle => exact ⟨fun _ => true, (List.filter_true _).symm⟩
  | failed => exact ⟨fun _ => true, (List.filter_true _).symm⟩
  | released hn hx hy ha =>
    rename_i b x y
    exact ⟨fun c => c ≠ b, Held.addresses_released hv hx hy⟩

theorem Thread.TimedOut.store {type : TimeoutType} {r : Except Fault Unit} {t t' : Thread}
    (ht : t.TimedOut type r t') : t'.store = t.store := by
  cases ht <;> rfl

theorem Thread.TimedOut.uuid {type : TimeoutType} {r : Except Fault Unit} {t t' : Thread}
    (ht : t.TimedOut type r t') : t'.self.uuid = t.self.uuid := by
  cases ht <;> rfl

theorem Thread.TimedOut.auctionWait {type : TimeoutType} {r : Except Fault Unit} {t t' : Thread}
    (ht : t.TimedOut type r t') : t'.self.auctionWait = t.self.auctionWait := by
  cases ht <;> rfl

end Rankd

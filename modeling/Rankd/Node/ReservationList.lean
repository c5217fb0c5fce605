import Rankd.Node.Resources

/-!
# Lists of addressed reservations

How updates, erasures and additions act on the reservations of one timestamp (`session`) and on all
others (`others`).
-/

namespace Rankd

open Infra

namespace ReservationList

variable {l : ReservationList} {a b T : Nat} {f : Reservation → Reservation}

@[simp] theorem addresses_update : addresses (update l a f) = addresses l := by
  simp only [addresses, update, List.map_map]
  refine List.map_congr_left ?_
  intro e _
  by_cases he : e.1 = a <;> simp [he]

@[simp] theorem addresses_append (l m : ReservationList) :
    addresses (l ++ m) = addresses l ++ addresses m := List.map_append

theorem mem_addresses {e : Nat × Reservation} (h : e ∈ l) : e.1 ∈ addresses l :=
  List.mem_map_of_mem h

theorem mem_update {e : Nat × Reservation} (h : e ∈ update l a f) :
    e ∈ l ∨ ∃ r, (a, r) ∈ l ∧ e = (a, f r) := by
  obtain ⟨e₀, he₀, rfl⟩ := List.mem_map.mp h
  by_cases ha : e₀.1 = a
  · refine Or.inr ⟨e₀.2, ?_, ?_⟩
    · rw [← ha]; exact he₀
    · rw [if_pos ha, ha]
  · exact Or.inl (by rw [if_neg ha]; exact he₀)

theorem mem_eraseAt {e : Nat × Reservation} (h : e ∈ eraseAt l a) : e ∈ l :=
  List.mem_of_mem_filter h

theorem lookup_mem {r : Reservation} (h : lookup l a = some r) : (a, r) ∈ l := by
  obtain ⟨e, he, rfl⟩ := Option.map_eq_some_iff.mp h
  have ha : e.1 = a := by simpa using List.find?_some he
  rw [← ha]
  exact List.mem_of_find?_eq_some he

theorem lookup_of_mem {r : Reservation} (hn : (addresses l).Nodup) (h : (a, r) ∈ l) :
    lookup l a = some r := by
  induction l with
  | nil => cases h
  | cons e rest ih =>
    obtain ⟨hhead, htail⟩ := List.nodup_cons.mp hn
    rw [lookup, List.find?_cons]
    rcases List.mem_cons.mp h with rfl | h
    · simp
    · have ha : a ∈ addresses rest := List.mem_map.mpr ⟨(a, r), h, rfl⟩
      have hne : e.1 ≠ a := by
        intro heq
        rw [← heq] at ha
        exact hhead ha
      simp only [hne, decide_false]
      exact ih htail h

theorem lookup_update {x : Reservation} (h : lookup l a = some x) :
    lookup (update l a f) a = some (f x) := by
  induction l with
  | nil => cases h
  | cons e rest ih =>
    simp only [lookup, update, List.map_cons, List.find?_cons] at h ih ⊢
    by_cases ha : e.1 = a
    · simp only [ha, if_true, decide_true, Option.map_some, Option.some.injEq] at h ⊢
      rw [h]
    · simp only [ha, if_false, decide_false] at h ⊢
      exact ih h

theorem lookup_update_ne {b : Nat} (hne : b ≠ a) : lookup (update l a f) b = lookup l b := by
  induction l with
  | nil => rfl
  | cons e rest ih =>
    simp only [lookup, update, List.map_cons, List.find?_cons] at ih ⊢
    by_cases ha : e.1 = a
    · have hb : ¬e.1 = b := fun hb => hne (hb.symm.trans ha)
      simp only [if_pos ha, hb, decide_false]
      exact ih
    · simp only [ha, if_false]
      by_cases hb : e.1 = b
      · simp only [hb, decide_true]
      · simp only [hb, decide_false]
        exact ih

theorem lookup_append {m : ReservationList} {x : Reservation} (h : lookup l a = some x) :
    lookup (l ++ m) a = some x := by
  obtain ⟨e, he, hx⟩ := Option.map_eq_some_iff.mp h
  rw [lookup, List.find?_append, he]
  exact congrArg some hx

theorem lookup_eraseAt {b : Nat} : lookup (eraseAt l b) a = if a = b then none else lookup l a := by
  rw [lookup, eraseAt, List.find?_filter]
  split_ifs with hab
  · rw [Option.map_eq_none_iff, List.find?_eq_none]
    intro e _
    simp [hab]
  · rw [lookup]
    congr 2
    funext e
    by_cases ha : e.1 = a
    · simp [ha, hab]
    · simp [ha]

/-! ## Sessions and others -/

theorem mem_session {e : Nat × Reservation} : e ∈ session T l ↔ e ∈ l ∧ timestamp e.2.uuid = T := by
  simp [session]

theorem mem_others {e : Nat × Reservation} : e ∈ others T l ↔ e ∈ l ∧ timestamp e.2.uuid ≠ T := by
  simp [others]

theorem others_update (h : ∀ r, (a, r) ∈ l → timestamp r.uuid = T)
    (hf : ∀ r, (a, r) ∈ l → timestamp (f r).uuid = T) : others T (update l a f) = others T l := by
  induction l with
  | nil => rfl
  | cons e rest ih =>
    have ih' := ih (fun r hr => h r (List.mem_cons_of_mem e hr))
      (fun r hr => hf r (List.mem_cons_of_mem e hr))
    simp only [others, update, List.map_cons, List.filter_cons] at ih' ⊢
    by_cases ha : e.1 = a
    · have hmem : (a, e.2) ∈ e :: rest := by rw [← ha]; exact List.mem_cons_self
      simp only [ha, if_true, h e.2 hmem, hf e.2 hmem, ne_eq, not_true, decide_false,
        Bool.false_eq_true, if_false]
      exact ih'
    · simp only [ha, if_false, ih']

theorem others_append_session {r : Reservation} (h : timestamp r.uuid = T) :
    others T (l ++ [(a, r)]) = others T l := by
  simp [others, h]

theorem others_eraseAt (h : ∀ r, (a, r) ∈ l → timestamp r.uuid = T) :
    others T (eraseAt l a) = others T l := by
  rw [others, eraseAt, List.filter_filter]
  refine List.filter_congr ?_
  rintro ⟨b, r⟩ hr
  by_cases hb : b = a
  · subst hb
    simp [h r hr]
  · simp [hb]

/-- The reservations of one timestamp are among the others of another. -/
theorem session_of_others {T' : Nat} {l' : ReservationList} (hne : T' ≠ T)
    (h : others T l' = others T l) :
    session T' l' = session T' l := by
  have hfilter : ∀ m : ReservationList,
      session T' (others T m) = session T' m := by
    intro m
    rw [session, others, List.filter_filter]
    refine List.filter_congr ?_
    intro e _
    by_cases he : timestamp e.2.uuid = T'
    · simp [he, hne]
    · simp [he]
  rw [← hfilter l', h, hfilter l]

end ReservationList

/-! ## Valid resources and pointers -/

/-- The addresses of the list are different from each other and below the next free one. -/
structure Resources.Valid (r : Resources) : Prop where
  nodup : (ReservationList.addresses r.reservations).Nodup
  fresh : ∀ e ∈ r.reservations, e.1 < r.nextAddress

/-- A reservation is appended at the next free address. -/
theorem Resources.Valid.append {R : Resources} (hv : R.Valid) (x : Reservation) :
    Resources.Valid
      { reservations := R.reservations ++ [(R.nextAddress, x)]
        nextAddress := R.nextAddress + 1 } where
  nodup := by
    rw [ReservationList.addresses_append]
    refine List.nodup_append.mpr ⟨hv.nodup, by simp [ReservationList.addresses], ?_⟩
    intro b hb c hc
    obtain ⟨e, he, rfl⟩ := List.mem_map.mp hb
    have hlt := hv.fresh e he
    simp only [ReservationList.addresses, List.map_cons, List.map_nil, List.mem_singleton] at hc
    omega
  fresh := by
    intro e he
    rcases List.mem_append.mp he with he | he
    · exact Nat.lt_succ_of_lt (hv.fresh e he)
    · rw [List.mem_singleton.mp he]
      exact Nat.lt_succ_self _

/-- A pointer of a handler of the timestamp `T`: what it points to is of that timestamp. -/
def ReservationPtr.Ok (T : Nat) (r : Resources) : ReservationPtr → Prop
  | .null => True
  | .listed a => a < r.nextAddress ∧ ∀ x, (a, x) ∈ r.reservations → timestamp x.uuid = T
  | .own x => timestamp x.uuid = T

/--
What an operation for the timestamp `T` may do to the list: the other reservations stay as they are,
and those of `T` stay where they are or come from new addresses.
-/
structure Resources.Confined (T : Nat) (r₀ r : Resources) : Prop where
  others : ReservationList.others T r.reservations = ReservationList.others T r₀.reservations
  next : r₀.nextAddress ≤ r.nextAddress
  address : ∀ a x, (a, x) ∈ r.reservations → timestamp x.uuid = T →
    (∃ x₀, (a, x₀) ∈ r₀.reservations ∧ timestamp x₀.uuid = T) ∨ r₀.nextAddress ≤ a

theorem Resources.Confined.refl (T : Nat) (r : Resources) : Resources.Confined T r r where
  others := rfl
  next := Nat.le_refl _
  address _ x hx ht := Or.inl ⟨x, hx, ht⟩

theorem Resources.Confined.trans {T : Nat} {r₀ r₁ r₂ : Resources} (h₁ : Resources.Confined T r₀ r₁)
    (h₂ : Resources.Confined T r₁ r₂) : Resources.Confined T r₀ r₂ where
  others := h₂.others.trans h₁.others
  next := Nat.le_trans h₁.next h₂.next
  address a x hx ht := by
    rcases h₂.address a x hx ht with ⟨x₁, hx₁, ht₁⟩ | h
    · exact h₁.address a x₁ hx₁ ht₁
    · exact Or.inr (Nat.le_trans h₁.next h)

/-- The pointers of all sessions stay valid. -/
theorem ReservationPtr.Ok.of_confined {T T' : Nat} {r₀ r : Resources} {p : ReservationPtr}
    (hp : p.Ok T' r₀) (hc : Resources.Confined T r₀ r) : p.Ok T' r := by
  cases p with
  | null => trivial
  | own x => exact hp
  | listed a =>
    obtain ⟨hlt, hts⟩ := hp
    refine ⟨Nat.lt_of_lt_of_le hlt hc.next, ?_⟩
    intro x hx
    by_cases ht : timestamp x.uuid = T
    · rcases hc.address a x hx ht with ⟨x₀, hx₀, ht₀⟩ | hle
      · rw [ht, ← ht₀]
        exact hts x₀ hx₀
      · exact absurd hlt (Nat.not_lt.mpr hle)
    · have hmem : (a, x) ∈ ReservationList.others T r.reservations :=
        ReservationList.mem_others.mpr ⟨hx, ht⟩
      rw [hc.others] at hmem
      exact hts x (ReservationList.mem_others.mp hmem).1

end Rankd

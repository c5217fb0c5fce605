import Rankd.Node.Capabilities

/-!
# Requested capabilities

* `operator==` looks at the number of items and at seven of the ten kinds, and never at a value
  (`capabilities_equality_iff`)
* the items by kind and by place drift apart when a kind occurs at two places, and moving an item
  overwrites the one at its new place (`capabilities_views_iff`)
-/

namespace Rankd

open Infra

namespace Capabilities

/-! ## Equality -/

section Equality

variable {α : Type}

/-- The same kinds with the same values. -/
def SameItems (c d : Capabilities α) : Prop := ∀ kind, c.items.find? kind = d.items.find? kind

/-- What is expected of `operator==`. -/
structure EqualityAt (a b c : Capabilities α) : Prop where
  refl : a.equals a = true
  symm : a.equals b = true → b.equals a = true
  trans : a.equals b = true → b.equals c = true → a.equals c = true
  same : a.equals b = true → a.SameItems b

/-- Different numbers of items, or a kind of the left side that is compared and not on the right. -/
def Distinguished (c d : Capabilities α) : Prop :=
  c.items.entries.length ≠ d.items.entries.length ∨
    ∃ kind ∈ c.items.keys, kind.compared = true ∧ kind ∉ d.items.keys

theorem equals_or_distinguished (c d : Capabilities α) :
    c.equals d = true ↔ ¬c.Distinguished d := by
  rw [equals_iff, Distinguished]
  simp only [not_or, not_exists, not_and, not_not, ne_eq]

theorem SameItems.eq {c d : Capabilities α} (h : c.SameItems d) : c = d := by
  obtain ⟨items⟩ := c
  obtain ⟨items'⟩ := d
  exact congrArg mk (OrdMap.ext_find? h)

theorem equalityAt_iff (a b c : Capabilities α) :
    EqualityAt a b c ↔ a.SameItems b ∨ a.Distinguished b := by
  constructor
  · intro h
    by_cases hd : a.Distinguished b
    · exact Or.inr hd
    · exact Or.inl (h.same ((equals_or_distinguished a b).mpr hd))
  · intro h
    have hsame : a.equals b = true → a.SameItems b := fun heq =>
      h.resolve_right ((equals_or_distinguished a b).mp heq)
    refine ⟨equals_refl a, fun heq => ?_, equals_trans, hsame⟩
    rw [(hsame heq).eq]
    exact equals_refl b

end Equality

/-- The requests that two reservations make. -/
theorem reservation_equals_iff {r s : Reservation} {a b : Requesting Any}
    (hr : r.requirements = a.lists) (hs : s.requirements = b.lists) :
    r.equals s = true ↔ r.uuid = s.uuid ∧ r.state = s.state ∧
      a.toCapabilities.equals b.toCapabilities = true := by
  rw [Reservation.equals_iff, hr, hs, Requesting.equals_lists]

end Capabilities

/--
**When `operator==` is an equality.** Two different requests have to differ in the number of items,
or the left one has an item of a kind that is compared and that the right one lacks.
-/
theorem capabilities_equality_iff {α : Type} (a b c : Capabilities α) {r s : Reservation}
    {x y : Capabilities.Requesting Any} (hr : r.requirements = x.lists)
    (hs : s.requirements = y.lists) :
    (Capabilities.EqualityAt a b c ↔ a.SameItems b ∨ a.Distinguished b) ∧
      ((r.equals s = true → x.SameItems y.toCapabilities) ↔
        r.uuid ≠ s.uuid ∨ r.state ≠ s.state ∨
          x.SameItems y.toCapabilities ∨ x.Distinguished y.toCapabilities) := by
  refine ⟨Capabilities.equalityAt_iff a b c, ?_⟩
  rw [Capabilities.reservation_equals_iff hr hs, Capabilities.equals_or_distinguished]
  constructor
  · intro h
    by_cases hcond : r.uuid = s.uuid ∧ r.state = s.state ∧ ¬x.Distinguished y.toCapabilities
    · exact Or.inr (Or.inr (Or.inl (h hcond)))
    · grind
  · rintro (h | h | h | h) ⟨huuid, hstate, hd⟩
    · exact absurd huuid h
    · exact absurd hstate h
    · exact h
    · exact absurd h hd

/-- One item. -/
def Capabilities.single (item : CapabilityItemType × Any) : Capabilities Any :=
  (Capabilities.mk ∅).addItem item

def Capabilities.Requesting.single (item : CapabilityItemType × Any) :
    Capabilities.Requesting Any :=
  Capabilities.Requesting.empty.addItem item 0

/-- Requests of cores and of memory are told apart. -/
theorem capabilities_equality_iff_kinds :
    Capabilities.EqualityAt (Capabilities.single (.compCpu, some 1))
      (Capabilities.single (.compMemory, some 1)) (Capabilities.single (.compCpu, some 1)) ∧
    ((Reservation.new (Capabilities.Requesting.single (.compCpu, some 1)).lists 0).equals
        (Reservation.new (Capabilities.Requesting.single (.compMemory, some 1)).lists 0) = true →
      (Capabilities.Requesting.single (.compCpu, some 1)).SameItems
        (Capabilities.Requesting.single (.compMemory, some 1)).toCapabilities) := by
  have hd : (Capabilities.single (.compCpu, some 1)).Distinguished
      (Capabilities.single (.compMemory, some 1)) :=
    Or.inr ⟨.compCpu, by decide, rfl, by decide⟩
  have hiff := capabilities_equality_iff (Capabilities.single (.compCpu, some 1))
    (Capabilities.single (.compMemory, some 1)) (Capabilities.single (.compCpu, some 1))
    (r := Reservation.new (Capabilities.Requesting.single (.compCpu, some 1)).lists 0)
    (s := Reservation.new (Capabilities.Requesting.single (.compMemory, some 1)).lists 0) rfl rfl
  exact ⟨hiff.1.mpr (Or.inr hd), hiff.2.mpr (Or.inr (Or.inr (Or.inr hd)))⟩

/-- Requests of one core and of two cores. -/
theorem capabilities_equality_ignores_values :
    ¬∀ a b c : Capabilities Any, Capabilities.EqualityAt a b c := by
  intro h
  have heq : (Capabilities.single (.compCpu, some 1)).equals
      (Capabilities.single (.compCpu, some 2)) = true :=
    Capabilities.equals_iff.mpr ⟨rfl, fun _ hk _ => hk⟩
  have hsame := (h _ _ (Capabilities.single (.compCpu, some 1))).same heq .compCpu
  simp [Capabilities.single, Capabilities.addItem] at hsame

/-- A kind that is not compared is equal to any other, and not the other way round. -/
example :
    (Capabilities.single (.time, none)).equals (Capabilities.single (.unspecified, none)) = true ∧
    (Capabilities.single (.unspecified, none)).equals
    (Capabilities.single (.time, none)) = false := by
  decide

/-! ## The two views -/

namespace Capabilities

variable {α : Type}

/-- The calls that change a request. -/
inductive Call (α : Type)
  | addItem (item : CapabilityItemType × α) (place : UInt8)
  | removeItem (place : UInt8)
  | upgradeItem (place toPlace : UInt8)
  | downgradeItem (place toPlace : UInt8)

namespace Requesting

def run (c : Requesting α) : Call α → Except Fault Unit × Requesting α
  | .addItem item place => (.ok (), c.addItem item place)
  | .removeItem place => c.removeItem place
  | .upgradeItem place toPlace => c.upgradeItem place toPlace
  | .downgradeItem place toPlace => c.downgradeItem place toPlace

/-- The kinds of `items` are those of `ordered_items`. -/
def Consistent (c : Requesting α) : Prop :=
  ∀ kind, kind ∈ c.items.keys ↔ ∃ place item, c.orderedItems.find? place = some item ∧ item.1 = kind

/-- The items of `ordered_items`, in the order of their places. -/
def placed (c : Requesting α) : List (CapabilityItemType × α) := c.orderedItems.entries.map (·.2)

/-- Moving an item keeps all items, or throws and changes nothing. -/
def KeepsItems (c : Requesting α) (result : Except Fault Unit × Requesting α) : Prop :=
  result.2.placed.Perm c.placed ∨ result = (.error .outOfRange, c)

/-- What is expected of a call. -/
structure RunsWell (c : Requesting α) (call : Call α) : Prop where
  consistent : (c.run call).2.Consistent
  kept : ∀ place toPlace, call = .upgradeItem place toPlace ∨ call = .downgradeItem place toPlace →
    c.KeepsItems (c.run call)

/--
The calls that keep the views consistent: adding to a free place, or an item of a kind that is
there; removing the only item of its kind; moving an item that is not there or to a free
place, which throws.
-/
def Harmless (c : Requesting α) : Call α → Prop
  | .addItem item place => place ∉ c.orderedItems.keys ∨ item.1 ∈ c.items.keys
  | .removeItem place => ∀ item, c.orderedItems.find? place = some item →
      ∀ other item', c.orderedItems.find? other = some item' → item'.1 = item.1 → other = place
  | .upgradeItem place toPlace | .downgradeItem place toPlace =>
      place ∉ c.orderedItems.keys ∨ toPlace ∉ c.orderedItems.keys

/-- All calls of a run satisfy `P` in the state they are made in. -/
def Along (P : Requesting α → Call α → Prop) : Requesting α → List (Call α) → Prop
  | _, [] => True
  | c, call :: rest => P c call ∧ Along P (c.run call).2 rest

section Views

variable {c : Requesting α} {item : CapabilityItemType × α} {place toPlace : UInt8}

theorem find?_eq_none_iff : c.orderedItems.find? place = none ↔ place ∉ c.orderedItems.keys := by
  rw [← OrdMap.contains_eq_false, ← OrdMap.contains_iff_mem, Bool.not_eq_true]

theorem addItem_consistent_iff (h : c.Consistent) :
    (c.addItem item place).Consistent ↔ c.Harmless (.addItem item place) := by
  have hkinds : ∀ kind, kind ∈ (c.addItem item place).items.keys ↔
      kind = item.1 ∨ kind ∈ c.items.keys := by
    intro kind
    simp only [addItem, Capabilities.addItem, OrdMap.mem_keys, OrdMap.find?_insertNew]
    by_cases hk : kind = item.1 <;> simp [hk]
  by_cases hplace : place ∈ c.orderedItems.keys
  · -- Nothing is added to the places, so the kind must have been there.
    have hsame : (c.addItem item place).orderedItems = c.orderedItems :=
      if_pos (OrdMap.contains_iff_mem.mpr hplace)
    have hharmless : c.Harmless (.addItem item place) ↔ item.1 ∈ c.items.keys := by
      simp [Harmless, hplace]
    rw [hharmless]
    constructor
    · intro h'
      have hitem := (h' item.1).mp ((hkinds item.1).mpr (Or.inl rfl))
      rw [hsame] at hitem
      exact (h item.1).mpr hitem
    · intro hmem kind
      rw [hkinds, hsame, ← h kind]
      exact or_iff_right_of_imp fun hk => hk ▸ hmem
  · refine iff_of_true (fun kind => ?_) (Or.inl hplace)
    have hnone := find?_eq_none_iff.mpr hplace
    rw [hkinds, h kind]
    simp only [addItem, OrdMap.find?_insertNew, hnone, Option.getD_none]
    constructor
    · rintro (rfl | ⟨other, item', hother, rfl⟩)
      · exact ⟨place, item, if_pos rfl, rfl⟩
      · have hne : other ≠ place := by
          rintro rfl
          rw [hnone] at hother
          cases hother
        exact ⟨other, item', by rw [if_neg hne, hother], rfl⟩
    · rintro ⟨other, item', hother, rfl⟩
      split_ifs at hother
      · cases hother
        exact Or.inl rfl
      · exact Or.inr ⟨other, item', hother, rfl⟩

theorem removeItem_consistent_iff (h : c.Consistent) :
    (c.removeItem place).2.Consistent ↔ c.Harmless (.removeItem place) := by
  rcases hplace : c.orderedItems.find? place with _ | item
  · simp [removeItem, Harmless, hplace, h]
  · have hkinds : ∀ kind, kind ∈ (c.removeItem place).2.items.keys ↔
        kind ≠ item.1 ∧ kind ∈ c.items.keys := by
      intro kind
      simp only [removeItem, hplace, Capabilities.removeItem, OrdMap.mem_keys, OrdMap.find?_erase]
      by_cases hk : kind = item.1 <;> simp [hk]
    have hordered : (c.removeItem place).2.orderedItems = c.orderedItems.erase place := by
      simp only [removeItem, hplace]
    simp only [Consistent, Harmless, hkinds, hordered, OrdMap.find?_erase, hplace,
      Option.some.injEq, forall_eq']
    constructor
    · -- An item of the kind at another place would be without its kind.
      intro h' other item' hother hkind
      by_contra hne
      exact ((h' item.1).mpr ⟨other, item', by rw [if_neg hne, hother], hkind⟩).1 rfl
    · intro honly kind
      rw [h kind]
      constructor
      · rintro ⟨hne, other, item', hother, rfl⟩
        have hplace' : other ≠ place := by
          rintro rfl
          rw [hplace] at hother
          cases hother
          exact hne rfl
        exact ⟨other, item', by rw [if_neg hplace', hother], rfl⟩
      · rintro ⟨other, item', hother, rfl⟩
        split_ifs at hother with hne
        exact ⟨fun hkind => hne (honly other item' hother hkind), other, item', hother, rfl⟩

theorem moveItem_throws (h : place ∉ c.orderedItems.keys ∨ toPlace ∉ c.orderedItems.keys) :
    c.moveItem place toPlace = (.error .outOfRange, c) := by
  unfold moveItem
  rcases h with h | h
  · rw [find?_eq_none_iff.mpr h]
  · rw [find?_eq_none_iff.mpr h]
    cases c.orderedItems.find? place <;> rfl

/-- An item that is moved replaces the one at its new place, so one item less is left. -/
theorem moveItem_keeps_iff :
    c.KeepsItems (c.moveItem place toPlace) ↔
      place ∉ c.orderedItems.keys ∨ toPlace ∉ c.orderedItems.keys := by
  refine ⟨fun h => ?_, fun h => Or.inr (moveItem_throws h)⟩
  by_contra hboth
  rw [not_or, not_not, not_not] at hboth
  obtain ⟨hplace, hto⟩ := hboth
  obtain ⟨item, hitem⟩ := OrdMap.mem_keys.mp hplace
  obtain ⟨old, hold⟩ := OrdMap.mem_keys.mp hto
  have hrun : c.moveItem place toPlace =
      (.ok (), { c with orderedItems := (c.orderedItems.assign toPlace item).erase place }) := by
    simp only [moveItem, hitem, hold]
  rw [hrun] at h
  rcases h with h | h
  · have hthere : place ∈ (c.orderedItems.assign toPlace item).keys := by
      rw [OrdMap.mem_keys, OrdMap.find?_assign]
      by_cases heq : place = toPlace
      · exact ⟨item, if_pos heq⟩
      · exact ⟨item, by rw [if_neg heq, hitem]⟩
    have hlength := h.length_eq
    simp only [placed, List.length_map] at hlength
    have herase := OrdMap.length_erase hthere
    rw [hlength, OrdMap.length_assign item hto] at herase
    exact lt_irrefl _ herase
  · cases h

/-- One call. -/
theorem runsWell_iff (h : c.Consistent) (call : Call α) : c.RunsWell call ↔ c.Harmless call := by
  cases call with
  | addItem item place =>
    refine ⟨fun hrun => (addItem_consistent_iff h).mp hrun.consistent, fun hharmless => ?_⟩
    exact ⟨(addItem_consistent_iff h).mpr hharmless, by rintro _ _ (h | h) <;> cases h⟩
  | removeItem place =>
    refine ⟨fun hrun => (removeItem_consistent_iff h).mp hrun.consistent, fun hharmless => ?_⟩
    exact ⟨(removeItem_consistent_iff h).mpr hharmless, by rintro _ _ (h | h) <;> cases h⟩
  | upgradeItem place toPlace =>
    refine ⟨fun hrun => moveItem_keeps_iff.mp (hrun.kept place toPlace (Or.inl rfl)), ?_⟩
    intro hharmless
    have hrun : c.run (.upgradeItem place toPlace) = (.error .outOfRange, c) :=
      moveItem_throws hharmless
    exact ⟨by rw [hrun]; exact h, fun _ _ _ => Or.inr hrun⟩
  | downgradeItem place toPlace =>
    refine ⟨fun hrun => moveItem_keeps_iff.mp (hrun.kept place toPlace (Or.inr rfl)), ?_⟩
    intro hharmless
    have hrun : c.run (.downgradeItem place toPlace) = (.error .outOfRange, c) :=
      moveItem_throws hharmless
    exact ⟨by rw [hrun]; exact h, fun _ _ _ => Or.inr hrun⟩

/-- A whole run. -/
theorem along_runsWell_iff (h : c.Consistent) (calls : List (Call α)) :
    Along RunsWell c calls ↔ Along Harmless c calls := by
  induction calls generalizing c with
  | nil => exact Iff.rfl
  | cons call rest ih =>
    simp only [Along]
    rw [runsWell_iff h call]
    refine and_congr_right fun hharmless => ih ?_
    exact ((runsWell_iff h call).mpr hharmless).consistent

end Views

end Requesting

end Capabilities

/--
**When the two views of a request stay consistent**, and no item is lost: along every run from an
empty request, exactly while all calls are harmless.
-/
theorem capabilities_views_iff {α : Type} (calls : List (Capabilities.Call α)) :
    Capabilities.Requesting.Along Capabilities.Requesting.RunsWell .empty calls ↔
      Capabilities.Requesting.Along Capabilities.Requesting.Harmless .empty calls :=
  Capabilities.Requesting.along_runsWell_iff (fun kind => by
    simp [Capabilities.Requesting.empty]) calls

/-- Two items of a kind, one of which is removed. -/
theorem capabilities_views_drift : ¬∀ calls : List (Capabilities.Call Any),
    Capabilities.Requesting.Along Capabilities.Requesting.RunsWell .empty calls := by
  intro h
  obtain ⟨-, -, hremove, -⟩ := h [.addItem (.compCpu, some 1) 0, .addItem (.compCpu, some 2) 1,
    .removeItem 0]
  have hkind := (hremove.consistent .compCpu).mpr ⟨1, (.compCpu, some 2), rfl, rfl⟩
  revert hkind
  decide

end Rankd

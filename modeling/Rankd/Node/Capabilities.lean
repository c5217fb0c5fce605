import Rankd.Infra.OrdMap
import Rankd.Node.Requirements

/-!
# Capabilities

`structs/capabilities.cpp` and `structs/requesting_capabilities.cpp`, over any type of values.

The items of a request are stored twice, by kind (`Capabilities`) and by place
(`Capabilities.Requesting`). `RequestingCapabilities` is the same pair of maps as lists, with the
values of this program (`Capabilities.Requesting.lists`).
-/

namespace Rankd

open Infra

/-! ## Kinds -/

theorem CapabilityItemType.value_injective : Function.Injective CapabilityItemType.value := by
  intro x y h
  cases x <;> cases y <;> first | rfl | (revert h; decide +kernel)

/-- Kinds are compared by their underlying values. -/
instance : LinearOrder CapabilityItemType :=
  LinearOrder.lift' (fun type => type.value.toNat) fun _ _ h =>
    CapabilityItemType.value_injective (BitVec.eq_of_toNat_eq h)

theorem CapabilityItemType.lt_iff {x y : CapabilityItemType} :
    x < y ↔ x.value.toNat < y.value.toNat := Iff.rfl

/-! ## Items by kind -/

structure Capabilities (α : Type) where
  items : OrdMap CapabilityItemType α

namespace Capabilities

variable {α : Type}

def addItem (item : CapabilityItemType × α) (c : Capabilities α) : Capabilities α :=
  ⟨c.items.insertNew item.1 item.2⟩

def removeItem (item : CapabilityItemType × α) (c : Capabilities α) : Capabilities α :=
  ⟨c.items.erase item.1⟩

/-- `operator==`. -/
def equals (c d : Capabilities α) : Bool :=
  c.items.entries.length == d.items.entries.length &&
    c.items.entries.all fun item => !item.1.compared || d.items.contains item.1

theorem equals_iff {c d : Capabilities α} : c.equals d = true ↔
    c.items.entries.length = d.items.entries.length ∧
      ∀ kind ∈ c.items.keys, kind.compared = true → kind ∈ d.items.keys := by
  simp [equals, OrdMap.keys, OrdMap.contains_iff_mem, or_iff_not_imp_left]

@[simp] theorem equals_refl (c : Capabilities α) : c.equals c = true :=
  equals_iff.mpr ⟨rfl, fun _ hk _ => hk⟩

theorem equals_trans {c d e : Capabilities α} (hcd : c.equals d = true) (hde : d.equals e = true) :
    c.equals e = true := by
  obtain ⟨hlength, hkinds⟩ := equals_iff.mp hcd
  obtain ⟨hlength', hkinds'⟩ := equals_iff.mp hde
  exact equals_iff.mpr ⟨hlength.trans hlength', fun k hk hc => hkinds' k (hkinds k hk hc) hc⟩

/-! ## Items by place -/

/-- `RequestingCapabilities`, which is derived from `Capabilities`. -/
structure Requesting (α : Type) extends Capabilities α where
  orderedItems : OrdMap UInt8 (CapabilityItemType × α)

namespace Requesting

def empty : Requesting α := ⟨⟨∅⟩, ∅⟩

def addItem (item : CapabilityItemType × α) (place : UInt8) (c : Requesting α) : Requesting α where
  toCapabilities := c.toCapabilities.addItem item
  orderedItems := c.orderedItems.insertNew place item

/-- `upgrade_item` and `downgrade_item`, which have the same body: `at` throws for a free place. -/
def moveItem (place toPlace : UInt8) (c : Requesting α) : Except Fault Unit × Requesting α :=
  match c.orderedItems.find? place, c.orderedItems.find? toPlace with
  | some item, some _ =>
    (.ok (), { c with orderedItems := (c.orderedItems.assign toPlace item).erase place })
  | _, _ => (.error .outOfRange, c)

def downgradeItem (place toPlace : UInt8) (c : Requesting α) : Except Fault Unit × Requesting α :=
  c.moveItem place toPlace

def upgradeItem (place toPlace : UInt8) (c : Requesting α) : Except Fault Unit × Requesting α :=
  c.moveItem place toPlace

def removeItem (place : UInt8) (c : Requesting α) : Except Fault Unit × Requesting α :=
  match c.orderedItems.find? place with
  | some item =>
    (.ok (), ⟨c.toCapabilities.removeItem item, c.orderedItems.erase place⟩)
  | none => (.error .outOfRange, c)

end Requesting

/-! ## The same as lists -/

def Requesting.lists (c : Requesting Any) : RequestingCapabilities :=
  ⟨c.items.entries, c.orderedItems.entries⟩

section Lists

variable {κ β : Type} [LinearOrder κ] {rank : κ → Nat}

theorem mapInsert_eq_ite (hrank : ∀ j k, rank j < rank k ↔ j < k) (k : κ) (b : β)
    {l : List (κ × β)} (hl : l.Pairwise (fun e f => e.1 < f.1)) :
    mapInsert rank k b l = if k ∈ l.map (·.1) then l else OrdMap.assignEntries k b l := by
  have heq : ∀ j, rank k = rank j ↔ k = j := by
    intro j
    refine ⟨fun h => ?_, fun h => by rw [h]⟩
    by_contra hne
    rcases lt_or_gt_of_ne hne with hlt | hlt
    · exact absurd ((hrank k j).mpr hlt) (by omega)
    · exact absurd ((hrank j k).mpr hlt) (by omega)
  induction l with
  | nil => rfl
  | cons e rest ih =>
    obtain ⟨hhead, htail⟩ := List.pairwise_cons.mp hl
    simp only [mapInsert, OrdMap.assignEntries, hrank, heq, ih htail, List.map_cons, List.mem_cons]
    by_cases hlt : k < e.1
    · have hnot : ¬(k = e.1 ∨ k ∈ rest.map (·.1)) := by
        rintro (h | h)
        · exact absurd hlt (by simp [h])
        · obtain ⟨f, hf, rfl⟩ := List.mem_map.mp h
          exact absurd (hhead f hf) (lt_asymm hlt)
      rw [if_pos hlt, if_neg hnot, if_pos hlt]
    · by_cases hk : k = e.1
      · rw [if_neg hlt, if_pos hk, if_pos (Or.inl hk)]
      · rw [if_neg hlt, if_neg hk, if_neg hlt, if_neg hk]
        by_cases hmem : k ∈ rest.map (·.1) <;> simp [hmem, hk]

/-- `insert` on the entries. -/
theorem mapInsert_entries (hrank : ∀ j k, rank j < rank k ↔ j < k) (k : κ) (b : β)
    (m : OrdMap κ β) : mapInsert rank k b m.entries = (m.insertNew k b).entries := by
  rw [mapInsert_eq_ite hrank k b m.sorted, OrdMap.insertNew]
  by_cases hc : k ∈ m.entries.map (·.1)
  · rw [if_pos (OrdMap.contains_iff_mem.mpr hc), if_pos hc]
  · rw [if_neg (fun h => hc (OrdMap.contains_iff_mem.mp h)), if_neg hc]
    rfl

end Lists

theorem Requesting.lists_addItem (item : CapabilityItemType × Any) (place : UInt8)
    (c : Requesting Any) : (c.addItem item place).lists = c.lists.addItem item place := by
  have hkinds := mapInsert_entries (fun j k => CapabilityItemType.lt_iff.symm) item.1 item.2 c.items
  have hplaces :=
    mapInsert_entries (fun j k => UInt8.lt_iff_toNat_lt.symm) place item c.orderedItems
  simp only [lists, addItem, Capabilities.addItem, RequestingCapabilities.addItem, hkinds, hplaces]

theorem Requesting.equals_lists (c d : Requesting Any) :
    c.lists.equals d.lists = c.toCapabilities.equals d.toCapabilities := by
  have hcontains : ∀ kind, d.items.contains kind = d.items.entries.any (·.1 == kind) := by
    intro kind
    rw [Bool.eq_iff_iff, OrdMap.contains_iff_mem]
    simp [OrdMap.keys]
  simp only [lists, RequestingCapabilities.equals, equals, hcontains]

end Capabilities

end Rankd

import Rankd.Properties.Hops

/-!
# The requirements of a document

A document is accepted with three kinds of items, in any number. Its requirements are those of the
`cpu_cores` items alone, one for each of 256 places. So all of its items become requirements, in
their order, if and only if there are at most 256 and all ask for cores
(`requirements_complete_iff`).
-/

namespace Rankd

open Infra

/-- The kind of capability that a request is for. -/
def RequestTypes.kind : RequestTypes → CapabilityItemType
  | .cpuRequest => .compCpu
  | .memoryRequest => .compMemory
  | .interfaceRequest => .netBandwidth
  | .unknown => .unspecified

/-- The kind and the value of an item. -/
def Json.asked? (item : Json) : Option (CapabilityItemType × Any) :=
  match item.findMember "requirement" with
  | .ok (some (.object ((name, value) :: _))) =>
    match value.getUint with
    | .ok n => some ((typify name).kind, some ⟨n⟩)
    | .error _ => none
  | _ => none

theorem typify_kind_eq_compCpu {name : String} :
    (typify name).kind = .compCpu ↔ name = "cpu_cores" := by
  unfold typify
  constructor
  · intro h
    split_ifs at h with hcpu
    · exact hcpu
    all_goals cases h
  · rintro rfl
    rfl

/-- An item asks for cores in the one sense if and only if it does in the other. -/
theorem Json.asked?_eq_compCpu {item : Json} {cores : UInt32} :
    item.asked? = some (.compCpu, some cores) ↔ item.cpuCores? = some cores := by
  unfold asked? cpuCores?
  generalize item.findMember "requirement" = found
  split
  · rename_i name value others
    by_cases hname : name = "cpu_cores"
    · subst hname
      have hkind : (typify "cpu_cores").kind = .compCpu := typify_kind_eq_compCpu.mpr rfl
      rcases hread : value.getUint with _ | n
      · simp_all
      · simp_all
    · have hkind : (typify name).kind ≠ .compCpu := fun h => hname (typify_kind_eq_compCpu.mp h)
      rcases value.getUint with _ | n
      · simp [hname]
      · simp [hname, hkind]
  · simp

section Places

variable {valid : Bool} {i : Nat} {items : List Json} {c : RequestingCapabilities}

/-- Items that all ask for cores. -/
theorem cpuRequests_values (h : ∀ item ∈ items, item.cpuCores?.isSome) :
    (cpuRequests i items).map (fun e => some e.2) = items.map Json.cpuCores? := by
  induction items generalizing i with
  | nil => rfl
  | cons item rest ih =>
    obtain ⟨cores, hcores⟩ := Option.isSome_iff_exists.mp (h item List.mem_cons_self)
    rw [cpuRequests, hcores, List.map_cons, List.map_cons, hcores,
      ih fun other hother => h other (List.mem_cons_of_mem item hother)]

/-- Up to 256 items have a place each. -/
theorem placesOf_cpuRequests {places : List (UInt8 × UInt32)} (hi : i + items.length ≤ 256)
    (hplaces : ∀ e ∈ places, e.1.toNat < i) :
    placesOf (cpuRequests i items) places =
      places ++ (cpuRequests i items).map fun e => (UInt8.ofNat e.1, e.2) := by
  induction items generalizing i places with
  | nil => simp [cpuRequests, placesOf]
  | cons item rest ih =>
    rw [List.length_cons] at hi
    rw [cpuRequests]
    split
    · rename_i cores _
      have hplace : (UInt8.ofNat i).toNat = i := by
        rw [UInt8.toNat_ofNat', Nat.mod_eq_of_lt (by omega)]
      have hinsert : mapInsert UInt8.toNat (UInt8.ofNat i) cores places =
          places ++ [(UInt8.ofNat i, cores)] :=
        mapInsert_of_lt fun e he => by rw [hplace]; exact hplaces e he
      show placesOf (cpuRequests (i + 1) rest)
        (mapInsert UInt8.toNat (UInt8.ofNat i) cores places) = _
      rw [hinsert, ih (by omega), List.map_cons, List.append_assoc, List.singleton_append]
      intro e he
      rcases List.mem_append.mp he with he | he
      · exact Nat.lt_succ_of_lt (hplaces e he)
      · rw [List.mem_singleton.mp he, hplace]
        exact Nat.lt_succ_self i
    · exact ih (by omega) fun e he => Nat.lt_succ_of_lt (hplaces e he)

/-- The loop ends for items that all ask for cores. -/
theorem addRequirements_ok (hv : validateItems valid i items = .ok ())
    (h : ∀ item ∈ items, item.cpuCores?.isSome) : ∃ c', addRequirements items c = .ok c' := by
  induction items generalizing i c with
  | nil => exact ⟨c, rfl⟩
  | cons item rest ih =>
    obtain ⟨order, number, ⟨name, value⟩, others, ho, hr, hn, -, -, hrest⟩ := validateItems_cons hv
    have hcores := h item List.mem_cons_self
    have hothers := fun other hother => h other (List.mem_cons_of_mem item hother)
    rw [Json.cpuCores?, hr] at hcores
    dsimp only at hcores
    split_ifs at hcores with hname
    · rcases hvalue : value.getUint with _ | cores
      · rw [hvalue] at hcores
        cases hcores
      · have hmember : (Json.object ((name, value) :: others)).member "cpu_cores" = .ok value := by
          simp [Json.member, Json.findMember, hname]
        have hhash : fnvHash name = CapabilityItemType.compCpu.value := by
          rw [hname]
          rfl
        rw [addRequirements, Json.member_of_findMember hr, ok_bind]
        simp only [Json.memberBegin, ok_bind]
        rw [if_pos hhash, hmember, ok_bind, hvalue, ok_bind, Json.member_of_findMember ho, ok_bind,
          hn, ok_bind]
        exact ih hrest hothers
    · cases hcores

end Places

/-- The places of requirements that are collected from nothing. -/
theorem collect_orderedItems (requests : List (Nat × UInt32)) :
    (collect requests ⟨[], []⟩).orderedItems =
      (placesOf requests []).map fun e => (e.1, .compCpu, some e.2) := by
  have hcollect : collect requests (.ofPlaces none []) =
      .ofPlaces ((none : Option UInt32).or (requests.head?.map (·.2))) (placesOf requests []) :=
    collect_ofPlaces
  exact congrArg RequestingCapabilities.orderedItems hcollect

/--
**All items of an accepted document become requirements, in their order, if and only if they are at
most 256 and ask for cores.**
-/
theorem requirements_complete_iff {lib : Libraries} {document : Json}
    (hv : validateYang lib document = .ok ()) :
    (∃ c, transformToRequirements document = .ok c ∧
      c.orderedItems.map (fun e => some e.2) = document.requestItems.map Json.asked?) ↔
    document.requestItems.length ≤ 256 ∧
      ∀ item ∈ document.requestItems, item.cpuCores?.isSome := by
  obtain ⟨value, items, rfl, hitems, hvalid⟩ := validateYang_ok hv
  obtain ⟨hrequest, htransform⟩ := transformToRequirements_items hitems
  rw [hrequest, htransform]
  constructor
  · rintro ⟨c, hrun, hc⟩
    rw [addRequirements_collect hvalid hrun, collect_orderedItems, List.map_map] at hc
    constructor
    · have hlength := congrArg List.length hc
      rw [List.length_map, List.length_map] at hlength
      rw [← hlength]
      exact length_places_le (sorted_placesOf _ List.Pairwise.nil)
    · intro item hitem
      have hasked : item.asked? ∈ items.map Json.asked? := List.mem_map_of_mem hitem
      rw [← hc] at hasked
      obtain ⟨e, -, he⟩ := List.mem_map.mp hasked
      rw [Json.asked?_eq_compCpu.mp he.symm]
      rfl
  · rintro ⟨hlength, hall⟩
    obtain ⟨c, hrun⟩ := addRequirements_ok (c := ⟨[], []⟩) hvalid hall
    refine ⟨c, hrun, ?_⟩
    have hplaces : placesOf (cpuRequests 0 items) [] =
        (cpuRequests 0 items).map fun e => (UInt8.ofNat e.1, e.2) := by
      rw [placesOf_cpuRequests (by omega) (by simp), List.nil_append]
    have hasked : items.map Json.asked? =
        (items.map Json.cpuCores?).map (Option.map fun cores => (.compCpu, some cores)) := by
      rw [List.map_map]
      refine List.map_congr_left ?_
      intro item hitem
      obtain ⟨cores, hcores⟩ := Option.isSome_iff_exists.mp (hall item hitem)
      rw [Function.comp_apply, hcores]
      exact Json.asked?_eq_compCpu.mpr hcores
    rw [addRequirements_collect hvalid hrun, collect_orderedItems, hplaces, hasked,
      ← cpuRequests_values hall, List.map_map, List.map_map, List.map_map]
    rfl

/-- A request for memory. -/
def memoryDocument : Json :=
  .object [(requirementsKey, .object [("items", .array
    [.object [("order", .uint 0), ("requirement", .object [("memory", .uint 1)])]])])]

/-- All items of a request for two, four and one core. -/
theorem requirements_complete_cores :
    validateYang .sample (cpuDocument [(0, 2), (1, 4), (2, 1)]) = .ok () ∧
      (cpuDocument [(0, 2), (1, 4), (2, 1)]).requestItems.length = 3 ∧
      ∃ c, transformToRequirements (cpuDocument [(0, 2), (1, 4), (2, 1)]) = .ok c ∧
        c.orderedItems.map (fun e => some e.2) =
          (cpuDocument [(0, 2), (1, 4), (2, 1)]).requestItems.map Json.asked? := by
  have hv : validateYang .sample (cpuDocument [(0, 2), (1, 4), (2, 1)]) = .ok () := by
    decide +kernel
  have hitems : (cpuDocument [(0, 2), (1, 4), (2, 1)]).requestItems.length ≤ 256 ∧
      ∀ item ∈ (cpuDocument [(0, 2), (1, 4), (2, 1)]).requestItems, item.cpuCores?.isSome := by
    decide +kernel
  exact ⟨hv, by decide +kernel, (requirements_complete_iff hv).mpr hitems⟩

/-- A request for memory is accepted, and nothing is required. -/
theorem requirements_complete_memory : ¬∀ (lib : Libraries) (document : Json),
    validateYang lib document = .ok () → ∃ c, transformToRequirements document = .ok c ∧
      c.orderedItems.map (fun e => some e.2) = document.requestItems.map Json.asked? := by
  intro hall
  have hv : validateYang .sample memoryDocument = .ok () := by
    decide +kernel
  have hnone : transformToRequirements memoryDocument = .ok ⟨[], []⟩ := by
    decide +kernel
  obtain ⟨c, hc, hitems⟩ := hall .sample memoryDocument hv
  rw [hnone] at hc
  cases hc
  cases hitems

end Rankd

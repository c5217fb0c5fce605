import Mathlib.Algebra.Order.Floor.Semifield
import Mathlib.Data.Rat.Floor
import Rankd.Node.Assessment

/-!
# The grade of the current resources

The reference model grades a requirement for memory by the exact ratio of what is available, and
blends the grades with the weight 2/3. The code divides integers in both places: the ratio is 0
unless all memory is available, and the weight is 0. So its grade is the one of the reference if
nothing can be graded or is available, or if all memory is available (`current_reference_iff`).
-/

namespace Rankd

open Infra

/-- The grades of the reference, with the same snapshots of the memory. -/
def exactAssessments (c : CurrentCapabilities) :
    Nat → List (UInt8 × CapabilityItemType × Any) → List ℚ
  | _, [] => []
  | snapshot, (_, .compCpu, _) :: rest => 1 :: exactAssessments c snapshot rest
  | snapshot, (_, .compMemory, _) :: rest =>
    (c.available snapshot / c.total : ℚ) :: exactAssessments c (snapshot + 1) rest
  | snapshot, (_, .time, _) :: rest | snapshot, (_, .timeTas, _) :: rest
  | snapshot, (_, .timeCbs, _) :: rest | snapshot, (_, .net, _) :: rest
  | snapshot, (_, .netBandwidth, _) :: rest | snapshot, (_, .netDds, _) :: rest
  | snapshot, (_, .comp, _) :: rest | snapshot, (_, .unspecified, _) :: rest =>
    exactAssessments c snapshot rest

/-- The grades of the reference for a list of requirements. -/
def referenceGrades (c : CurrentCapabilities) (requirements : RequestingCapabilities) : List ℚ :=
  exactAssessments c 0 requirements.orderedItems

/-- The function `g` of the reference, `assess_current_node_resources_recursive`. -/
def referenceGrade (grades : List ℚ) : ℚ := blend (2 / 3) grades

/-- The code grades as the reference does, and by 0 exactly where nothing is there. -/
structure MatchesReference (c : CurrentCapabilities) (requirements : RequestingCapabilities) :
    Prop where
  grade : referenceGrades c requirements ≠ [] → (∀ r ∈ referenceGrades c requirements, r ≠ 0) →
    currentResourceAssessment c requirements = referenceGrade (referenceGrades c requirements)
  zero : currentResourceAssessment c requirements = (0 : ℚ) ↔
    (∃ r ∈ referenceGrades c requirements, r = 0) ∨ referenceGrades c requirements = []

section Current

variable {K : Type} [Field K] {c : CurrentCapabilities} {requirements : RequestingCapabilities}
  {items : List (UInt8 × CapabilityItemType × Any)} {snapshot : Nat}

/-- The ratio in integers. -/
theorem currentMemory_eq_floor (c : CurrentCapabilities) (snapshot : Nat) :
    (c.currentMemory snapshot : K) = (⌊(c.available snapshot / c.total : ℚ)⌋₊ : ℕ) := by
  rw [CurrentCapabilities.currentMemory, Nat.floor_div_eq_div]

theorem floor_eq_zero_iff [CharZero K] {r : ℚ} : ((⌊r⌋₊ : ℕ) : K) = 0 ↔ ¬1 ≤ r := by
  rw [Nat.cast_eq_zero, Nat.floor_eq_zero, not_le]

theorem exactAssessments_nonneg {r : ℚ} (h : r ∈ exactAssessments c snapshot items) : 0 ≤ r := by
  induction items generalizing snapshot with
  | nil => cases h
  | cons e rest ih =>
    obtain ⟨order, type, value⟩ := e
    cases type with
    | compCpu =>
      rcases List.mem_cons.mp h with rfl | h
      · exact zero_le_one
      · exact ih h
    | compMemory =>
      rcases List.mem_cons.mp h with rfl | h
      · exact div_nonneg (Nat.cast_nonneg _) (Nat.cast_nonneg _)
      · exact ih h
    | time | timeTas | timeCbs | net | netBandwidth | netDds | comp | unspecified => exact ih h

/-- **The individual grades of the code** are those of the reference without their fractions. -/
theorem individualAssessments_eq [LinearOrder K] [CharZero K] (c : CurrentCapabilities)
    (snapshot : Nat) (items : List (UInt8 × CapabilityItemType × Any)) :
    individualAssessments c snapshot items =
      if (∀ e ∈ items, e.2.2.isSome) ∧ ∀ r ∈ exactAssessments c snapshot items, 1 ≤ r then
        some ((exactAssessments c snapshot items).map fun r => ((⌊r⌋₊ : ℕ) : K))
      else none := by
  induction items generalizing snapshot with
  | nil => simp [individualAssessments, exactAssessments]
  | cons e rest ih =>
    obtain ⟨order, type, value⟩ := e
    cases value with
    | none => simp [individualAssessments]
    | some value =>
      cases type with
      | compCpu =>
        rw [individualAssessments, exactAssessments]
        simp only [CurrentCapabilities.currentCpuCores, ih, List.forall_mem_cons,
          Option.isNone_some,
          Bool.false_eq_true, if_false, one_ne_zero]
        by_cases htail : (∀ e ∈ rest, e.2.2.isSome) ∧
            ∀ r ∈ exactAssessments c snapshot rest, 1 ≤ r
        · rw [if_pos htail, if_pos ⟨⟨rfl, htail.1⟩, le_rfl, htail.2⟩]
          simp
        · rw [if_neg htail, if_neg fun h => htail ⟨h.1.2, h.2.2⟩]
          simp
      | compMemory =>
        rw [individualAssessments, exactAssessments]
        simp only [currentMemory_eq_floor, ih, List.forall_mem_cons, Option.isNone_some,
          Bool.false_eq_true, if_false]
        by_cases hone : 1 ≤ (c.available snapshot / c.total : ℚ)
        · rw [if_neg (mt floor_eq_zero_iff.mp (not_not.mpr hone))]
          by_cases htail : (∀ e ∈ rest, e.2.2.isSome) ∧
              ∀ r ∈ exactAssessments c (snapshot + 1) rest, 1 ≤ r
          · rw [if_pos htail, if_pos ⟨⟨rfl, htail.1⟩, hone, htail.2⟩]
            simp
          · rw [if_neg htail, if_neg fun h => htail ⟨h.1.2, h.2.2⟩]
            simp
        · rw [if_pos (floor_eq_zero_iff.mpr hone), if_neg fun h => hone h.2.1]
      | time | timeTas | timeCbs | net | netBandwidth | netDds | comp | unspecified =>
        rw [individualAssessments, exactAssessments]
        simp only [ih, List.forall_mem_cons, Option.isNone_some, Bool.false_eq_true, if_false,
          Option.isSome_some, true_and]

/-- **The grade of the code**: the last one without its fraction, if every requirement has one. -/
theorem currentResourceAssessment_eq [LinearOrder K] [CharZero K] (c : CurrentCapabilities)
    (requirements : RequestingCapabilities) :
    currentResourceAssessment c requirements =
      if (∀ e ∈ requirements.orderedItems, e.2.2.isSome) ∧
          ∀ r ∈ referenceGrades c requirements, 1 ≤ r then
        ((⌊(referenceGrades c requirements).getLastD 0⌋₊ : ℕ) : K)
      else 0 := by
  unfold currentResourceAssessment referenceGrades
  rw [individualAssessments_eq]
  by_cases hcond : (∀ e ∈ requirements.orderedItems, e.2.2.isSome) ∧
      ∀ r ∈ exactAssessments c 0 requirements.orderedItems, 1 ≤ r
  · rw [if_pos hcond, if_pos hcond]
    rcases hgrades : exactAssessments c 0 requirements.orderedItems with _ | ⟨r, rest⟩
    · simp
    · show alpha ((r :: rest).map fun r => ((⌊r⌋₊ : ℕ) : K)) = _
      rw [alpha_eq_getLast (by simp), List.getLast_map, List.getLastD_cons,
        List.getLast_eq_getLastD]
  · rw [if_neg hcond, if_neg hcond]

theorem getLastD_mem {rs : List ℚ} (h : rs ≠ []) : rs.getLastD 0 ∈ rs := by
  rw [List.getLastD_eq_getLast?, List.getLast?_eq_some_getLast h, Option.getD_some]
  exact List.getLast_mem h

/-- The code does not grade by 0 exactly if every requirement has a value and no
ratio is below 1. -/
theorem currentResourceAssessment_ne_zero_iff [LinearOrder K] [CharZero K] :
    currentResourceAssessment c requirements ≠ (0 : K) ↔
      (∀ e ∈ requirements.orderedItems, e.2.2.isSome) ∧ referenceGrades c requirements ≠ [] ∧
        ∀ r ∈ referenceGrades c requirements, 1 ≤ r := by
  rw [currentResourceAssessment_eq]
  split_ifs with hcond
  · rw [ne_eq, floor_eq_zero_iff, not_not]
    constructor
    · intro hlast
      refine ⟨hcond.1, ?_, hcond.2⟩
      intro hempty
      rw [hempty] at hlast
      exact absurd hlast (by norm_num)
    · intro h
      exact hcond.2 _ (getLastD_mem h.2.1)
  · refine iff_of_false (not_not.mpr rfl) ?_
    intro h
    exact hcond ⟨h.1, h.2.2⟩

theorem referenceGrade_pos {grades : List ℚ} (h : grades ≠ []) (hpos : ∀ r ∈ grades, 0 ≤ r)
    (hne : ∀ r ∈ grades, r ≠ 0) : 0 < referenceGrade grades := by
  unfold referenceGrade
  refine blend_pos (by norm_num) (by norm_num) h ?_
  intro r hr
  exact lt_of_le_of_ne (hpos r hr) (hne r hr).symm

/-- The reference grades by 0 exactly where nothing can be graded or is there. -/
theorem matchesReference_iff : MatchesReference c requirements ↔
    (∃ r ∈ referenceGrades c requirements, r = 0) ∨ referenceGrades c requirements = [] ∨
      currentResourceAssessment c requirements =
        referenceGrade (referenceGrades c requirements) := by
  have hcode : currentResourceAssessment c requirements = (_ : ℚ) :=
    currentResourceAssessment_eq c requirements
  constructor
  · intro h
    by_cases hzero : ∃ r ∈ referenceGrades c requirements, r = 0
    · exact Or.inl hzero
    · by_cases hempty : referenceGrades c requirements = []
      · exact Or.inr (Or.inl hempty)
      · refine Or.inr (Or.inr (h.grade hempty fun r hr h0 => hzero ⟨r, hr, h0⟩))
  · intro h
    by_cases hnothing : (∃ r ∈ referenceGrades c requirements, r = 0) ∨
        referenceGrades c requirements = []
    · -- The code returns 0 too.
      constructor
      · intro hne hall
        rcases hnothing with ⟨r, hr, h0⟩ | hempty
        · exact absurd h0 (hall r hr)
        · exact absurd hempty hne
      · refine iff_of_true ?_ hnothing
        rw [hcode]
        rcases hnothing with ⟨r, hr, rfl⟩ | hempty
        · rw [if_neg]
          intro hcond
          exact absurd (hcond.2 0 hr) (by norm_num)
        · rw [hempty]
          simp
    · rw [not_or] at hnothing
      obtain ⟨hzero, hempty⟩ := hnothing
      have hgrade := (h.resolve_left hzero).resolve_left hempty
      have hne : ∀ r ∈ referenceGrades c requirements, r ≠ 0 := fun r hr h0 => hzero ⟨r, hr, h0⟩
      have hpos := referenceGrade_pos hempty (fun r hr => exactAssessments_nonneg hr) hne
      constructor
      · intro _ _
        exact hgrade
      · refine iff_of_false ?_ ?_
        · rw [hgrade]
          exact hpos.ne'
        · rintro (h0 | h0)
          · exact hzero h0
          · exact hempty h0

theorem ratio_le_one (h : ∀ snapshot, c.available snapshot ≤ c.total) {r : ℚ}
    (hr : r ∈ exactAssessments c snapshot items) : r ≤ 1 := by
  induction items generalizing snapshot with
  | nil => cases hr
  | cons e rest ih =>
    obtain ⟨order, type, value⟩ := e
    cases type with
    | compCpu =>
      rcases List.mem_cons.mp hr with rfl | hr
      · exact le_rfl
      · exact ih hr
    | compMemory =>
      rcases List.mem_cons.mp hr with rfl | hr
      · refine div_le_one_of_le₀ ?_ (Nat.cast_nonneg _)
        exact_mod_cast h snapshot
      · exact ih hr
    | time | timeTas | timeCbs | net | netBandwidth | netDds | comp | unspecified => exact ih hr

/--
**The code grades the current resources as the reference does** exactly if no memory is available
for some requirement, nothing can be graded, or each requirement has a value, no ratio is below 1
and the blend of the ratios is the integer part of the last one. Where the available memory is part
of the total, the third case is that all memory is available.
-/
theorem current_reference_iff (c : CurrentCapabilities) (requirements : RequestingCapabilities) :
    (MatchesReference c requirements ↔
      (∃ r ∈ referenceGrades c requirements, r = 0) ∨ referenceGrades c requirements = [] ∨
        (∀ e ∈ requirements.orderedItems, e.2.2.isSome) ∧
          (∀ r ∈ referenceGrades c requirements, 1 ≤ r) ∧
          referenceGrade (referenceGrades c requirements) =
            ⌊(referenceGrades c requirements).getLastD 0⌋₊) ∧
    ((∀ snapshot, c.available snapshot ≤ c.total) → (MatchesReference c requirements ↔
      (∃ r ∈ referenceGrades c requirements, r = 0) ∨ referenceGrades c requirements = [] ∨
        (∀ e ∈ requirements.orderedItems, e.2.2.isSome) ∧
          ∀ r ∈ referenceGrades c requirements, r = 1)) := by
  have hmatches : MatchesReference c requirements ↔
      (∃ r ∈ referenceGrades c requirements, r = 0) ∨ referenceGrades c requirements = [] ∨
        (∀ e ∈ requirements.orderedItems, e.2.2.isSome) ∧
          (∀ r ∈ referenceGrades c requirements, 1 ≤ r) ∧
          referenceGrade (referenceGrades c requirements) =
            ⌊(referenceGrades c requirements).getLastD 0⌋₊ := by
    rw [matchesReference_iff]
    by_cases hzero : ∃ r ∈ referenceGrades c requirements, r = 0
    · exact iff_of_true (Or.inl hzero) (Or.inl hzero)
    by_cases hempty : referenceGrades c requirements = []
    · exact iff_of_true (Or.inr (Or.inl hempty)) (Or.inr (Or.inl hempty))
    have hne : ∀ r ∈ referenceGrades c requirements, r ≠ 0 := fun r hr h0 => hzero ⟨r, hr, h0⟩
    have hpos := referenceGrade_pos hempty (fun r hr => exactAssessments_nonneg hr) hne
    refine or_congr_right (or_congr_right ?_)
    rw [currentResourceAssessment_eq]
    split_ifs with hcond
    · constructor
      · intro h
        exact ⟨hcond.1, hcond.2, h.symm⟩
      · intro h
        exact h.2.2.symm
    · constructor
      · intro h
        exact absurd h hpos.ne
      · intro h
        exact absurd ⟨h.1, h.2.1⟩ hcond
  refine ⟨hmatches, ?_⟩
  intro havailable
  rw [hmatches]
  by_cases hempty : referenceGrades c requirements = []
  · exact iff_of_true (Or.inr (Or.inl hempty)) (Or.inr (Or.inl hempty))
  refine or_congr_right (or_congr_right (and_congr_right fun _ => ?_))
  constructor
  · rintro ⟨hone, -⟩ r hr
    exact le_antisymm (ratio_le_one havailable hr) (hone r hr)
  · intro hone
    refine ⟨fun r hr => (hone r hr).ge, ?_⟩
    have hlast : (referenceGrades c requirements).getLastD 0 = 1 := hone _ (getLastD_mem hempty)
    rw [hlast, referenceGrade, blend_eq_of_forall hempty hone]
    simp

/-- A node of four cores and 16 units of memory, half of which is available. -/
def CurrentCapabilities.half : CurrentCapabilities := ⟨4, 16, fun _ => 8, by decide⟩

/-- Two cores and one unit of memory. -/
def coresAndMemory : RequestingCapabilities :=
  ⟨[(.compCpu, some 2), (.compMemory, some 1)], [(0, .compCpu, some 2), (1, .compMemory, some 1)]⟩

theorem current_reference_iff_half :
    (∀ snapshot, CurrentCapabilities.half.available snapshot ≤ 16) ∧
    (MatchesReference .half coresAndMemory ↔
      (∃ r ∈ referenceGrades .half coresAndMemory, r = 0) ∨
        referenceGrades .half coresAndMemory = [] ∨
        (∀ e ∈ coresAndMemory.orderedItems, e.2.2.isSome) ∧
          ∀ r ∈ referenceGrades .half coresAndMemory, r = 1) := by
  have havailable : ∀ snapshot, CurrentCapabilities.half.available snapshot ≤ 16 := fun _ =>
    show 8 ≤ 16 by decide
  exact ⟨havailable, (current_reference_iff .half coresAndMemory).2 havailable⟩

/-- The half of the memory that is available is not graded. -/
theorem current_reference_half :
    ¬∀ (c : CurrentCapabilities) (requirements : RequestingCapabilities),
      MatchesReference c requirements := by
  intro hall
  have hgrade := (hall .half coresAndMemory).grade
  have hgrades : referenceGrades .half coresAndMemory = [1, 8 / 16] := rfl
  have hcode : currentResourceAssessment .half coresAndMemory = (0 : ℚ) := by
    decide +kernel
  rw [hgrades, hcode] at hgrade
  have h := hgrade (by simp) (by norm_num)
  exact absurd h (by norm_num [referenceGrade, blend])

end Current

end Rankd

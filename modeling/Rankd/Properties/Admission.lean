import Rankd.Node.Marking
import Rankd.Properties.CurrentResources
import Rankd.Properties.Estimates

/-!
# The admission criterion

`available_for_performance` tests the resources of the node first and the bid
afterwards, both against
0. Two of its factors are 0 where the node could perform the request: the one of the resources if
all cores or all memory are asked for, and the one of the fairness if the priority is 0
(`admission_iff`).
-/

namespace Rankd

open Infra Prog

/-- Numbers as `double`s, among which only 0 is zero. -/
structure ExactDouble where
  toBits : ℝ → BitVec 64
  isZero_iff : ∀ x, isZeroDouble (toBits x) = true ↔ x = 0

/-- The assessments in real arithmetic. -/
noncomputable def exactAssessment (d : ExactDouble) (c : CurrentCapabilities)
    (degradation : PlDegradation) (m : Measurements ℝ) (metrics : ProximityMetrics ℝ) :
    Assessment where
  bareMetalResourceAssessment := fun requirements =>
    d.toBits (bareMetalResourceAssessment c requirements)
  estimateBid := fun reservation =>
    d.toBits (estimateBid c (proximityConstants degradation) m reservation metrics).1

/-- No requirement asks for more than the total. -/
structure Fits (c : CurrentCapabilities) (requirements : RequestingCapabilities) : Prop where
  cores : ∀ order (value : UInt32),
    (order, .compCpu, some value) ∈ requirements.orderedItems → value.toNat ≤ c.cores
  memory : ∀ order (value : UInt32),
    (order, .compMemory, some value) ∈ requirements.orderedItems → value.toNat ≤ c.total

/-- Every requirement asks for less than the total, which is narrowed to a `uint`. -/
structure Below (c : CurrentCapabilities) (requirements : RequestingCapabilities) : Prop where
  cores : ∀ order (value : UInt32),
    (order, .compCpu, some value) ∈ requirements.orderedItems → value < c.bareMetalCpuCores
  memory : ∀ order (value : UInt32),
    (order, .compMemory, some value) ∈ requirements.orderedItems → value < c.bareMetalMemory

/-- The exact grade of the current resources is not 0. -/
def Graded (c : CurrentCapabilities) (requirements : RequestingCapabilities) : Prop :=
  referenceGrades c requirements ≠ [] ∧ ∀ r ∈ referenceGrades c requirements, r ≠ 0

/-- `available_for_performance` does not return `nullptr`. -/
def Admitted (assessment : Assessment) (priority : UInt8) (s : Held) : Prop :=
  ∃ address, ((availableForPerformance assessment priority).run s).1 = .ok (some address)

section Admission

variable {d : ExactDouble} {c : CurrentCapabilities} {degradation : PlDegradation}
  {m : Measurements ℝ} {metrics : ProximityMetrics ℝ} {requirements : RequestingCapabilities}
  {assessment : Assessment} {s : Held} {statement : Reservation} {priority : UInt8}

/-- Only the two tests decide. -/
theorem admitted_iff (hread : s.read = .ok statement) :
    Admitted assessment priority s ↔ assessment.admits priority statement = true := by
  unfold Admitted Assessment.admits availableForPerformance
  rw [bind_ok (deref_run hread)]
  by_cases hzero :
    isZeroDouble (assessment.bareMetalResourceAssessment statement.requirements) = true
  · simp [hzero]
  rw [if_neg hzero, bind_ok (writeThrough_run hread _), bind_ok (deref_run (Held.read_write hread)),
    bind_ok (writeThrough_run (Held.read_write hread) _), Held.write_write]
  by_cases hbid : isZeroDouble (assessment.estimateBid (statement.setPriority priority)) = true
  · simp [hbid]
  · rw [if_neg hbid, bind_ok (deref_run (Held.read_write hread))]
    refine iff_of_true ⟨_, rfl⟩ ?_
    simp [hzero, hbid]

theorem bareMetalResourceAssessment_eq_zero_iff :
    bareMetalResourceAssessment c requirements = (0 : ℝ) ↔
      ¬∀ e ∈ requirements.orderedItems, passesBareMetal c e.2 = true := by
  unfold bareMetalResourceAssessment
  rw [← List.all_eq_true]
  split_ifs with hall
  · exact iff_of_false one_ne_zero (not_not.mpr hall)
  · exact iff_of_true rfl hall

/-- The bid is 0 exactly if a factor other than the proximity is. -/
theorem estimateBid_eq_zero_iff {reservation : Reservation} (h : m.Nonneg reservation.cutTarget) :
    (estimateBid c (proximityConstants degradation) m reservation metrics).1 = 0 ↔
      bareMetalResourceAssessment c reservation.requirements = (0 : ℝ) ∨
        currentResourceAssessment c reservation.requirements = (0 : ℝ) ∨
        reservation.priority = 0 := by
  have hproximity : (proximityOf degradation m reservation metrics + 1) / 2 ≠ 0 := by
    have hnonneg := (proximityOf_mem_Icc degradation metrics h).1
    linarith
  have hpriority : (reservation.priority.toNat / 64 : ℝ) = 0 ↔ reservation.priority = 0 := by
    rw [div_eq_zero_iff, or_iff_left (by norm_num), Nat.cast_eq_zero, ← UInt8.toNat_inj]
    rfl
  rw [estimateBid_fst, mul_eq_zero, mul_eq_zero, mul_eq_zero, or_iff_left hproximity, hpriority,
    or_assoc]

/-- **What the node admits.** -/
theorem admits_exact_iff (h : m.Nonneg statement.cutTarget) :
    (exactAssessment d c degradation m metrics).admits priority statement = true ↔
      (∀ e ∈ statement.requirements.orderedItems, passesBareMetal c e.2 = true) ∧
        currentResourceAssessment c statement.requirements ≠ (0 : ℝ) ∧ priority ≠ 0 := by
  have hbare := d.isZero_iff (bareMetalResourceAssessment c statement.requirements)
  have hbid := d.isZero_iff
    (estimateBid c (proximityConstants degradation) m (statement.setPriority priority) metrics).1
  rw [bareMetalResourceAssessment_eq_zero_iff] at hbare
  have hset : m.Nonneg (statement.setPriority priority).cutTarget := h
  rw [estimateBid_eq_zero_iff hset, bareMetalResourceAssessment_eq_zero_iff] at hbid
  unfold Assessment.admits exactAssessment
  rw [Bool.and_eq_true, Bool.not_eq_true', Bool.not_eq_true', ← Bool.not_eq_true,
    ← Bool.not_eq_true,
    hbare, hbid]
  simp only [Reservation.setPriority]
  tauto

theorem passes_iff_below (hvalues : ∀ e ∈ requirements.orderedItems, e.2.2.isSome) :
    (∀ e ∈ requirements.orderedItems, passesBareMetal c e.2 = true) ↔ Below c requirements := by
  constructor
  · intro h
    constructor
    · intro order value hmem
      simpa [passesBareMetal] using h _ hmem
    · intro order value hmem
      simpa [passesBareMetal] using h _ hmem
  · rintro h ⟨order, type, value⟩ hmem
    obtain ⟨value, rfl⟩ := Option.isSome_iff_exists.mp (hvalues _ hmem)
    cases type with
    | compCpu => simpa [passesBareMetal] using h.cores order value hmem
    | compMemory => simpa [passesBareMetal] using h.memory order value hmem
    | time | timeTas | timeCbs | net | netBandwidth | netDds | comp | unspecified => rfl

theorem le_of_lt_ofNat {value : UInt32} {n : Nat} (h : value < UInt32.ofNat n) :
    value.toNat ≤ n := by
  have hlt : value.toNat < n % 2 ^ 32 := by simpa using UInt32.lt_iff_toNat_lt.mp h
  exact (hlt.trans_le (Nat.mod_le n _)).le

theorem Below.fits (h : Below c requirements) : Fits c requirements where
  cores := fun order value hmem => le_of_lt_ofNat (h.cores order value hmem)
  memory := fun order value hmem => le_of_lt_ofNat (h.memory order value hmem)

/-- A request that is admitted fits, and its exact grade is not 0. -/
theorem graded_of_ne_zero (h : currentResourceAssessment c requirements ≠ (0 : ℝ)) :
    Graded c requirements := by
  obtain ⟨-, hempty, hone⟩ := currentResourceAssessment_ne_zero_iff.mp h
  refine ⟨hempty, ?_⟩
  intro r hr
  exact (lt_of_lt_of_le zero_lt_one (hone r hr)).ne'

/--
**Admission meets the criterion** exactly if a request that fits and whose grade is not 0 asks for
less than the totals and has a priority other than 0. With the exact grade of the reference for the
current resources, all memory that is asked for must be available in addition.
-/
theorem admission_iff (d : ExactDouble) (degradation : PlDegradation) (c : CurrentCapabilities)
    (m : Measurements ℝ) (metrics : ProximityMetrics ℝ) (priority : UInt8)
    (hread : s.read = .ok statement)
    (hvalues : ∀ e ∈ statement.requirements.orderedItems, e.2.2.isSome)
    (hm : m.Nonneg statement.cutTarget) :
    ((Admitted (exactAssessment d c degradation m metrics) priority s ↔
        Fits c statement.requirements ∧
          currentResourceAssessment c statement.requirements ≠ (0 : ℝ)) ↔
      (Fits c statement.requirements →
        currentResourceAssessment c statement.requirements ≠ (0 : ℝ) →
          Below c statement.requirements ∧ priority ≠ 0)) ∧
    ((Admitted (exactAssessment d c degradation m metrics) priority s ↔
        Fits c statement.requirements ∧ Graded c statement.requirements) ↔
      (Fits c statement.requirements → Graded c statement.requirements →
        Below c statement.requirements ∧ priority ≠ 0 ∧
          ∀ r ∈ referenceGrades c statement.requirements, 1 ≤ r)) := by
  have hadmitted : Admitted (exactAssessment d c degradation m metrics) priority s ↔
      Below c statement.requirements ∧
        currentResourceAssessment c statement.requirements ≠ (0 : ℝ) ∧ priority ≠ 0 := by
    rw [admitted_iff hread, admits_exact_iff hm, passes_iff_below hvalues]
  rw [hadmitted]
  constructor
  · constructor
    · intro h hfits hgrade
      obtain ⟨hbelow, -, hpriority⟩ := h.mpr ⟨hfits, hgrade⟩
      exact ⟨hbelow, hpriority⟩
    · intro h
      constructor
      · rintro ⟨hbelow, hgrade, -⟩
        exact ⟨hbelow.fits, hgrade⟩
      · rintro ⟨hfits, hgrade⟩
        obtain ⟨hbelow, hpriority⟩ := h hfits hgrade
        exact ⟨hbelow, hgrade, hpriority⟩
  · constructor
    · intro h hfits hgraded
      obtain ⟨hbelow, hgrade, hpriority⟩ := h.mpr ⟨hfits, hgraded⟩
      exact ⟨hbelow, hpriority, (currentResourceAssessment_ne_zero_iff.mp hgrade).2.2⟩
    · intro h
      constructor
      · rintro ⟨hbelow, hgrade, -⟩
        exact ⟨hbelow.fits, graded_of_ne_zero hgrade⟩
      · rintro ⟨hfits, hgraded⟩
        obtain ⟨hbelow, hpriority, hone⟩ := h hfits hgraded
        exact ⟨hbelow, currentResourceAssessment_ne_zero_iff.mpr ⟨hvalues, hgraded.1, hone⟩,
          hpriority⟩

end Admission

/-! ## A request for cores -/

/-- Only tells whether a number is 0. -/
noncomputable def ExactDouble.indicator : ExactDouble where
  toBits := fun x => if x = 0 then 0 else 1
  isZero_iff := by
    intro x
    by_cases h : x = 0
    · simp [h, isZeroDouble]
    · simp [h, isZeroDouble]

/-- A pointer to a new reservation with a requirement for cores, beside an empty list. -/
def heldCores (value : UInt32) : Held :=
  ⟨⟨[], 0⟩, .own (Reservation.new ⟨[(.compCpu, some value)], [(0, .compCpu, some value)]⟩ 0)⟩

theorem oneHop_nonneg (target : Bytes) : (oneHop 0).Nonneg target :=
  ⟨zero_le_one, le_rfl, le_rfl, le_rfl⟩

theorem admission_iff_cores :
    (Admitted (exactAssessment .indicator .idle .linear (oneHop 0) ∅) 3 (heldCores 2) ↔
        Fits .idle ⟨[(.compCpu, some 2)], [(0, .compCpu, some 2)]⟩ ∧
          currentResourceAssessment .idle ⟨[(.compCpu, some 2)],
          [(0, .compCpu, some 2)]⟩ ≠ (0 : ℝ)) ↔
      (Fits .idle ⟨[(.compCpu, some 2)], [(0, .compCpu, some 2)]⟩ →
        currentResourceAssessment .idle ⟨[(.compCpu, some 2)], [(0, .compCpu, some 2)]⟩ ≠ (0 : ℝ) →
          Below .idle ⟨[(.compCpu, some 2)], [(0, .compCpu, some 2)]⟩ ∧ (3 : UInt8) ≠ 0) :=
  (admission_iff .indicator .linear .idle (oneHop 0) ∅ 3
    (show (heldCores 2).read = .ok (Reservation.new _ 0) from rfl) (by simp [Reservation.new])
    (oneHop_nonneg _)).1

/-- A request of the lowest priority for two cores of four is refused, as one for all four is. -/
theorem admission_cores_refused :
    ¬(Admitted (exactAssessment .indicator .idle .linear (oneHop 0) ∅) 0 (heldCores 2) ↔
        Fits .idle ⟨[(.compCpu, some 2)], [(0, .compCpu, some 2)]⟩ ∧
          currentResourceAssessment .idle ⟨[(.compCpu, some 2)],
          [(0, .compCpu, some 2)]⟩ ≠ (0 : ℝ)) ∧
      ¬(Admitted (exactAssessment .indicator .idle .linear (oneHop 0) ∅) 3 (heldCores 4) ↔
        Fits .idle ⟨[(.compCpu, some 4)], [(0, .compCpu, some 4)]⟩ ∧
          currentResourceAssessment .idle ⟨[(.compCpu, some 4)], [(0, .compCpu, some 4)]⟩ ≠
            (0 : ℝ)) := by
  have hfits : ∀ value : UInt32, value.toNat ≤ 4 →
      Fits .idle ⟨[(.compCpu, some value)], [(0, .compCpu, some value)]⟩ := by
    intro value hvalue
    constructor
    · intro order value' hmem
      simp only [List.mem_singleton, Prod.mk.injEq, Option.some.injEq] at hmem
      rw [hmem.2.2]
      exact hvalue
    · intro order value' hmem
      simp at hmem
  have hgrade : ∀ value : UInt32, currentResourceAssessment CurrentCapabilities.idle
      ⟨[(.compCpu, some value)], [(0, .compCpu, some value)]⟩ ≠ (0 : ℝ) := by
    intro value
    rw [currentResourceAssessment_ne_zero_iff]
    simp [referenceGrades, exactAssessments]
  constructor
  · intro h
    have hadmitted := h.mpr ⟨hfits 2 (by decide), hgrade 2⟩
    rw [admitted_iff rfl, admits_exact_iff (oneHop_nonneg _)] at hadmitted
    exact hadmitted.2.2 rfl
  · intro h
    have hadmitted := h.mpr ⟨hfits 4 (by decide), hgrade 4⟩
    rw [admitted_iff rfl, admits_exact_iff (oneHop_nonneg _)] at hadmitted
    have hpasses := hadmitted.1 (0, .compCpu, some 4) (by simp [Reservation.new])
    exact absurd hpasses (by decide)

end Rankd

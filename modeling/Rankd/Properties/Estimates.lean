import Mathlib.Topology.UnitInterval
import Rankd.Infra.Grade
import Rankd.Properties.Proximity

/-!
# Estimated bids

Each of the four proximity grades is a grade of what it measures (`isGradeOn_phi1` to
`isGradeOn_phi4`). So a bid is between 0 and 1, grows with the priority, and does not grow with a
cost (`estimateBid_scaled`).
-/

namespace Rankd

open Infra

/-! ## The pieces -/

section Pieces

variable {rttThreshold pdvThreshold pdvTolerance plThreshold : ℝ} {degradation : PlDegradation}

theorem isGradeOn_phi1 (h : 0 < rttThreshold) : IsGradeOn (Set.Ici 0)
    (ProximityEval.exact rttThreshold pdvThreshold pdvTolerance plThreshold degradation).phi1 := by
  refine IsGradeOn.ite_one ⟨?_, ?_⟩
  · rintro x ⟨-, hx⟩
    have hexponent : -((x - rttThreshold) / rttThreshold) ≤ 0 :=
      neg_nonpos.mpr (div_nonneg (sub_nonneg.mpr (le_of_lt hx)) h.le)
    constructor
    · exact Real.rpow_nonneg zero_le_two _
    · exact Real.rpow_le_one_of_one_le_of_nonpos one_le_two hexponent
  · rintro x - y - hxy
    refine Real.rpow_le_rpow_of_exponent_le one_le_two (neg_le_neg ?_)
    exact div_le_div_of_nonneg_right (sub_le_sub_right hxy _) h.le

theorem isGradeOn_phi2 : IsGradeOn (Set.Ici 0)
    (ProximityEval.exact rttThreshold pdvThreshold pdvTolerance plThreshold degradation).phi2 := by
  constructor
  · intro x hx
    have hfloor : (0 : ℝ) ≤ ⌊x⌋ := Int.cast_nonneg (Int.floor_nonneg.mpr hx)
    constructor
    · exact Real.rpow_nonneg zero_le_two _
    · exact Real.rpow_le_one_of_one_le_of_nonpos one_le_two (neg_nonpos.mpr hfloor)
  · intro x _ y _ hxy
    refine Real.rpow_le_rpow_of_exponent_le one_le_two (neg_le_neg ?_)
    exact Int.cast_le.mpr (Int.floor_mono hxy)

theorem isGradeOn_phi3 (hthreshold : 0 < pdvThreshold) (htolerance : 0 < pdvTolerance) :
    IsGradeOn (Set.Ici 0)
      (ProximityEval.exact rttThreshold pdvThreshold pdvTolerance plThreshold
      degradation).phi3 := by
  have hwidth : 0 < pdvThreshold * pdvTolerance := mul_pos hthreshold htolerance
  have hpos : 0 < pdvThreshold + pdvThreshold * pdvTolerance := add_pos hthreshold hwidth
  let fall : ℝ → ℝ := fun x =>
    -(x - pdvThreshold) / (pdvThreshold + pdvThreshold * pdvTolerance) + 1
  have hfall : IsGradeOn {x | x ∈ {x | x ∈ Set.Ici 0 ∧ pdvThreshold < x} ∧
      x ≤ pdvThreshold + pdvThreshold * pdvTolerance} fall := by
    constructor
    · -- Between the threshold and its tolerance, a part of the whole is left.
      rintro x ⟨⟨-, hx⟩, hbound⟩
      have hpart :
        (x - pdvThreshold) / (pdvThreshold + pdvThreshold * pdvTolerance) ∈ Set.Icc 0 1 :=
        ⟨div_nonneg (sub_nonneg.mpr hx.le) hpos.le, (div_le_one hpos).mpr (by linarith)⟩
      obtain ⟨h0, h1⟩ := hpart
      simp only [fall, neg_div]
      constructor
      · linarith
      · linarith
    · rintro x - y - hxy
      refine add_le_add_left (div_le_div_of_nonneg_right ?_ hpos.le) 1
      linarith
  refine IsGradeOn.ite_one ((IsGradeOn.ite_zero _ hfall).congr ?_)
  rintro x -
  by_cases hx : x ≤ pdvThreshold + pdvThreshold * pdvTolerance
  · rw [if_pos hx]
    exact (if_neg (not_lt.mpr hx)).symm
  · rw [if_neg hx]
    exact (if_pos (not_le.mp hx)).symm

/-- A curve falls from 1 to a quarter. -/
theorem isGradeOn_degradationMethod {l : ℝ} (h : 0 < l) (degradation : PlDegradation) :
    IsGradeOn {x | x ∈ Set.Ici 0 ∧ x ≤ l} (Reference.degradationMethod degradation · l) := by
  have hsquare : 0 ≤ 3 / 4 / l ^ 2 := by positivity
  have hwhole : 3 / 4 / l ^ 2 * l ^ 2 = 3 / 4 := div_mul_cancel₀ _ (pow_pos h 2).ne'
  cases degradation with
  | steep =>
    -- The square of what is left up to `l`.
    have hfall : ∀ x y : ℝ, y ≤ l → x ≤ y → (y - l) ^ 2 ≤ (x - l) ^ 2 := by
      intro x y hy hxy
      nlinarith
    constructor
    · rintro x ⟨hx0, hx⟩
      have hle : 3 / 4 / l ^ 2 * (x - l) ^ 2 ≤ 3 / 4 / l ^ 2 * l ^ 2 := by
        refine mul_le_mul_of_nonneg_left ?_ hsquare
        simpa using hfall 0 x hx hx0
      have hnonneg : 0 ≤ 3 / 4 / l ^ 2 * (x - l) ^ 2 := mul_nonneg hsquare (sq_nonneg _)
      simp only [Reference.degradationMethod]
      constructor
      · linarith
      · linarith
    · rintro x - y ⟨-, hy⟩ hxy
      simp only [Reference.degradationMethod]
      exact add_le_add_left (mul_le_mul_of_nonneg_left (hfall x y hy hxy) hsquare) _
  | linear =>
    have hinv : 0 < l⁻¹ := inv_pos.mpr h
    constructor
    · rintro x ⟨hx0, hx⟩
      have hnonneg : 0 ≤ l⁻¹ * x := mul_nonneg hinv.le hx0
      have hle : l⁻¹ * x ≤ 1 := by
        calc l⁻¹ * x ≤ l⁻¹ * l := mul_le_mul_of_nonneg_left hx hinv.le
          _ = 1 := inv_mul_cancel₀ h.ne'
      simp only [Reference.degradationMethod, mul_assoc]
      constructor
      · linarith
      · linarith
    · rintro x - y - hxy
      have hle : l⁻¹ * x ≤ l⁻¹ * y := mul_le_mul_of_nonneg_left hxy hinv.le
      simp only [Reference.degradationMethod, mul_assoc]
      linarith
  | smooth =>
    have hgrow : ∀ x y : ℝ, 0 ≤ x → x ≤ y → 3 / 4 / l ^ 2 * x ^ 2 ≤ 3 / 4 / l ^ 2 * y ^ 2 :=
      fun x y hx hxy => mul_le_mul_of_nonneg_left (pow_le_pow_left₀ hx hxy 2) hsquare
    constructor
    · rintro x ⟨hx0, hx⟩
      have hle := hgrow x l hx0 hx
      have hnonneg : 0 ≤ 3 / 4 / l ^ 2 * x ^ 2 := mul_nonneg hsquare (sq_nonneg _)
      simp only [Reference.degradationMethod, neg_mul]
      constructor
      · linarith
      · linarith
    · rintro x ⟨hx0, -⟩ y - hxy
      have hle := hgrow x y hx0 hxy
      simp only [Reference.degradationMethod, neg_mul]
      linarith

theorem isGradeOn_phi4 (h : 0 < plThreshold) : IsGradeOn (Set.Ici 0)
    (ProximityEval.exact rttThreshold pdvThreshold pdvTolerance plThreshold degradation).phi4 := by
  refine (IsGradeOn.ite_zero _ (isGradeOn_degradationMethod h degradation)).congr ?_
  rintro x -
  rw [phi4_exact, Reference.assessPl]
  by_cases hx : x ≤ plThreshold
  · rw [if_pos hx]
    exact (if_neg (not_lt.mpr hx)).symm
  · rw [if_neg hx]
    exact (if_pos (not_le.mp hx)).symm

end Pieces

/-! ## Bids -/

open scoped Reference in
/-- The grades with the constants, in real arithmetic. -/
noncomputable def proximityConstants (degradation : PlDegradation) : ProximityEval ℝ :=
  ProximityEval.constants degradation fun x => 2 ^ x

/-- What `proximity_assessment` measures the metrics of. -/
def Reservation.cutTarget (reservation : Reservation) : Bytes :=
  reservation.listener.toList.take reservation.listenerLength.toNat

/-- Nothing that is measured for a target is negative. -/
structure Measurements.Nonneg (m : Measurements ℝ) (target : Bytes) : Prop where
  hops : 0 ≤ m.numberOfHopsTo target 0
  rtt : 0 ≤ m.roundTripTimeTo target
  pdv : 0 ≤ m.packetDelayVariationTo target
  pl : 0 ≤ m.packetLossTo target

/-- Nothing that is measured for a target is greater in `m` than in `m'`. -/
structure Measurements.Nearer (m m' : Measurements ℝ) (target : Bytes) : Prop where
  hops : m.numberOfHopsTo target 0 ≤ m'.numberOfHopsTo target 0
  rtt : m.roundTripTimeTo target ≤ m'.roundTripTimeTo target
  pdv : m.packetDelayVariationTo target ≤ m'.packetDelayVariationTo target
  pl : m.packetLossTo target ≤ m'.packetLossTo target

theorem Measurements.Nonneg.of_nearer {m m' : Measurements ℝ} {target : Bytes} (h : m.Nonneg target)
    (hnearer : m.Nearer m' target) : m'.Nonneg target where
  hops := h.hops.trans hnearer.hops
  rtt := h.rtt.trans hnearer.rtt
  pdv := h.pdv.trans hnearer.pdv
  pl := h.pl.trans hnearer.pl

section Bids

variable {degradation : PlDegradation} {c : CurrentCapabilities} {m m' : Measurements ℝ}
  {reservation : Reservation} {metrics : ProximityMetrics ℝ}

/-- `proximity` of `estimate_bid`. -/
noncomputable def proximityOf (degradation : PlDegradation) (m : Measurements ℝ)
    (reservation : Reservation) (metrics : ProximityMetrics ℝ) : ℝ :=
  ((proximityConstants degradation).proximityAssessment m reservation.listener
    reservation.listenerLength metrics).1

/-- **The factors of a bid.** -/
theorem estimateBid_fst (degradation : PlDegradation) (c : CurrentCapabilities) (m : Measurements ℝ)
    (reservation : Reservation) (metrics : ProximityMetrics ℝ) :
    (estimateBid c (proximityConstants degradation) m reservation metrics).1 =
      bareMetalResourceAssessment c reservation.requirements *
        ((proximityOf degradation m reservation metrics + 1) / 2) *
        currentResourceAssessment c reservation.requirements *
        (reservation.priority.toNat / 64) := by
  unfold estimateBid hysteresisAssessment maxPriority
  simp only [proximityOf]
  push_cast
  ring

theorem proximityOf_eq : proximityOf degradation m reservation metrics =
    ((proximityConstants degradation).phi2 (m.numberOfHopsTo reservation.cutTarget 0) +
      (proximityConstants degradation).phi1 (m.roundTripTimeTo reservation.cutTarget) +
      (proximityConstants degradation).phi3 (m.packetDelayVariationTo reservation.cutTarget) +
      (proximityConstants degradation).phi4 (m.packetLossTo reservation.cutTarget)) / 4 :=
  proximityAssessment_fst _ _ _ _ _

theorem isGradeOn_constants (degradation : PlDegradation) :
    IsGradeOn (Set.Ici 0) (proximityConstants degradation).phi1 ∧
      IsGradeOn (Set.Ici 0) (proximityConstants degradation).phi2 ∧
      IsGradeOn (Set.Ici 0) (proximityConstants degradation).phi3 ∧
      IsGradeOn (Set.Ici 0) (proximityConstants degradation).phi4 :=
  ⟨isGradeOn_phi1 (by norm_num), isGradeOn_phi2, isGradeOn_phi3 (by norm_num) (by norm_num),
    isGradeOn_phi4 (by norm_num)⟩

theorem proximityOf_mem_Icc (degradation : PlDegradation) (metrics : ProximityMetrics ℝ)
    (h : m.Nonneg reservation.cutTarget) :
    proximityOf degradation m reservation metrics ∈ Set.Icc 0 1 := by
  obtain ⟨hrtt, hhops, hpdv, hpl⟩ := isGradeOn_constants degradation
  obtain ⟨hrtt0, hrtt1⟩ := hrtt.mem_Icc _ h.rtt
  obtain ⟨hhops0, hhops1⟩ := hhops.mem_Icc _ h.hops
  obtain ⟨hpdv0, hpdv1⟩ := hpdv.mem_Icc _ h.pdv
  obtain ⟨hpl0, hpl1⟩ := hpl.mem_Icc _ h.pl
  rw [proximityOf_eq]
  constructor
  · linarith
  · linarith

theorem proximityOf_antitone (degradation : PlDegradation) (metrics : ProximityMetrics ℝ)
    (h : m.Nonneg reservation.cutTarget)
    (hnearer : m.Nearer m' reservation.cutTarget) :
    proximityOf degradation m' reservation metrics ≤
    proximityOf degradation m reservation metrics := by
  have h' := h.of_nearer hnearer
  obtain ⟨hrtt, hhops, hpdv, hpl⟩ := isGradeOn_constants degradation
  rw [proximityOf_eq, proximityOf_eq]
  refine div_le_div_of_nonneg_right ?_ zero_le_four
  refine add_le_add (add_le_add (add_le_add ?_ ?_) ?_) ?_
  · exact hhops.antitone h.hops h'.hops hnearer.hops
  · exact hrtt.antitone h.rtt h'.rtt hnearer.rtt
  · exact hpdv.antitone h.pdv h'.pdv hnearer.pdv
  · exact hpl.antitone h.pl h'.pl hnearer.pl

theorem bareMetalResourceAssessment_mem_Icc (requirements : RequestingCapabilities) :
    (bareMetalResourceAssessment c requirements : ℝ) ∈ Set.Icc 0 1 := by
  unfold bareMetalResourceAssessment
  split_ifs
  · exact unitInterval.one_mem
  · exact unitInterval.zero_mem

theorem currentResourceAssessment_mem_Icc {requirements : RequestingCapabilities}
    (h : ∀ grades : List ℝ, individualAssessments c 0 requirements.orderedItems = some grades →
      ∀ r ∈ grades, r ∈ Set.Icc 0 1) :
    (currentResourceAssessment c requirements : ℝ) ∈ Set.Icc 0 1 := by
  unfold currentResourceAssessment
  rcases hgrades : individualAssessments c 0 requirements.orderedItems with _ | (_ | ⟨r, grades⟩)
  · exact unitInterval.zero_mem
  · exact unitInterval.zero_mem
  · -- The weight is 0.
    refine blend_mem_Icc ?_ ?_ (h _ hgrades)
    · exact Int.cast_nonneg (by decide)
    · exact_mod_cast (show currentResourcesEvalThreshold ≤ 1 by decide)

/--
**Bids are between 0 and 1**, do not decrease with the priority, and do not increase with the number
of hops, the RTT, the packet delay variation or the packet loss.
-/
theorem estimateBid_scaled (degradation : PlDegradation) (c : CurrentCapabilities)
    (m : Measurements ℝ) (reservation : Reservation) (metrics : ProximityMetrics ℝ)
    (hpriority : reservation.priority.toNat ≤ 7)
    (hgrades : ∀ grades : List ℝ,
      individualAssessments c 0 reservation.requirements.orderedItems = some grades →
        ∀ r ∈ grades, r ∈ Set.Icc 0 1)
    (hm : m.Nonneg reservation.cutTarget) :
    (estimateBid c (proximityConstants degradation) m reservation metrics).1 ∈ Set.Icc 0 1 ∧
    (∀ priority : UInt8, reservation.priority ≤ priority → priority.toNat ≤ 7 →
      (estimateBid c (proximityConstants degradation) m reservation metrics).1 ≤
        (estimateBid c (proximityConstants degradation) m (reservation.setPriority priority)
          metrics).1) ∧
    ∀ m' : Measurements ℝ, m.Nearer m' reservation.cutTarget →
      (estimateBid c (proximityConstants degradation) m' reservation metrics).1 ≤
        (estimateBid c (proximityConstants degradation) m reservation metrics).1 := by
  have hbare := bareMetalResourceAssessment_mem_Icc (c := c) reservation.requirements
  have hcurrent := currentResourceAssessment_mem_Icc hgrades
  have hhalf : ∀ {m : Measurements ℝ}, m.Nonneg reservation.cutTarget →
      (proximityOf degradation m reservation metrics + 1) / 2 ∈ Set.Icc (0 : ℝ) 1 := by
    intro m hm
    obtain ⟨h0, h1⟩ := proximityOf_mem_Icc degradation metrics hm
    constructor
    · linarith
    · linarith
  have hfairness : (reservation.priority.toNat / 64 : ℝ) ∈ Set.Icc 0 1 := by
    have hle : (reservation.priority.toNat : ℝ) ≤ 7 := by exact_mod_cast hpriority
    constructor
    · positivity
    · linarith
  refine ⟨?_, ?_, ?_⟩
  · rw [estimateBid_fst]
    exact unitInterval.mul_mem
      (unitInterval.mul_mem (unitInterval.mul_mem hbare (hhalf hm)) hcurrent) hfairness
  · intro priority hle hpriority'
    rw [estimateBid_fst, estimateBid_fst]
    refine mul_le_mul_of_nonneg_left ?_ ?_
    · refine div_le_div_of_nonneg_right ?_ (by norm_num)
      exact_mod_cast hle
    · exact mul_nonneg (mul_nonneg hbare.1 (hhalf hm).1) hcurrent.1
  · intro m' hnearer
    rw [estimateBid_fst, estimateBid_fst]
    have hproximity := proximityOf_antitone degradation metrics hm hnearer
    refine mul_le_mul_of_nonneg_right (mul_le_mul_of_nonneg_right
      (mul_le_mul_of_nonneg_left ?_ hbare.1) hcurrent.1) hfairness.1
    linarith

end Bids

/-- A node of four cores and 16 units of memory, all of which is available. -/
def CurrentCapabilities.idle : CurrentCapabilities := ⟨4, 16, fun _ => 16, Nat.succ_pos 15⟩

theorem estimateBid_scaled_idle :
    (estimateBid .idle (proximityConstants .smooth) (oneHop 35)
        (Reservation.new ⟨[(.compMemory, some 1)], [(0, .compMemory, some 1)]⟩ 3) ∅).1 ∈
      Set.Icc 0 1 := by
  refine (estimateBid_scaled .smooth .idle (oneHop 35)
    (Reservation.new ⟨[(.compMemory, some 1)], [(0, .compMemory, some 1)]⟩ 3) ∅ (by decide) ?_ ?_).1
  · intro grades hgrades
    have hone : grades = [1] := by
      simpa [Reservation.new, individualAssessments, CurrentCapabilities.currentMemory,
        CurrentCapabilities.idle, eq_comm] using hgrades
    simp [hone]
  · constructor
    · exact zero_le_one
    · exact le_rfl
    · show (0 : ℝ) ≤ 35
      norm_num
    · exact le_rfl

end Rankd

import Mathlib.Analysis.SpecialFunctions.Pow.Real
import Rankd.Node.Assessment

/-!
# The grade of the proximity

* `proximity_reference_iff`: the grades are those of the reference model but for the packet delay
  variation, whose fall between the threshold and its tolerance is divided by both together
* `renewMetrics_refreshes_iff`: the thread compares nanoseconds with the 60 of the constant, and
  writes grades of the number of hops where measurements belong
-/

namespace Rankd

open Infra

/-! ## The reference -/

namespace Reference

-- One named instance for each numeral, in whichever module the reference is used.
scoped instance atLeastTwo_two : Nat.AtLeastTwo 2 := ⟨by decide⟩

scoped instance atLeastTwo_three : Nat.AtLeastTwo 3 := ⟨by decide⟩

scoped instance atLeastTwo_four : Nat.AtLeastTwo 4 := ⟨by decide⟩

/-- The conversion of a `float` by `int`. -/
noncomputable def int (x : ℝ) : ℤ := if 0 ≤ x then ⌊x⌋ else ⌈x⌉

noncomputable def assessRtt (threshold x : ℝ) : ℝ :=
  if x ≤ threshold then 1 else 2 ^ (-(x - threshold) / threshold)

noncomputable def assessNumberOfHops (x : ℝ) : ℝ := 2 ^ (-int x)

noncomputable def assessPdv (threshold tolerance x : ℝ) : ℝ :=
  if x ≤ threshold then 1
  else if x > threshold ∧ x < threshold + threshold * tolerance then
    -((x - threshold) / (threshold * tolerance)) + 1
  else 0

/-- `DegradationMethod`. -/
noncomputable def degradationMethod : PlDegradation → ℝ → ℝ → ℝ
  | .steep, x, l => 3 / 4 / l ^ 2 * (x - l) ^ 2 + 1 / 4
  | .linear, x, l => -(3 / 4) * l⁻¹ * x + 1
  | .smooth, x, l => -(3 / 4 / l ^ 2) * x ^ 2 + 1

noncomputable def assessPl (threshold : ℝ) (degradation : PlDegradation) (x : ℝ) : ℝ :=
  if x > threshold then 0 else degradationMethod degradation x threshold

/-- `assess_proximity` with what the peer returns and with the thresholds of the node. -/
noncomputable def assessProximity (e : ProximityEval ℝ) (rtt numberOfHops pdv pl : ℝ) : ℝ :=
  (assessRtt e.rttThreshold rtt + assessNumberOfHops numberOfHops +
    assessPdv e.pdvThreshold e.pdvTolerance pdv + assessPl e.plThreshold e.degradation pl) / 4

end Reference

open scoped Reference in
/-- The grades with any thresholds, in real arithmetic. -/
noncomputable def ProximityEval.exact (rttThreshold pdvThreshold pdvTolerance plThreshold : ℝ)
    (degradation : PlDegradation) : ProximityEval ℝ where
  rttThreshold := rttThreshold
  pdvThreshold := pdvThreshold
  pdvTolerance := pdvTolerance
  plThreshold := plThreshold
  degradation := degradation
  powTwo := fun x => 2 ^ x

section Grades

variable {rttThreshold pdvThreshold pdvTolerance plThreshold : ℝ} {degradation : PlDegradation}

theorem phi1_exact (x : ℝ) :
    (ProximityEval.exact rttThreshold pdvThreshold pdvTolerance plThreshold degradation).phi1 x =
      Reference.assessRtt rttThreshold x := by
  unfold ProximityEval.phi1 Reference.assessRtt
  rw [neg_div]
  by_cases h : x ≤ rttThreshold
  · simp [ProximityEval.exact, h]
  · simp [ProximityEval.exact, h]

theorem phi2_exact {x : ℝ} (h : 0 ≤ x) :
    (ProximityEval.exact rttThreshold pdvThreshold pdvTolerance plThreshold degradation).phi2 x =
      Reference.assessNumberOfHops x := by
  unfold ProximityEval.phi2 Reference.assessNumberOfHops Reference.int
  rw [if_pos h, ← Real.rpow_intCast, Int.cast_neg]
  rfl

theorem phi4_exact (x : ℝ) :
    (ProximityEval.exact rttThreshold pdvThreshold pdvTolerance plThreshold degradation).phi4 x =
      Reference.assessPl plThreshold degradation x := by
  unfold ProximityEval.phi4 Reference.assessPl Reference.degradationMethod
  cases degradation <;> rfl

/-- **The grade of the packet delay variation**: it falls by a part of the threshold and its
tolerance together, so it is not 0 where the tolerance ends. -/
theorem phi3_exact_iff (hthreshold : 0 < pdvThreshold) (htolerance : 0 < pdvTolerance) (x : ℝ) :
    (ProximityEval.exact rttThreshold pdvThreshold pdvTolerance plThreshold degradation).phi3 x =
        Reference.assessPdv pdvThreshold pdvTolerance x ↔
      x ≤ pdvThreshold ∨ pdvThreshold + pdvThreshold * pdvTolerance < x := by
  have hwidth : 0 < pdvThreshold * pdvTolerance := mul_pos hthreshold htolerance
  unfold ProximityEval.phi3 Reference.assessPdv
  simp only [ProximityEval.exact, gt_iff_lt]
  by_cases hle : x ≤ pdvThreshold
  · simp [hle]
  have hlt : pdvThreshold < x := not_le.mp hle
  rw [if_neg hle, if_neg hle]
  by_cases hbeyond : pdvThreshold + pdvThreshold * pdvTolerance < x
  · rw [if_pos hbeyond, if_neg fun h => lt_asymm hbeyond h.2]
    simp [hbeyond]
  · -- Between the two, the code has more left than the reference.
    rw [if_neg hbeyond]
    refine iff_of_false ?_ (not_or.mpr ⟨hle, hbeyond⟩)
    have hpart : (x - pdvThreshold) / (pdvThreshold + pdvThreshold * pdvTolerance) <
        (x - pdvThreshold) / (pdvThreshold * pdvTolerance) :=
      div_lt_div_of_pos_left (sub_pos.mpr hlt) hwidth (lt_add_of_pos_left _ hthreshold)
    rw [neg_div]
    split_ifs with hinside
    · intro h
      linarith
    · have hend : x = pdvThreshold + pdvThreshold * pdvTolerance :=
        le_antisymm (not_lt.mp hbeyond) (not_lt.mp fun h => hinside ⟨hlt, h⟩)
      have hone : (x - pdvThreshold) / (pdvThreshold * pdvTolerance) = 1 := by
        rw [hend, add_sub_cancel_left, div_self hwidth.ne']
      intro h
      linarith

/--
**The grade of the proximity is the one of the reference** exactly if the packet delay variation is
at most the threshold, or above it by more than the tolerance.
-/
theorem proximity_reference_iff (hthreshold : 0 < pdvThreshold) (htolerance : 0 < pdvTolerance)
    (m : Measurements ℝ) (target : Vector UInt8 16) (targetLength : UInt8)
    (metrics : ProximityMetrics ℝ)
    (hhops : 0 ≤ m.numberOfHopsTo (target.toList.take targetLength.toNat) 0) :
    let e := ProximityEval.exact rttThreshold pdvThreshold pdvTolerance plThreshold degradation
    let cutTarget := target.toList.take targetLength.toNat
    (e.proximityAssessment m target targetLength metrics).1 =
        Reference.assessProximity e (m.roundTripTimeTo cutTarget) (m.numberOfHopsTo cutTarget 0)
          (m.packetDelayVariationTo cutTarget) (m.packetLossTo cutTarget) ↔
      m.packetDelayVariationTo cutTarget ≤ pdvThreshold ∨
        pdvThreshold + pdvThreshold * pdvTolerance < m.packetDelayVariationTo cutTarget := by
  intro e cutTarget
  have hpdv : e.phi3 (m.packetDelayVariationTo cutTarget) =
        Reference.assessPdv pdvThreshold pdvTolerance (m.packetDelayVariationTo cutTarget) ↔ _ :=
    phi3_exact_iff hthreshold htolerance _
  have hrtt : e.phi1 (m.roundTripTimeTo cutTarget) = _ := phi1_exact _
  have hhops : e.phi2 (m.numberOfHopsTo cutTarget 0) = _ := phi2_exact hhops
  have hpl : e.phi4 (m.packetLossTo cutTarget) = _ := phi4_exact _
  have hsum : Reference.assessProximity e (m.roundTripTimeTo cutTarget)
      (m.numberOfHopsTo cutTarget 0) (m.packetDelayVariationTo cutTarget)
      (m.packetLossTo cutTarget) =
        (e.phi1 (m.roundTripTimeTo cutTarget) + e.phi2 (m.numberOfHopsTo cutTarget 0) +
          Reference.assessPdv pdvThreshold pdvTolerance (m.packetDelayVariationTo cutTarget) +
          e.phi4 (m.packetLossTo cutTarget)) / 4 := by
    rw [hrtt, hhops, hpl]
    rfl
  rw [← hpdv, hsum, proximityAssessment_fst]
  constructor
  · intro h
    have hmean := (div_left_inj' (four_ne_zero' ℝ)).mp h
    linarith
  · intro h
    rw [h]
    ring

end Grades

/-- A target one hop away whose packet delay varies as given, with an RTT and a loss of 0. -/
def oneHop (pdv : ℝ) : Measurements ℝ where
  now := fun _ _ => 0
  numberOfHopsTo := fun _ _ => 1
  roundTripTimeTo := fun _ => 0
  packetDelayVariationTo := fun _ => pdv
  packetLossTo := fun _ => 0

theorem proximity_reference_iff_constants :
    ((ProximityEval.exact 100 30 (3 / 10) 10 .linear).proximityAssessment (oneHop 20)
        (.replicate 16 0) 16 ∅).1 =
        Reference.assessProximity (.exact 100 30 (3 / 10) 10 .linear) 0 1 20 0 ↔
      (20 : ℝ) ≤ 30 ∨ (30 : ℝ) + 30 * (3 / 10) < 20 :=
  proximity_reference_iff (by norm_num) (by norm_num) (oneHop 20) (.replicate 16 0) 16 ∅ zero_le_one

/-- At 35 with the constants, 4/9 are left in the reference, and 34/39 in the code. -/
theorem proximity_reference_band :
    ((ProximityEval.exact 100 30 (3 / 10) 10 .linear).proximityAssessment (oneHop 35)
        (.replicate 16 0) 16 ∅).1 ≠
      Reference.assessProximity (.exact 100 30 (3 / 10) 10 .linear) 0 1 35 0 := by
  rw [proximityAssessment_fst]
  show ((ProximityEval.exact 100 30 (3 / 10) 10 .linear).phi2 1 +
    (ProximityEval.exact 100 30 (3 / 10) 10 .linear).phi1 0 +
    (ProximityEval.exact 100 30 (3 / 10) 10 .linear).phi3 35 +
    (ProximityEval.exact 100 30 (3 / 10) 10 .linear).phi4 0) / 4 ≠
      (Reference.assessRtt 100 0 + Reference.assessNumberOfHops 1 +
        Reference.assessPdv 30 (3 / 10) 35 + Reference.assessPl 10 .linear 0) / 4
  rw [phi1_exact, phi2_exact zero_le_one, phi4_exact]
  have hcode : (ProximityEval.exact 100 30 (3 / 10) 10 .linear).phi3 35 = 34 / 39 := by
    norm_num [ProximityEval.phi3, ProximityEval.exact]
  have hreference : Reference.assessPdv 30 (3 / 10) 35 = 4 / 9 := by
    norm_num [Reference.assessPdv]
  rw [hcode, hreference]
  intro h
  linarith

/-! ## The thread -/

section Renew

variable {D : Type} {phi2 : D → D} {m : Measurements D} {metrics metrics' : ProximityMetrics D}

/-- `RANK_DURATION_OLD` in the ticks of the clock, which are nanoseconds. -/
def durationOldTicks : Int := durationOld * 10 ^ 9

/-- The last measurements of the hops, and the measurements of the other metrics. -/
def Measured (m : Measurements D) (target : Bytes) (entry : Metrics D) : Prop :=
  entry.hops = some (m.numberOfHopsTo target 3) ∧ entry.rtt = some (m.roundTripTimeTo target) ∧
    entry.pdv = some (m.packetDelayVariationTo target) ∧ entry.pl = some (m.packetLossTo target)

/-- One round removes exactly the old targets and stores the measurements for the others. -/
structure Refreshed (m : Measurements D) (metrics metrics' : ProximityMetrics D) : Prop where
  /-- No target is new. -/
  absent : ∀ target, metrics.find? target = none → metrics'.find? target = none
  removed : ∀ target entry, metrics.find? target = some entry →
    (metrics'.find? target = none ↔ m.now target 0 - entry.timestamp ≥ durationOldTicks)
  remaining : ∀ target entry entry', metrics.find? target = some entry →
    metrics'.find? target = some entry' →
      entry'.timestamp = entry.timestamp ∧ Measured m target entry'

/-- What is stored for a target that is kept is what was measured. -/
theorem measured_renewed {target : Bytes} {entry : Metrics D} :
    Measured m target (entry.renewed phi2 m target) ↔
      phi2 (m.numberOfHopsTo target 1) = m.roundTripTimeTo target ∧
        phi2 (m.numberOfHopsTo target 2) = m.packetDelayVariationTo target ∧
        phi2 (m.numberOfHopsTo target 3) = m.packetLossTo target := by
  unfold Measured Metrics.renewed
  simp

/--
**A round refreshes the table** exactly if each target is old by the clock, or was used less than 60
nanoseconds ago and the measurements happen to be the grades of its numbers of hops.
-/
theorem renewMetrics_refreshes_iff (phi2 : D → D) (m : Measurements D)
    (metrics : ProximityMetrics D) : Refreshed m metrics (renewMetrics phi2 m metrics) ↔
      ∀ target entry, metrics.find? target = some entry →
        m.now target 0 - entry.timestamp ≥ durationOldTicks ∨
          m.now target 0 - entry.timestamp < durationOld ∧
            phi2 (m.numberOfHopsTo target 1) = m.roundTripTimeTo target ∧
            phi2 (m.numberOfHopsTo target 2) = m.packetDelayVariationTo target ∧
            phi2 (m.numberOfHopsTo target 3) = m.packetLossTo target := by
  have hticks : durationOld ≤ durationOldTicks := by decide
  constructor
  · intro h target entry hentry
    have hremoved := h.removed target entry hentry
    have hremaining := h.remaining target entry
    rw [find?_renewMetrics, hentry, Option.bind_some] at hremoved hremaining
    by_cases hold : m.now target 0 - entry.timestamp ≥ durationOld
    · rw [if_pos hold] at hremoved
      exact Or.inl (hremoved.mp rfl)
    · rw [if_neg hold] at hremaining
      exact Or.inr ⟨not_le.mp hold, measured_renewed.mp (hremaining _ rfl rfl).2⟩
  · intro h
    constructor
    · intro target hnone
      rw [find?_renewMetrics, hnone, Option.bind_none]
    · intro target entry hentry
      rw [find?_renewMetrics, hentry, Option.bind_some]
      rcases h target entry hentry with hold | ⟨hnew, -⟩
      · rw [if_pos (hticks.trans hold)]
        exact iff_of_true rfl hold
      · rw [if_neg (not_le.mpr hnew)]
        refine iff_of_false (Option.some_ne_none _) ?_
        exact not_le.mpr (hnew.trans_le hticks)
    · intro target entry entry' hentry hentry'
      rw [find?_renewMetrics, hentry, Option.bind_some] at hentry'
      rcases h target entry hentry with hold | ⟨hnew, hmeasured⟩
      · rw [if_pos (hticks.trans hold)] at hentry'
        cases hentry'
      · rw [if_neg (not_le.mpr hnew)] at hentry'
        cases hentry'
        exact ⟨rfl, measured_renewed.mpr hmeasured⟩

/-- A target that was used a second ago is removed. -/
theorem renewMetrics_refreshes_second :
    ¬∀ (phi2 : ℝ → ℝ) (m : Measurements ℝ) (metrics : ProximityMetrics ℝ),
      Refreshed m metrics (renewMetrics phi2 m metrics) := by
  intro hall
  let e := ProximityEval.exact 100 30 (3 / 10) 10 .linear
  let m : Measurements ℝ := { oneHop 0 with now := fun _ _ => 10 ^ 9 }
  let metrics : ProximityMetrics ℝ := OrdMap.insertNew ∅ [1] ⟨0, some 1, none, none, none⟩
  have hentry : metrics.find? [1] = some ⟨0, some 1, none, none, none⟩ := by simp [metrics]
  have hremoved := (hall e.phi2 m metrics).removed [1] _ hentry
  rw [find?_renewMetrics, hentry, Option.bind_some, if_pos (by decide)] at hremoved
  exact absurd (hremoved.mp rfl) (by decide)

end Renew

end Rankd

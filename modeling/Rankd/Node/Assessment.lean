import Mathlib.Data.Nat.Cast.Order.Field
import Rankd.Infra.Blend
import Rankd.Node.Proximity
import Rankd.Node.Resources

/-!
# The assessment of a request

`estimate_bid` of `structs/resources.cpp` and the grades that it multiplies, with what they read of
`structs/current_capabilities.cpp`.

The `double`s are numbers of an ordered field, so nothing is rounded. What is computed in integers
stays so: `RANK_CURRENT_RESOURCES_EVAL_THRESHOLD` is `(2/3)`, and `current_memory` divides two
`size_t`.
-/

namespace Rankd

open Infra

/-! ## The capabilities of a node -/

/--
What `CurrentCapabilities` reads of its data sources. Each assessment of memory takes a new
snapshot, which changes what is available.
-/
structure CurrentCapabilities where
  cores : Nat
  total : Nat
  available : Nat → Nat
  total_pos : 0 < total

namespace CurrentCapabilities

variable (c : CurrentCapabilities) {K : Type} [Field K]

/-- Returns a `uint`. -/
def bareMetalCpuCores : UInt32 := UInt32.ofNat c.cores

/-- Returns a `uint`. -/
def bareMetalMemory : UInt32 := UInt32.ofNat c.total

def currentCpuCores : K := 1

/-- The quotient of two `size_t`. -/
def currentMemory (snapshot : Nat) : K := ((c.available snapshot / c.total : Nat) : K)

end CurrentCapabilities

/-! ## The assessments -/

/-- `RANK_MAX_PRIORITY`. -/
def maxPriority : Nat := 8

/-- `RANK_CURRENT_RESOURCES_EVAL_THRESHOLD`. -/
def currentResourcesEvalThreshold : Int := 2 / 3

section Assess

variable {K : Type} [Field K] [LinearOrder K] (c : CurrentCapabilities)

/-- The loop of `bare_metal_resource_assessment` does not return at an item. -/
def passesBareMetal (item : CapabilityItemType × Any) : Bool :=
  match item.2 with
  | none => false
  | some value =>
    match item.1 with
    | .compCpu => !decide (value ≥ c.bareMetalCpuCores)
    | .compMemory => !decide (value ≥ c.bareMetalMemory)
    | .time | .timeTas | .timeCbs | .net | .netBandwidth | .netDds | .comp | .unspecified => true

def bareMetalResourceAssessment (requirements : RequestingCapabilities) : K :=
  if requirements.orderedItems.all fun e => passesBareMetal c e.2 then 1 else 0

/--
The loop of `current_resource_assessment`, from a snapshot of the memory on: the individual grades,
`none` where it returns 0.
-/
def individualAssessments : Nat → List (UInt8 × CapabilityItemType × Any) → Option (List K)
  | _, [] => some []
  | snapshot, (_, type, value) :: rest =>
    if value.isNone then none
    else
      match type with
      | .compCpu =>
        let value : K := CurrentCapabilities.currentCpuCores
        if value = 0 then none
        else (individualAssessments snapshot rest).map (value :: ·)
      | .compMemory =>
        let value : K := c.currentMemory snapshot
        if value = 0 then none
        else (individualAssessments (snapshot + 1) rest).map (value :: ·)
      | .time | .timeTas | .timeCbs | .net | .netBandwidth | .netDds | .comp | .unspecified =>
        individualAssessments snapshot rest

/-- The function `alpha` of `current_resource_assessment`. -/
def alpha (grades : List K) : K := blend (currentResourcesEvalThreshold : K) grades

def currentResourceAssessment (requirements : RequestingCapabilities) : K :=
  match individualAssessments c 0 requirements.orderedItems with
  | none | some [] => 0
  | some grades => alpha grades

def hysteresisAssessment (_reservation : Reservation) : K := 1

/-- `estimate_bid`, which updates the proximity metrics. -/
def estimateBid [FloorRing K] (e : ProximityEval K) (m : Measurements K) (reservation : Reservation)
    (metrics : ProximityMetrics K) : K × ProximityMetrics K :=
  let nodeResources := bareMetalResourceAssessment c reservation.requirements
  let currentResources := currentResourceAssessment c reservation.requirements
  let fairness := (reservation.priority.toNat : K) / maxPriority
  let proximity := e.proximityAssessment m reservation.listener reservation.listenerLength metrics
  let hysteresis := hysteresisAssessment reservation
  (nodeResources * (proximity.1 + hysteresis) / 2 * currentResources * (fairness / maxPriority),
    proximity.2)

end Assess

/-! ## What they are -/

section Lemmas

variable {K : Type} [Field K]

/-- The threshold is 0, so `alpha` is the last grade. -/
theorem alpha_eq_getLast {grades : List K} (h : grades ≠ []) : alpha grades = grades.getLast h := by
  unfold alpha currentResourcesEvalThreshold
  rw [show (2 / 3 : Int) = 0 from rfl, Int.cast_zero]
  exact blend_zero h

theorem proximityAssessment_fst [LinearOrder K] [FloorRing K] (e : ProximityEval K)
    (m : Measurements K)
    (target : Vector UInt8 16) (targetLength : UInt8) (metrics : ProximityMetrics K) :
    (e.proximityAssessment m target targetLength metrics).1 =
      (e.phi2 (m.numberOfHopsTo (target.toList.take targetLength.toNat) 0) +
        e.phi1 (m.roundTripTimeTo (target.toList.take targetLength.toNat)) +
        e.phi3 (m.packetDelayVariationTo (target.toList.take targetLength.toNat)) +
        e.phi4 (m.packetLossTo (target.toList.take targetLength.toNat))) / 4 := by
  unfold ProximityEval.proximityAssessment proximityHopsAssessment proximityRttAssessment
    proximityPdvAssessment proximityPlAssessment
  simp only [proximityMetricAssessment_fst]

end Lemmas

end Rankd

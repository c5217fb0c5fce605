import Mathlib.Algebra.Order.Floor.Defs
import Mathlib.Algebra.Order.Floor.Ring
import Mathlib.Algebra.Field.Basic
import Mathlib.Data.List.Lex
import Rankd.Infra.Bytes
import Rankd.Infra.OrdMap

/-!
# Proximity

The proximity metrics of `structs/resources.cpp`: the table of what was measured for each target,
its grades, and the thread that keeps it up to date.

The table holds values of any type. The grades are numbers of an ordered field, so nothing is
rounded; `pow(2, ·)` is a parameter.
-/

namespace Rankd

open Infra

/-! ## The table -/

/-- An entry of `_proximity_metrics`. A metric that was never measured is `NAN`, which is `none`. -/
structure Metrics (D : Type) where
  /-- Of the last use, in nanoseconds. -/
  timestamp : Int
  hops : Option D
  rtt : Option D
  pdv : Option D
  pl : Option D
  deriving DecidableEq

abbrev ProximityMetrics (D : Type) := OrdMap Bytes (Metrics D)

/-- `system_clock::now()` and the four measurement functions; the first two at each
of their calls. -/
structure Measurements (D : Type) where
  now : Bytes → Nat → Int
  numberOfHopsTo : Bytes → Nat → D
  roundTripTimeTo : Bytes → D
  packetDelayVariationTo : Bytes → D
  packetLossTo : Bytes → D

section Table

variable {D : Type}

/--
The four `proximity_*_assessment`: they differ in the metric that they set and in the grade. What is
read back of the table is what was just measured.
-/
def proximityMetricAssessment (set : D → Metrics D → Metrics D) (phi : D → D) (now : Int)
    (measured : D)
    (target : Bytes) (update : Bool) (metrics : ProximityMetrics D) : D × ProximityMetrics D :=
  match metrics.find? target with
  | some entry =>
    let entry := if update then { entry with timestamp := now } else entry
    (phi measured, metrics.assign target (set measured entry))
  | none =>
    (phi measured, metrics.insertNew target (set measured ⟨now, none, none, none, none⟩))

def setHops (value : D) (entry : Metrics D) : Metrics D := { entry with hops := some value }

def setRtt (value : D) (entry : Metrics D) : Metrics D := { entry with rtt := some value }

def setPdv (value : D) (entry : Metrics D) : Metrics D := { entry with pdv := some value }

def setPl (value : D) (entry : Metrics D) : Metrics D := { entry with pl := some value }

/-- `proximity_hops_assessment` with what `now()` and `number_of_hops_to` return. -/
def proximityHopsAssessment (phi2 : D → D) : Int → D → Bytes → Bool → ProximityMetrics D →
    D × ProximityMetrics D :=
  proximityMetricAssessment setHops phi2

/-- `proximity_rtt_assessment` with what `now()` and `round_trip_time_to` return. -/
def proximityRttAssessment (phi1 : D → D) : Int → D → Bytes → Bool → ProximityMetrics D →
    D × ProximityMetrics D :=
  proximityMetricAssessment setRtt phi1

/-- `proximity_pdv_assessment` with what `now()` and `packet_delay_variation_to` return. -/
def proximityPdvAssessment (phi3 : D → D) : Int → D → Bytes → Bool → ProximityMetrics D →
    D × ProximityMetrics D :=
  proximityMetricAssessment setPdv phi3

/-- `proximity_pl_assessment` with what `now()` and `packet_loss_to` return. -/
def proximityPlAssessment (phi4 : D → D) : Int → D → Bytes → Bool → ProximityMetrics D →
    D × ProximityMetrics D :=
  proximityMetricAssessment setPl phi4

/-! ## The thread -/

/-- `RANK_DURATION_OLD`, in seconds. -/
def durationOld : Int := 60

/-- A write through a reference to a metric. -/
def writeMetric (set : D → Metrics D → Metrics D) (target : Bytes) (value : D)
    (metrics : ProximityMetrics D) : ProximityMetrics D :=
  match metrics.find? target with
  | some entry => metrics.assign target (set value entry)
  | none => metrics

/-- An assignment of `proximity_hops_assessment`, which itself sets the hops, to a metric. -/
def assignHopsAssessment (phi2 : D → D) (m : Measurements D) (target : Bytes) (call : Nat)
    (set : D → Metrics D → Metrics D) (metrics : ProximityMetrics D) : ProximityMetrics D :=
  let hops := proximityHopsAssessment phi2 (m.now target (call + 1)) (m.numberOfHopsTo target call)
    target false metrics
  writeMetric set target hops.1 hops.2

/-- The `else` branch of the loop of `operator()`: all four metrics are assigned the same
function. -/
def renewTarget (phi2 : D → D) (m : Measurements D) (target : Bytes)
    (metrics : ProximityMetrics D) : ProximityMetrics D :=
  let metrics := assignHopsAssessment phi2 m target 0 setHops metrics
  let metrics := assignHopsAssessment phi2 m target 1 setRtt metrics
  let metrics := assignHopsAssessment phi2 m target 2 setPdv metrics
  assignHopsAssessment phi2 m target 3 setPl metrics

/-- The loop of `operator()` over the targets, with the keys to remove. -/
def renewLoop (phi2 : D → D) (m : Measurements D) :
    List Bytes → ProximityMetrics D → List Bytes → ProximityMetrics D × List Bytes
  | [], metrics, keysToRemove => (metrics, keysToRemove)
  | target :: rest, metrics, keysToRemove =>
    match metrics.find? target with
    | some entry =>
      if m.now target 0 - entry.timestamp ≥ durationOld then
        renewLoop phi2 m rest metrics (keysToRemove ++ [target])
      else
        renewLoop phi2 m rest (renewTarget phi2 m target metrics) keysToRemove
    -- the loop is over the keys of the table
    | none => renewLoop phi2 m rest metrics keysToRemove

/-- What a round of `operator()` does to the table. -/
def renewMetrics (phi2 : D → D) (m : Measurements D) (metrics : ProximityMetrics D) :
    ProximityMetrics D :=
  let renewed := renewLoop phi2 m metrics.keys metrics []
  renewed.2.foldl (fun metrics target => metrics.erase target) renewed.1

end Table

/-! ## Grades -/

/-- `PL_STEEP` and `PL_SMOOTH`, or neither. -/
inductive PlDegradation
  | steep | linear | smooth
  deriving DecidableEq, Repr

/-- `RANK_PROXIMITY_EVAL_*` and `pow(2, ·)`. -/
structure ProximityEval (K : Type) where
  rttThreshold : K
  pdvThreshold : K
  pdvTolerance : K
  plThreshold : K
  degradation : PlDegradation
  powTwo : K → K

section Grades

variable {K : Type} [Field K] [LinearOrder K] [FloorRing K]

/-- The thresholds of `constants.h`. -/
def ProximityEval.constants (degradation : PlDegradation) (powTwo : K → K) : ProximityEval K where
  rttThreshold := 100
  pdvThreshold := 30
  pdvTolerance := 3 / 10
  plThreshold := 10
  degradation := degradation
  powTwo := powTwo

namespace ProximityEval

variable (e : ProximityEval K)

/-- Of the RTT. -/
def phi1 (metric : K) : K :=
  if metric ≤ e.rttThreshold then 1
  else e.powTwo (-((metric - e.rttThreshold) / e.rttThreshold))

/-- Of the number of hops. -/
def phi2 (metric : K) : K := e.powTwo (-(⌊metric⌋ : K))

/-- Of the packet delay variation. -/
def phi3 (metric : K) : K :=
  if metric ≤ e.pdvThreshold then 1
  else if metric > e.pdvThreshold + e.pdvThreshold * e.pdvTolerance then 0
  else -(metric - e.pdvThreshold) / (e.pdvThreshold + e.pdvThreshold * e.pdvTolerance) + 1

/-- Of the packet loss. -/
def phi4 (metric : K) : K :=
  if metric > e.plThreshold then 0
  else
    match e.degradation with
    | .steep => 3 / 4 / e.plThreshold ^ 2 * (metric - e.plThreshold) ^ 2 + 1 / 4
    | .linear => -(3 / 4) * e.plThreshold⁻¹ * metric + 1
    | .smooth => -(3 / 4 / e.plThreshold ^ 2) * metric ^ 2 + 1

/-- `proximity_assessment`. -/
def proximityAssessment (m : Measurements K) (target : Vector UInt8 16) (targetLength : UInt8)
    (metrics : ProximityMetrics K) : K × ProximityMetrics K :=
  let cutTarget := target.toList.take targetLength.toNat
  let hops := proximityHopsAssessment e.phi2 (m.now cutTarget 0) (m.numberOfHopsTo cutTarget 0)
    cutTarget true metrics
  let rtt := proximityRttAssessment e.phi1 (m.now cutTarget 1) (m.roundTripTimeTo cutTarget)
    cutTarget true hops.2
  let pdv := proximityPdvAssessment e.phi3 (m.now cutTarget 2) (m.packetDelayVariationTo cutTarget)
    cutTarget true rtt.2
  let pl := proximityPlAssessment e.phi4 (m.now cutTarget 3) (m.packetLossTo cutTarget)
    cutTarget true pdv.2
  ((hops.1 + rtt.1 + pdv.1 + pl.1) / 4, pl.2)

end ProximityEval

end Grades

/-! ## What the assessments do -/

section Table

variable {D : Type} {set : D → Metrics D → Metrics D} {phi phi2 : D → D} {m : Measurements D}
  {metrics : ProximityMetrics D} {target : Bytes} {keys removed : List Bytes}

@[simp] theorem proximityMetricAssessment_fst (now : Int) (measured : D) (update : Bool) :
    (proximityMetricAssessment set phi now measured target update metrics).1 = phi measured := by
  unfold proximityMetricAssessment
  split <;> rfl

theorem find?_proximityMetricAssessment {entry : Metrics D} (h : metrics.find? target = some entry)
    (now : Int) (measured : D) (key : Bytes) :
    (proximityMetricAssessment set phi now measured target false metrics).2.find? key =
      if key = target then some (set measured entry) else metrics.find? key := by
  unfold proximityMetricAssessment
  rw [h]
  simp

theorem find?_assignHopsAssessment {entry : Metrics D} (h : metrics.find? target = some entry)
    (call : Nat) (set : D → Metrics D → Metrics D) (key : Bytes) :
    (assignHopsAssessment phi2 m target call set metrics).find? key =
      if key = target then
        some (set (phi2 (m.numberOfHopsTo target call))
        (setHops (m.numberOfHopsTo target call) entry))
      else metrics.find? key := by
  unfold assignHopsAssessment proximityHopsAssessment writeMetric
  dsimp only
  rw [find?_proximityMetricAssessment h, if_pos rfl, proximityMetricAssessment_fst]
  dsimp only
  rw [OrdMap.find?_assign, find?_proximityMetricAssessment h]
  split <;> rfl

/-- What is left of an entry: its time, the last number of hops, and three grades of such
numbers. -/
def Metrics.renewed (phi2 : D → D) (m : Measurements D) (target : Bytes) (entry : Metrics D) :
    Metrics D where
  timestamp := entry.timestamp
  hops := some (m.numberOfHopsTo target 3)
  rtt := some (phi2 (m.numberOfHopsTo target 1))
  pdv := some (phi2 (m.numberOfHopsTo target 2))
  pl := some (phi2 (m.numberOfHopsTo target 3))

/-- **What the loop does to a target that it keeps.** -/
theorem find?_renewTarget {entry : Metrics D} (h : metrics.find? target = some entry)
    (key : Bytes) :
    (renewTarget phi2 m target metrics).find? key =
      if key = target then some (entry.renewed phi2 m target) else metrics.find? key := by
  have hstep : ∀ {metrics : ProximityMetrics D} {entry : Metrics D} (call : Nat)
      (set : D → Metrics D → Metrics D), metrics.find? target = some entry →
      (assignHopsAssessment phi2 m target call set metrics).find? target =
        some (set (phi2 (m.numberOfHopsTo target call))
          (setHops (m.numberOfHopsTo target call) entry)) := by
    intro metrics entry call set hentry
    rw [find?_assignHopsAssessment hentry, if_pos rfl]
  have h0 := hstep 0 setHops h
  have h1 := hstep 1 setRtt h0
  have h2 := hstep 2 setPdv h1
  unfold renewTarget
  dsimp only
  rw [find?_assignHopsAssessment h2, find?_assignHopsAssessment h1, find?_assignHopsAssessment h0,
    find?_assignHopsAssessment h]
  by_cases hkey : key = target
  · rw [if_pos hkey, if_pos hkey]
    rfl
  · simp only [if_neg hkey]

/-- An entry after the loop. Those of old targets are still there. -/
theorem find?_renewLoop (hnodup : keys.Nodup) (key : Bytes) :
    (renewLoop phi2 m keys metrics removed).1.find? key =
      if key ∈ keys then
        (metrics.find? key).map fun entry =>
          if m.now key 0 - entry.timestamp ≥ durationOld then entry else entry.renewed phi2 m key
      else metrics.find? key := by
  induction keys generalizing metrics removed with
  | nil => rfl
  | cons target rest ih =>
    obtain ⟨htarget, hrest⟩ := List.nodup_cons.mp hnodup
    rw [renewLoop]
    rcases hentry : metrics.find? target with _ | entry
    · dsimp only
      rw [ih hrest]
      by_cases hkey : key = target
      · subst hkey
        simp [htarget, hentry]
      · simp [hkey]
    · dsimp only
      by_cases hold : m.now target 0 - entry.timestamp ≥ durationOld
      · rw [if_pos hold, ih hrest]
        by_cases hkey : key = target
        · subst hkey
          simp [htarget, hentry, hold]
        · simp [hkey]
      · -- The target is renewed, and the rest of the loop leaves it as it is.
        rw [if_neg hold, ih hrest, find?_renewTarget hentry]
        by_cases hkey : key = target
        · subst hkey
          simp [htarget, hentry, hold]
        · simp [hkey]

/-- The keys that the loop collects. -/
theorem mem_renewLoop (hnodup : keys.Nodup) (key : Bytes) :
    key ∈ (renewLoop phi2 m keys metrics removed).2 ↔ key ∈ removed ∨ key ∈ keys ∧
      ∃ entry, metrics.find? key = some entry ∧ m.now key 0 - entry.timestamp ≥ durationOld := by
  induction keys generalizing metrics removed with
  | nil => simp [renewLoop]
  | cons target rest ih =>
    obtain ⟨htarget, hrest⟩ := List.nodup_cons.mp hnodup
    rw [renewLoop]
    rcases hentry : metrics.find? target with _ | entry
    · dsimp only
      rw [ih hrest]
      by_cases hkey : key = target
      · subst hkey
        simp [hentry, htarget]
      · simp [hkey]
    · dsimp only
      by_cases hold : m.now target 0 - entry.timestamp ≥ durationOld
      · rw [if_pos hold, ih hrest]
        by_cases hkey : key = target
        · subst hkey
          simp [hentry, hold]
        · simp [hkey]
      · rw [if_neg hold, ih hrest, find?_renewTarget hentry]
        by_cases hkey : key = target
        · subst hkey
          simp [hentry, hold, htarget]
        · simp [hkey]

theorem find?_foldl_erase (keys : List Bytes) (metrics : ProximityMetrics D) (key : Bytes) :
    (keys.foldl (fun metrics target => metrics.erase target) metrics).find? key =
      if key ∈ keys then none else metrics.find? key := by
  induction keys generalizing metrics with
  | nil => rfl
  | cons target rest ih =>
    rw [List.foldl_cons, ih, OrdMap.find?_erase]
    by_cases hkey : key = target
    · simp [hkey]
    · simp [hkey]

/-- **A round of the thread.** -/
theorem find?_renewMetrics (phi2 : D → D) (m : Measurements D) (metrics : ProximityMetrics D)
    (key : Bytes) : (renewMetrics phi2 m metrics).find? key =
      (metrics.find? key).bind fun entry =>
        if m.now key 0 - entry.timestamp ≥ durationOld then none
        else some (entry.renewed phi2 m key) := by
  unfold renewMetrics
  dsimp only
  rw [find?_foldl_erase, find?_renewLoop metrics.nodup_keys]
  simp only [mem_renewLoop metrics.nodup_keys, List.not_mem_nil, false_or]
  rcases hentry : metrics.find? key with _ | entry
  · simp
  · have hkey : key ∈ metrics.keys := OrdMap.mem_keys.mpr ⟨entry, hentry⟩
    by_cases hold : m.now key 0 - entry.timestamp ≥ durationOld
    · simp [hkey, hold]
    · simp [hkey, hold]

end Table

end Rankd

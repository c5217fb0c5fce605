import Rankd.Dry.Draw

/-!
# The simulated CPU

The statistics that `CPU` of `dry-rankd-comp` keeps in `_snapshot`. The constructor draws the eight
counters and takes a first snap, and a snap moves each of them.

The percentage in use is the exact quotient, `none` where it is a quotient by zero.

* `run_snap`: the counters are moved modulo `2 ^ 64`, and the percentage is that of the moved ones
-/

namespace Rankd.Dry

open Infra

/-! ## The constructor and the snap -/

structure CPUStats where
  system : Count
  user : Count
  nice : Count
  irqs : Count
  softirqs : Count
  iowait : Count
  idle : Count
  steal : Count
  inUse : Option Rat
  total : Rat
  deriving DecidableEq

namespace CPUStats

def totalTime (s : CPUStats) : Count :=
  s.system + s.user + s.nice + s.irqs + s.softirqs + s.iowait + s.idle + s.steal

/-- `(double)(total_time - idle) / total_time * 100.0`. -/
def percentage (totalTime idle : Count) : Option Rat :=
  if totalTime = 0 then none
  else some (((totalTime - idle).toNat : Rat) / (totalTime.toNat : Rat) * 100)

/-- The last assignments of the constructor and of a snap. -/
def measured (s : CPUStats) : CPUStats :=
  { s with inUse := percentage s.totalTime s.idle, total := 100 }

/-- The assignments of the constructor. `_snapshot{}` is all zeros before. -/
def initialise (random : Randomizer) : Simulated CPUStats := do
  let system := (← drawBelow random 5000) + 1000
  let user := (← drawBelow random 10000) + 5000
  let nice := (← drawBelow random 1000) + 200
  let irqs := (← drawBelow random 300) + 50
  let softirqs := (← drawBelow random 200) + 20
  let iowait := (← drawBelow random 500) + 100
  let idle := (← drawBelow random 20000) + 5000
  let steal ← drawBelow random 100
  return measured {
    system := system
    user := user
    nice := nice
    irqs := irqs
    softirqs := softirqs
    iowait := iowait
    idle := idle
    steal := steal
    inUse := some 0
    total := 0 }

/-- `x += (full_randomizer(range) % bound) - half`. -/
def increased (random : Randomizer) (bound half : Nat) (x : Count) : Simulated Count := do
  let drawn ← drawBelow random bound
  return x + (drawn - BitVec.ofNat 64 half)

/-- `if (x < 0) x = 0`, for an unsigned value. -/
def limited (x : Count) : Count := if x < 0 then 0 else x

def snap (random : Randomizer) (s : CPUStats) : Simulated CPUStats := do
  let system ← increased random 100 50 s.system
  let user ← increased random 200 100 s.user
  let nice ← increased random 50 25 s.nice
  let irqs ← increased random 20 10 s.irqs
  let softirqs ← increased random 10 5 s.softirqs
  let iowait ← increased random 30 15 s.iowait
  let idle ← increased random 200 100 s.idle
  -- nothing is taken off
  let steal := s.steal + (← drawBelow random 10)
  return measured { s with
    system := limited system
    user := limited user
    nice := limited nice
    irqs := limited irqs
    softirqs := limited softirqs
    iowait := limited iowait
    idle := limited idle
    steal := limited steal }

/-- What the constructor leaves. -/
def new (random : Randomizer) : Simulated CPUStats := do
  let s ← initialise random
  s.snap random

end CPUStats

/-! ## The counters -/

/-- The counters, in the order in which they are drawn. -/
inductive CPUCounter
  | system | user | nice | irqs | softirqs | iowait | idle | steal
  deriving DecidableEq

namespace CPUCounter

def read (s : CPUStats) : CPUCounter → Count
  | system => s.system
  | user => s.user
  | nice => s.nice
  | irqs => s.irqs
  | softirqs => s.softirqs
  | iowait => s.iowait
  | idle => s.idle
  | steal => s.steal

def index : CPUCounter → Nat
  | system => 0
  | user => 1
  | nice => 2
  | irqs => 3
  | softirqs => 4
  | iowait => 5
  | idle => 6
  | steal => 7

/-- The value in front of the first snap. -/
def start (random : Randomizer) : CPUCounter → Nat
  | system => random 0 % 5000 + 1000
  | user => random 1 % 10000 + 5000
  | nice => random 2 % 1000 + 200
  | irqs => random 3 % 300 + 50
  | softirqs => random 4 % 200 + 20
  | iowait => random 5 % 500 + 100
  | idle => random 6 % 20000 + 5000
  | steal => random 7 % 100

def bound : CPUCounter → Nat
  | system => 100
  | user | idle => 200
  | nice => 50
  | irqs => 20
  | softirqs | steal => 10
  | iowait => 30

def half : CPUCounter → Nat
  | steal => 0
  | c => c.bound / 2

/-- What a snap with its first draw at `p` adds. -/
def move (random : Randomizer) (p : Nat) (c : CPUCounter) : Int :=
  drift c.bound c.half (random (p + c.index))

end CPUCounter

namespace CPUStats

@[simp] theorem limited_eq (x : Count) : limited x = x := by
  simp [limited]

theorem percentage_ne_none_iff {totalTime idle : Count} :
    percentage totalTime idle ≠ none ↔ totalTime ≠ 0 := by
  unfold percentage
  split_ifs with hzero
  · exact iff_of_false (not_not_intro rfl) (not_not_intro hzero)
  · exact iff_of_true nofun hzero

theorem bind_increased (random : Randomizer) {α : Type} {f : Count → Simulated α} {bound half : Nat}
    (hpos : 0 < bound) (h : bound < 2 ^ 64) (x : Count) (p : Nat) :
    (increased random bound half x >>= f).run p =
      (f (x + BitVec.ofInt 64 (drift bound half (random p)))).run (p + 1) := by
  have hrun : (increased random bound half x).run p =
      (.ok (x + BitVec.ofInt 64 (drift bound half (random p))), p + 1) := by
    rw [increased, bind_drawBelow random hpos h, Prog.run_pure, ofInt_drift]
  exact Prog.bind_ok hrun

theorem ofInt_move_steal (random : Randomizer) (p : Nat) :
    BitVec.ofInt 64 (CPUCounter.steal.move random p) = BitVec.ofNat 64 (random (p + 7) % 10) := by
  rw [CPUCounter.move, CPUCounter.half, ofInt_drift, BitVec.sub_zero, CPUCounter.bound,
    CPUCounter.index]

/-! ## A snap -/

/-- **What a snap does**: eight draws, and eight moves modulo `2 ^ 64`. -/
theorem run_snap (random : Randomizer) (s : CPUStats) (p : Nat) :
    ∃ s', (s.snap random).run p = (.ok s', p + 8) ∧
      s'.inUse = percentage s'.totalTime s'.idle ∧
      ∀ c, CPUCounter.read s' c = c.read s + BitVec.ofInt 64 (c.move random p) := by
  refine ⟨?after, ?run, ?inUse, ?read⟩
  case run =>
    simp (disch := decide) only [snap, bind_increased, bind_drawBelow, Prog.run_pure]
    rfl
  case inUse => rfl
  case read =>
    intro c
    cases c with
    | steal => exact (limited_eq _).trans (congrArg (s.steal + ·) (ofInt_move_steal random p).symm)
    | _ => exact limited_eq _

/-! ## Runs -/

section Runs

variable (random : Randomizer)

theorem run_initialise : ∃ s, (initialise random).run 0 = (.ok s, 8) ∧
    ∀ c, CPUCounter.read s c = BitVec.ofNat 64 (c.start random) := by
  refine ⟨?after, ?run, ?read⟩
  case run =>
    simp (disch := decide) only [initialise, bind_drawBelow, Nat.reduceAdd, Prog.run_pure]
    rfl
  case read =>
    intro c
    cases c with
    | steal => rfl
    | _ => exact (BitVec.ofNat_add _ _).symm

/-- The statistics after a number of snaps, the one of the constructor included. -/
def snapped : Nat → Simulated CPUStats
  | 0 => initialise random
  | n + 1 => do
    let s ← snapped n
    s.snap random

theorem snapped_one : snapped random 1 = new random := rfl

end Runs

end CPUStats

/-- The counter after a number of snaps. -/
def CPUCounter.value (random : Randomizer) (c : CPUCounter) : Nat → Count
  | 0 => BitVec.ofNat 64 (c.start random)
  | n + 1 => c.value random n + BitVec.ofInt 64 (c.move random (8 + 8 * n))

theorem CPUStats.run_snapped (random : Randomizer) (n : Nat) :
    ∃ s, (CPUStats.snapped random n).run 0 = (.ok s, 8 + 8 * n) ∧
      ∀ c, CPUCounter.read s c = c.value random n := by
  induction n with
  | zero => exact CPUStats.run_initialise random
  | succ n ih =>
    obtain ⟨s, hrun, hread⟩ := ih
    obtain ⟨s', hsnap, -, hread'⟩ := CPUStats.run_snap random s (8 + 8 * n)
    refine ⟨s', (Prog.bind_ok hrun).trans hsnap, ?_⟩
    intro c
    rw [hread' c, hread c, CPUCounter.value]

end Rankd.Dry

import Rankd.Dry.Cpu
import Rankd.Dry.Memory

/-!
# Simulated counters stay in range

The moves of the simulated counters should be clamped at zero. The comparisons that are to do this
are made on unsigned numbers, so a counter that falls below zero comes back at the top of its word.

* `memory_inRange_iff`, `cpu_inRange_iff`: the streams of random numbers with which a run of snaps
  is in range, by the integer walks that they make of the counters
* `simulated_inRange_iff`: both data sources
-/

namespace Rankd.Dry

open Infra

/-! ## What the data sources should do -/

/-- Nothing is divided by zero, and each move of the constructor and of `calls` snaps is clamped. -/
structure Memory.InRange (random : Randomizer) (calls : Nat) : Prop where
  constructs : ∃ m p, (Memory.new random).run 0 = (.ok m, p)
  clamps : ∀ i ≤ calls, ∃ m p m' p', (Memory.snapped random i).run 0 = (.ok m, p) ∧
    (m.snap random).run p = (.ok m', p') ∧
      ∀ c, ∃ before after, MemoryCounter.read m c = some before ∧
        MemoryCounter.read m' c = some after ∧ Clamps before after (c.move random p)

/-- Each move is clamped, and the percentages are quotients by a total that is not zero. -/
def CPUStats.InRange (random : Randomizer) (calls : Nat) : Prop :=
  ∀ i ≤ calls, ∃ s p s' p', (CPUStats.snapped random i).run 0 = (.ok s, p) ∧
    (s.snap random).run p = (.ok s', p') ∧ s'.inUse ≠ none ∧
      ∀ c, Clamps (CPUCounter.read s c) (c.read s') (c.move random p)

/-! ## The walks -/

/-- The integer that the draws make of a counter in a number of snaps. -/
def MemoryCounter.walked (random : Randomizer) (c : MemoryCounter) (snaps : Nat) : Int :=
  walk (c.start random) (fun i => c.move random (47 + 7 * i)) snaps

def CPUCounter.walked (random : Randomizer) (c : CPUCounter) (snaps : Nat) : Int :=
  walk (c.start random) (fun i => c.move random (8 + 8 * i)) snaps

/-- The sum of the eight integers. -/
def totalWalked (random : Randomizer) (snaps : Nat) : Int :=
  CPUCounter.system.walked random snaps + CPUCounter.user.walked random snaps +
    CPUCounter.nice.walked random snaps + CPUCounter.irqs.walked random snaps +
    CPUCounter.softirqs.walked random snaps + CPUCounter.iowait.walked random snaps +
    CPUCounter.idle.walked random snaps + CPUCounter.steal.walked random snaps

/-- A counter that follows its moves is clamped as long as its walk fits the word. -/
theorem clamps_iff_fits {value : Nat → Count} {start : Nat} {move : Nat → Int}
    (hzero : value 0 = BitVec.ofNat 64 start) (hstart : start < 2 ^ 64)
    (hstep : ∀ i, value (i + 1) = value i + BitVec.ofInt 64 (move i))
    (hmove : ∀ i, -2 ^ 64 < move i) (n : Nat) :
    (∀ i ≤ n, Clamps (value i) (value (i + 1)) (move i)) ↔
      ∀ i ≤ n, FitsWord 64 (walk start move (i + 1)) := by
  have hwalk := clamped_iff_fits hstep hmove (n + 1)
  rw [hzero, BitVec.toNat_ofNat, Nat.mod_eq_of_lt hstart] at hwalk
  simp only [Nat.lt_succ_iff] at hwalk
  exact hwalk

/-! ## The memory -/

section MemoryRuns

variable {random : Randomizer}

theorem mod_lt (random : Randomizer) (p n : Nat) : (random p : Nat) % n < 2 ^ 31 :=
  (Nat.mod_le _ _).trans_lt (draw_lt random p)

theorem MemoryCounter.start_lt (c : MemoryCounter) : c.start random < 2 ^ 64 := by
  cases c with
  | available =>
    have hfree := mod_lt random 1 ((random 0 % 64000 + 1024) / 4)
    rw [MemoryCounter.start]
    omega
  | _ => exact (mod_lt _ _ _).trans (by decide)

theorem MemoryCounter.clamps_iff (c : MemoryCounter) (n : Nat) :
    (∀ i ≤ n, Clamps (c.value random i) (c.value random (i + 1))
      (c.move random (47 + 7 * i))) ↔ ∀ i ≤ n, FitsWord 64 (c.walked random (i + 1)) := by
  have hzero : c.value random 0 = BitVec.ofNat 64 (c.start random) := rfl
  have hstep (i : Nat) : c.value random (i + 1) =
      c.value random i + BitVec.ofInt 64 (c.move random (47 + 7 * i)) := rfl
  have hmove (i : Nat) : -2 ^ 64 < c.move random (47 + 7 * i) :=
    neg_lt_drift (by cases c <;> decide) _
  exact clamps_iff_fits hzero c.start_lt hstep hmove n

/-- With a construction that succeeds, the snaps are clamped if and only if the values are. -/
theorem Memory.clamps_iff (h : (random 41 : Nat) % 10000 ≠ 0) (i : Nat) :
    (∃ m p m' p', (Memory.snapped random i).run 0 = (.ok m, p) ∧
      (m.snap random).run p = (.ok m', p') ∧
        ∀ c, ∃ before after, MemoryCounter.read m c = some before ∧
          MemoryCounter.read m' c = some after ∧ Clamps before after (c.move random p)) ↔
      ∀ c : MemoryCounter,
        Clamps (c.value random i) (c.value random (i + 1)) (c.move random (47 + 7 * i)) := by
  obtain ⟨m, hrun, hread⟩ := run_snapped random h i
  obtain ⟨m', hsnap, hread'⟩ := run_snap random hread (47 + 7 * i)
  constructor
  · rintro ⟨m₁, p₁, m₂, p₂, hrun₁, hsnap₁, hclamps⟩ c
    obtain ⟨rfl, rfl⟩ : m = m₁ ∧ 47 + 7 * i = p₁ := by simpa using hrun.symm.trans hrun₁
    obtain ⟨rfl, rfl⟩ : m' = m₂ ∧ 47 + 7 * i + 7 = p₂ := by simpa using hsnap.symm.trans hsnap₁
    obtain ⟨before, after, hbefore, hafter, hclamp⟩ := hclamps c
    obtain rfl := Option.some.inj ((hread c).symm.trans hbefore)
    obtain rfl := Option.some.inj ((hread' c).symm.trans hafter)
    exact hclamp
  · intro hclamps
    exact ⟨m, _, m', _, hrun, hsnap, fun c => ⟨_, _, hread c, hread' c, hclamps c⟩⟩

/-- **The memory is in range** if and only if the number of huge pages is not drawn as a multiple of
10000, and no walk leaves the word. -/
theorem memory_inRange_iff (random : Randomizer) (calls : Nat) : Memory.InRange random calls ↔
    (random 41 : Nat) % 10000 ≠ 0 ∧
      ∀ c : MemoryCounter, ∀ i ≤ calls, FitsWord 64 (c.walked random (i + 1)) := by
  constructor
  · rintro ⟨⟨m, p, hnew⟩, hclamps⟩
    have hpages : (random 41 : Nat) % 10000 ≠ 0 := by
      intro hzero
      rw [Memory.new, Prog.bind_error (run_initialise_zero random hzero)] at hnew
      cases hnew
    refine ⟨hpages, fun c => (c.clamps_iff calls).mp fun i hi => ?_⟩
    exact (Memory.clamps_iff hpages i).mp (hclamps i hi) c
  · rintro ⟨hpages, hfits⟩
    obtain ⟨m, hrun, -⟩ := run_snapped random hpages 1
    refine ⟨⟨m, _, hrun⟩, fun i hi => ?_⟩
    exact (Memory.clamps_iff hpages i).mpr fun c => (c.clamps_iff calls).mpr (hfits c) i hi

end MemoryRuns

/-! ## The CPU -/

section CPURuns

variable {random : Randomizer}

theorem CPUCounter.start_lt (c : CPUCounter) : c.start random < 2 ^ 64 := by
  cases c <;> simp only [CPUCounter.start] <;> omega

theorem CPUCounter.clamps_iff (c : CPUCounter) (n : Nat) :
    (∀ i ≤ n, Clamps (c.value random i) (c.value random (i + 1))
      (c.move random (8 + 8 * i))) ↔ ∀ i ≤ n, FitsWord 64 (c.walked random (i + 1)) := by
  have hzero : c.value random 0 = BitVec.ofNat 64 (c.start random) := rfl
  have hstep (i : Nat) : c.value random (i + 1) =
      c.value random i + BitVec.ofInt 64 (c.move random (8 + 8 * i)) := rfl
  have hmove (i : Nat) : -2 ^ 64 < c.move random (8 + 8 * i) :=
    neg_lt_drift (by cases c <;> decide) _
  exact clamps_iff_fits hzero c.start_lt hstep hmove n

theorem CPUCounter.value_eq (c : CPUCounter) (n : Nat) :
    c.value random n = BitVec.ofInt 64 (c.walked random n) := by
  have hvalue := eq_ofInt_walk (x := c.value random) (fun _ => rfl) n
  rwa [CPUCounter.value, BitVec.toNat_ofNat, Nat.mod_eq_of_lt c.start_lt] at hvalue

/-- The total is the sum of the walks, modulo the word. -/
theorem totalTime_eq {s : CPUStats} {n : Nat} (h : ∀ c, CPUCounter.read s c = c.value random n) :
    s.totalTime = BitVec.ofInt 64 (totalWalked random n) := by
  have hread (c : CPUCounter) := (h c).trans (c.value_eq n)
  simp only [totalWalked, BitVec.ofInt_add, ← hread]
  rfl

/-- A snap of a run is what it should be if and only if the values are. -/
theorem CPUStats.clamps_iff (i : Nat) :
    (∃ s p s' p', (CPUStats.snapped random i).run 0 = (.ok s, p) ∧
      (s.snap random).run p = (.ok s', p') ∧ s'.inUse ≠ none ∧
        ∀ c, Clamps (CPUCounter.read s c) (c.read s') (c.move random p)) ↔
      totalWalked random (i + 1) % 2 ^ 64 ≠ 0 ∧ ∀ c : CPUCounter,
        Clamps (c.value random i) (c.value random (i + 1)) (c.move random (8 + 8 * i)) := by
  obtain ⟨s, hrun, hread⟩ := CPUStats.run_snapped random i
  obtain ⟨s', hsnap, hinUse, hread'⟩ := CPUStats.run_snap random s (8 + 8 * i)
  have hnext (c : CPUCounter) : CPUCounter.read s' c = c.value random (i + 1) := by
    rw [hread', hread, CPUCounter.value]
  have htotal : s'.inUse ≠ none ↔ totalWalked random (i + 1) % 2 ^ 64 ≠ 0 := by
    rw [hinUse, CPUStats.percentage_ne_none_iff, totalTime_eq hnext, Ne, ofInt_eq_zero_iff]
  constructor
  · rintro ⟨s₁, p₁, s₂, p₂, hrun₁, hsnap₁, hnonzero, hclamps⟩
    obtain ⟨rfl, rfl⟩ : s = s₁ ∧ 8 + 8 * i = p₁ := by simpa using hrun.symm.trans hrun₁
    obtain ⟨rfl, rfl⟩ : s' = s₂ ∧ 8 + 8 * i + 8 = p₂ := by simpa using hsnap.symm.trans hsnap₁
    refine ⟨htotal.mp hnonzero, fun c => ?_⟩
    rw [← hread, ← hnext]
    exact hclamps c
  · rintro ⟨hnonzero, hclamps⟩
    refine ⟨s, _, s', _, hrun, hsnap, htotal.mpr hnonzero, fun c => ?_⟩
    rw [hread, hnext]
    exact hclamps c

/-- **The CPU is in range** if and only if no walk leaves the word, and the sum of the walks is not
zero modulo the word. -/
theorem cpu_inRange_iff (random : Randomizer) (calls : Nat) : CPUStats.InRange random calls ↔
    (∀ c : CPUCounter, ∀ i ≤ calls, FitsWord 64 (c.walked random (i + 1))) ∧
      ∀ i ≤ calls, totalWalked random (i + 1) % 2 ^ 64 ≠ 0 := by
  unfold CPUStats.InRange
  simp only [CPUStats.clamps_iff]
  constructor
  · intro h
    exact ⟨fun c => (c.clamps_iff calls).mp fun i hi => (h i hi).2 c, fun i hi => (h i hi).1⟩
  · rintro ⟨hfits, htotal⟩ i hi
    exact ⟨htotal i hi, fun c => (c.clamps_iff calls).mpr (hfits c) i hi⟩

end CPURuns

/-! ## Both data sources -/

/-- **Both are in range** for the streams whose walks stay within the words, with a huge page and a
total that is not zero. -/
theorem simulated_inRange_iff (memory cpu : Randomizer) (memoryCalls cpuCalls : Nat) :
    Memory.InRange memory memoryCalls ∧ CPUStats.InRange cpu cpuCalls ↔
      ((memory 41 : Nat) % 10000 ≠ 0 ∧
        ∀ c : MemoryCounter, ∀ i ≤ memoryCalls, FitsWord 64 (c.walked memory (i + 1))) ∧
      (∀ c : CPUCounter, ∀ i ≤ cpuCalls, FitsWord 64 (c.walked cpu (i + 1))) ∧
        ∀ i ≤ cpuCalls, totalWalked cpu (i + 1) % 2 ^ 64 ≠ 0 := by
  rw [memory_inRange_iff, cpu_inRange_iff]

/-- Every draw is zero. -/
def zeros : Randomizer := fun _ => 0

/-- Every draw is zero, but for the one of the huge pages. -/
def oneHugePage : Randomizer := fun p => if p = 41 then 1 else 0

/-- With zeros there are no huge pages to take a remainder of, and the first snap of the
others moves the free memory from 0 to -250. The fifth snap of the CPU moves the soft
interrupts from 0 to -5. -/
theorem simulated_not_inRange :
    ¬ Memory.InRange zeros 0 ∧ ¬ Memory.InRange oneHugePage 0 ∧ ¬ CPUStats.InRange zeros 4 := by
  refine ⟨?_, ?_, ?_⟩
  · intro h
    exact ((memory_inRange_iff zeros 0).mp h).1 rfl
  · intro h
    have hfree := ((memory_inRange_iff oneHugePage 0).mp h).2 .free 0 le_rfl
    exact absurd hfree.1 (by decide)
  · intro h
    have hsoftirqs := ((cpu_inRange_iff zeros 4).mp h).1 .softirqs 4 le_rfl
    exact absurd hsoftirqs.1 (by decide)

end Rankd.Dry

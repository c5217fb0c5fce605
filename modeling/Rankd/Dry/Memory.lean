import Rankd.Dry.Draw

/-!
# The simulated memory

`Memory` of `dry-rankd-comp`. The constructor draws the values and takes a first snap, and a snap
moves seven of them by a draw of which half of its range is taken off.

* `run_snap`: each of the seven is moved modulo `2 ^ 64`, as the comparisons with zero behind the
  moves never find anything
* `run_initialise`, `run_initialise_zero`: the values in front of the first snap, and the draw with
  which there are none
-/

namespace Rankd.Dry

open Infra

/-! ## The constructor and the snap -/

/-- The fields of `Memory`. -/
structure Memory where
  total : Option Count
  free : Option Count
  available : Option Count
  buffers : Option Count
  cached : Option Count
  swapCached : Option Count
  active : Option Count
  inactive : Option Count
  activeAnonymous : Option Count
  inactiveAnonymous : Option Count
  activeFile : Option Count
  inactiveFile : Option Count
  unevictable : Option Count
  locked : Option Count
  swapTotal : Option Count
  swapFree : Option Count
  dirty : Option Count
  writeback : Option Count
  anonymousPages : Option Count
  mapped : Option Count
  sharedMemory : Option Count
  kernelReclaimable : Option Count
  slab : Option Count
  slabReclaimable : Option Count
  slabUnreclaim : Option Count
  kernelStack : Option Count
  pageTables : Option Count
  nfsUnstable : Option Count
  bounce : Option Count
  writebackTmp : Option Count
  commitLimit : Option Count
  committedAs : Option Count
  vmallocTotal : Option Count
  vmallocUsed : Option Count
  vmallocChunk : Option Count
  percpu : Option Count
  hardwareCorrupted : Option Count
  anonHugePages : Option Count
  sharedMemoryHugePages : Option Count
  sharedMemoryPmdMapped : Option Count
  fileHugePages : Option Count
  filePmdMapped : Option Count
  hugePagesTotal : Option Count
  hugePagesFree : Option Count
  hugePagesRsvd : Option Count
  hugePagesSurp : Option Count
  hugePageSize : Option Count
  hugeTlb : Option Count
  oomKillerInvocations : Option Int
  deriving DecidableEq

/-- The assignments of the constructor. -/
def Memory.initialise (random : Randomizer) : Simulated Memory := do
  let total := (← drawBelow random 64000) + 1024
  let free ← drawModulo random (total / 4)
  let available := free + (← drawBelow random 10000)
  let buffers ← drawBelow random 10000
  let cached ← drawBelow random 20000
  let swapCached ← drawBelow random 5000
  let active ← drawModulo random (total / 2)
  let inactive ← drawModulo random (total / 4)
  let activeAnonymous ← drawBelow random 5000
  let inactiveAnonymous ← drawBelow random 5000
  let activeFile ← drawBelow random 20000
  let inactiveFile ← drawBelow random 10000
  let unevictable ← drawBelow random 1000
  let locked ← drawBelow random 1000
  let swapTotal := (← drawBelow random 32000) + 1024
  let swapFree ← drawModulo random swapTotal
  let dirty ← drawBelow random 500
  let writeback ← drawBelow random 100
  let anonymousPages ← drawBelow random 20000
  let mapped ← drawBelow random 10000
  let sharedMemory ← drawBelow random 5000
  let kernelReclaimable ← drawBelow random 5000
  let slab ← drawBelow random 5000
  let slabReclaimable ← drawBelow random 2000
  let slabUnreclaim ← drawBelow random 3000
  let kernelStack ← drawBelow random 500
  let pageTables ← drawBelow random 1000
  let nfsUnstable ← drawBelow random 1000
  let bounce ← drawBelow random 100
  let writebackTmp ← drawBelow random 100
  let commitLimit := total + swapTotal
  let committedAs ← drawModulo random commitLimit
  let vmallocTotal ← drawBelow random 64000
  let vmallocUsed ← drawBelow random 32000
  let vmallocChunk ← drawBelow random 16000
  let percpu ← drawBelow random 10000
  let hardwareCorrupted ← drawBelow random 1000
  let anonHugePages ← drawBelow random 10000
  let sharedMemoryHugePages ← drawBelow random 10000
  let sharedMemoryPmdMapped ← drawBelow random 5000
  let fileHugePages ← drawBelow random 5000
  let filePmdMapped ← drawBelow random 2000
  let hugePagesTotal ← drawBelow random 10000
  let hugePagesFree ← drawModulo random hugePagesTotal
  let hugePagesRsvd ← drawBelow random 1000
  let hugePagesSurp ← drawBelow random 500
  let hugePageSize : Count := 2048
  let hugeTlb ← drawBelow random 10000
  let oomKillerInvocations : Int := (← drawBelow random 100).toNat
  return {
    total := some total
    free := some free
    available := some available
    buffers := some buffers
    cached := some cached
    swapCached := some swapCached
    active := some active
    inactive := some inactive
    activeAnonymous := some activeAnonymous
    inactiveAnonymous := some inactiveAnonymous
    activeFile := some activeFile
    inactiveFile := some inactiveFile
    unevictable := some unevictable
    locked := some locked
    swapTotal := some swapTotal
    swapFree := some swapFree
    dirty := some dirty
    writeback := some writeback
    anonymousPages := some anonymousPages
    mapped := some mapped
    sharedMemory := some sharedMemory
    kernelReclaimable := some kernelReclaimable
    slab := some slab
    slabReclaimable := some slabReclaimable
    slabUnreclaim := some slabUnreclaim
    kernelStack := some kernelStack
    pageTables := some pageTables
    nfsUnstable := some nfsUnstable
    bounce := some bounce
    writebackTmp := some writebackTmp
    commitLimit := some commitLimit
    committedAs := some committedAs
    vmallocTotal := some vmallocTotal
    vmallocUsed := some vmallocUsed
    vmallocChunk := some vmallocChunk
    percpu := some percpu
    hardwareCorrupted := some hardwareCorrupted
    anonHugePages := some anonHugePages
    sharedMemoryHugePages := some sharedMemoryHugePages
    sharedMemoryPmdMapped := some sharedMemoryPmdMapped
    fileHugePages := some fileHugePages
    filePmdMapped := some filePmdMapped
    hugePagesTotal := some hugePagesTotal
    hugePagesFree := some hugePagesFree
    hugePagesRsvd := some hugePagesRsvd
    hugePagesSurp := some hugePagesSurp
    hugePageSize := some hugePageSize
    hugeTlb := some hugeTlb
    oomKillerInvocations := some oomKillerInvocations }

/-- `x = x.value() + (full_randomizer(range) % bound) - half`, if there is a value. -/
def moved (random : Randomizer) (bound half : Nat) (x : Option Count) :
    Simulated (Option Count) :=
  match x with
  | none => return none
  | some v => do
    let drawn ← drawBelow random bound
    return some (v + drawn - BitVec.ofNat 64 half)

/-- The comparison of an optional with `0`: an empty one is less, a value is unsigned. -/
def lessThanZero (x : Option Count) : Bool :=
  match x with
  | none => true
  | some v => decide (v < 0)

/-- `if (x < 0) x = 0`. -/
def clamped (x : Option Count) : Option Count := if lessThanZero x then some 0 else x

def Memory.snap (random : Randomizer) (m : Memory) : Simulated Memory := do
  let free ← moved random 500 250 m.free
  let available ← moved random 1000 500 m.available
  let active ← moved random 1000 500 m.active
  let inactive ← moved random 500 250 m.inactive
  let swapFree ← moved random 500 250 m.swapFree
  let dirty ← moved random 100 50 m.dirty
  let anonHugePages ← moved random 500 250 m.anonHugePages
  return { m with
    free := clamped free
    available := clamped available
    active := clamped active
    inactive := clamped inactive
    swapFree := clamped swapFree
    dirty := clamped dirty
    anonHugePages := clamped anonHugePages }

/-- `Memory::Memory`. -/
def Memory.new (random : Randomizer) : Simulated Memory := do
  let m ← Memory.initialise random
  m.snap random

/-! ## The counters -/

/-- The fields that a snap moves. -/
inductive MemoryCounter
  | free | available | active | inactive | swapFree | dirty | anonHugePages
  deriving DecidableEq

namespace MemoryCounter

def read (m : Memory) : MemoryCounter → Option Count
  | free => m.free
  | available => m.available
  | active => m.active
  | inactive => m.inactive
  | swapFree => m.swapFree
  | dirty => m.dirty
  | anonHugePages => m.anonHugePages

/-- The number of draws of a snap in front of the one that moves the counter. -/
def index : MemoryCounter → Nat
  | free => 0
  | available => 1
  | active => 2
  | inactive => 3
  | swapFree => 4
  | dirty => 5
  | anonHugePages => 6

def bound : MemoryCounter → Nat
  | available | active => 1000
  | free | inactive | swapFree | anonHugePages => 500
  | dirty => 100

def half (c : MemoryCounter) : Nat := c.bound / 2

/-- The value in front of the first snap. -/
def start (random : Randomizer) : MemoryCounter → Nat
  | free => random 1 % ((random 0 % 64000 + 1024) / 4)
  | available => random 1 % ((random 0 % 64000 + 1024) / 4) + random 2 % 10000
  | active => random 6 % ((random 0 % 64000 + 1024) / 2)
  | inactive => random 7 % ((random 0 % 64000 + 1024) / 4)
  | swapFree => random 15 % (random 14 % 32000 + 1024)
  | dirty => random 16 % 500
  | anonHugePages => random 36 % 10000

/-- What a snap with its first draw at `p` adds. -/
def move (random : Randomizer) (p : Nat) (c : MemoryCounter) : Int :=
  drift c.bound c.half (random (p + c.index))

end MemoryCounter

@[simp] theorem clamped_some (v : Count) : clamped (some v) = some v := by
  simp [clamped, lessThanZero]

theorem bind_moved (random : Randomizer) {α : Type} {f : Option Count → Simulated α}
    {bound half : Nat} (hpos : 0 < bound) (h : bound < 2 ^ 64) (v : Count) (p : Nat) :
    (moved random bound half (some v) >>= f).run p =
      (f (some (v + BitVec.ofInt 64 (drift bound half (random p))))).run (p + 1) := by
  have hrun : (moved random bound half (some v)).run p =
      (.ok (some (v + BitVec.ofInt 64 (drift bound half (random p)))), p + 1) := by
    rw [moved, bind_drawBelow random hpos h, Prog.run_pure, add_ofInt_drift]
  exact Prog.bind_ok hrun

/-! ## A snap -/

/-- **What a snap does**: seven draws, and seven moves modulo `2 ^ 64`. -/
theorem run_snap (random : Randomizer) {m : Memory} {value : MemoryCounter → Count}
    (hm : ∀ c, c.read m = some (value c)) (p : Nat) :
    ∃ m', (m.snap random).run p = (.ok m', p + 7) ∧
      ∀ c, MemoryCounter.read m' c = some (value c + BitVec.ofInt 64 (c.move random p)) := by
  have hfree : m.free = some (value .free) := hm .free
  have havailable : m.available = some (value .available) := hm .available
  have hactive : m.active = some (value .active) := hm .active
  have hinactive : m.inactive = some (value .inactive) := hm .inactive
  have hswapFree : m.swapFree = some (value .swapFree) := hm .swapFree
  have hdirty : m.dirty = some (value .dirty) := hm .dirty
  have hanonHugePages : m.anonHugePages = some (value .anonHugePages) := hm .anonHugePages
  refine ⟨?after, ?run, ?read⟩
  case run =>
    simp (disch := decide) only [Memory.snap, hfree, havailable, hactive, hinactive, hswapFree,
      hdirty, hanonHugePages, bind_moved, Prog.run_pure]
    rfl
  case read =>
    intro c
    cases c <;> exact clamped_some _

/-! ## The construction -/

theorem total_eq (n : Nat) : BitVec.ofNat 64 n + 1024 = BitVec.ofNat 64 (n + 1024) :=
  (BitVec.ofNat_add n 1024).symm

theorem quarter_eq {n : Nat} (h : n < 2 ^ 64) : BitVec.ofNat 64 n / 4 = BitVec.ofNat 64 (n / 4) :=
  ofNat_udiv h (by decide)

theorem half_eq {n : Nat} (h : n < 2 ^ 64) : BitVec.ofNat 64 n / 2 = BitVec.ofNat 64 (n / 2) :=
  ofNat_udiv h (by decide)

section Construction

variable (random : Randomizer)

/-- The assignments up to the free huge pages, and those behind. -/
theorem run_initialise_eq : ∃ f : Count → Simulated Memory,
    (Memory.initialise random).run 0 =
        (drawModulo random (BitVec.ofNat 64 ((random 41 : Nat) % 10000)) >>= f).run 42 ∧
      ∀ hugePagesFree, ∃ m, (f hugePagesFree).run 43 = (.ok m, 47) ∧
        ∀ c, MemoryCounter.read m c = some (BitVec.ofNat 64 (c.start random)) := by
  refine ⟨?behind, ?front, fun hugePagesFree => ⟨?after, ?run, ?read⟩⟩
  case front =>
    simp (disch := omega) only [Memory.initialise, bind_drawBelow, bind_drawModulo, total_eq,
      quarter_eq, half_eq, ← BitVec.ofNat_add, Nat.reduceAdd]
    rfl
  case run =>
    simp (disch := omega) only [bind_drawBelow, Nat.reduceAdd, Prog.run_pure]
    rfl
  case read =>
    intro c
    cases c <;> rfl

/-- Without a multiple of 10000 for the number of huge pages the constructor gets to its snap. -/
theorem run_initialise (h : (random 41 : Nat) % 10000 ≠ 0) :
    ∃ m, (Memory.initialise random).run 0 = (.ok m, 47) ∧
      ∀ c, MemoryCounter.read m c = some (BitVec.ofNat 64 (c.start random)) := by
  obtain ⟨f, hfront, hbehind⟩ := run_initialise_eq random
  rw [bind_drawModulo random (Nat.pos_of_ne_zero h) (by omega)] at hfront
  obtain ⟨m, hrun, hread⟩ := hbehind _
  exact ⟨m, hfront.trans hrun, hread⟩

/-- With one, it stops at the free ones. -/
theorem run_initialise_zero (h : (random 41 : Nat) % 10000 = 0) :
    (Memory.initialise random).run 0 = (.error .divisionByZero, 43) := by
  obtain ⟨f, hfront, -⟩ := run_initialise_eq random
  rw [hfront, h, bind_drawModulo_zero]

/-- The memory after a number of snaps, the one of the constructor included. -/
def Memory.snapped : Nat → Simulated Memory
  | 0 => Memory.initialise random
  | n + 1 => do
    let m ← snapped n
    m.snap random

theorem snapped_one : Memory.snapped random 1 = Memory.new random := rfl

/-- The counter after a number of snaps. -/
def MemoryCounter.value (c : MemoryCounter) : Nat → Count
  | 0 => BitVec.ofNat 64 (c.start random)
  | n + 1 => c.value n + BitVec.ofInt 64 (c.move random (47 + 7 * n))

theorem run_snapped (h : (random 41 : Nat) % 10000 ≠ 0) (n : Nat) :
    ∃ m, (Memory.snapped random n).run 0 = (.ok m, 47 + 7 * n) ∧
      ∀ c, MemoryCounter.read m c = some (c.value random n) := by
  induction n with
  | zero => exact run_initialise random h
  | succ n ih =>
    obtain ⟨m, hrun, hread⟩ := ih
    obtain ⟨m', hsnap, hread'⟩ := run_snap random hread (47 + 7 * n)
    exact ⟨m', (Prog.bind_ok hrun).trans hsnap, hread'⟩

end Construction

end Rankd.Dry

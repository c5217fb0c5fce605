import Mathlib.Data.Char
import Mathlib.Data.List.Lex
import Rankd.Infra.InputStream
import Rankd.Infra.OrdMap

/-!
# The CPU of a host

`CPU::CPU()`: the loops that read `/proc/cpuinfo` into a parsing tree, and the loop that makes the
cores from it. `std::stod` is a parameter, `none` where it throws.

* `close_foldl_record`: the tree after any number of attributes is the list of the units that
  `units` makes of them, numbered from 0
* `length_readCores`: one core for each unit
-/

namespace Rankd.Host

open Infra

def trim (s : Text) : Text := stripSpace s

def processor : Text := "processor".toList

/-- The temporary variables of the parsing. -/
structure Parsing where
  unit : Int
  unitParsingTree : OrdMap Text Text
  parsingTree : OrdMap Int (OrdMap Text Text)
  deriving DecidableEq

namespace Parsing

def start : Parsing := ⟨-1, ∅, ∅⟩

/-- A further `processor` line ends the unit in front of it. -/
def separate (key : Text) (p : Parsing) : Parsing :=
  if key = processor ∧ p.unit ≠ -1 then
    ⟨p.unit + 1, ∅, p.parsingTree.assign p.unit p.unitParsingTree⟩
  else p

def enter (key : Text) (p : Parsing) : Parsing :=
  let p := p.separate key
  let p := if p.unit = -1 then { p with unit := p.unit + 1 } else p
  { p with unitParsingTree := p.unitParsingTree.assign key [] }

def store (key value : Text) (p : Parsing) : Parsing :=
  { p with unitParsingTree := p.unitParsingTree.assign key value }

/-- What one attribute does. -/
def record (p : Parsing) (a : Text × Text) : Parsing :=
  (p.enter a.1).store a.1 a.2

/-- The last unit is added at the end of the inner loop. -/
def close (p : Parsing) : OrdMap Int (OrdMap Text Text) :=
  p.parsingTree.assign p.unit p.unitParsingTree

end Parsing

/-- The inner loop. -/
def readAttributes : Nat → Text → InputStream → Parsing → Option (InputStream × Parsing)
  | 0, _, _, _ => none
  | fuel + 1, line, s, p =>
    let (line, s) := s.getline ':' line
    if s.eof then some (s, p)
    else
      let key := trim line
      let p := p.enter key
      -- the character behind the colon, which may be the end of the line
      let s := s.get
      -- `enter` left the empty text in the entry
      let (value, s) := s.getline '\n' []
      readAttributes fuel line s (p.store key value)

/-- The outer loop. Each attribute takes a colon, so the length of the text bounds their number. -/
def readUnits : Nat → InputStream → Parsing → Option Parsing
  | 0, _, _ => none
  | fuel + 1, s, p =>
    if s.good then do
      let (s, p) ← readAttributes (s.rest.length + 1) [] s { p with unit := -1 }
      readUnits fuel s { p with parsingTree := p.close }
    else some p

/-- The inner loop leaves the stream at its end, so that the outer one ends at its second test. -/
def parse (text : Text) : Option Parsing := readUnits 2 (InputStream.opened text) Parsing.start

/-! ## The cores -/

structure CPUCore (D : Type) where
  identifier : UInt8
  frequency : Option D
  cacheSize : Option Text
  hasFpu : Option Bool

variable {D : Type}

def frequency (stod : Text → Option D) (core : OrdMap Text Text) : Option (Option D) :=
  match core.find? "cpu MHz".toList with
  | some v => (stod v).map some
  | none => some none

def makeCore (stod : Text → Option D) (identifier : Int) (core : OrdMap Text Text) :
    Option (CPUCore D) := do
  let frequency ← frequency stod core
  some {
    identifier := UInt8.ofInt identifier
    frequency := frequency
    cacheSize := core.find? "cache size".toList
    hasFpu := (core.find? "fpu".toList).map (· = "yes".toList) }

def makeCores (stod : Text → Option D) :
    List (Int × OrdMap Text Text) → OrdMap Int (CPUCore D) → Option (OrdMap Int (CPUCore D))
  | [], cores => some cores
  | (identifier, core) :: rest, cores => do
    let cpuCore ← makeCore stod identifier core
    makeCores stod rest (cores.assign identifier cpuCore)

/-- The lookups in front of the loop create the unit 0 if there is none. -/
def readCores (stod : Text → Option D) (parsingTree : OrdMap Int (OrdMap Text Text)) :
    Option (OrdMap Int (CPUCore D)) :=
  makeCores stod (parsingTree.insertNew 0 ∅).entries ∅

/-! ## Units -/

/-- The units that a list of attributes makes, where `unit` is the one under way. -/
def units (unit : OrdMap Text Text) : List (Text × Text) → List (OrdMap Text Text)
  | [] => [unit]
  | (key, value) :: rest =>
    if key = processor then unit :: units ((∅ : OrdMap Text Text).assign key value) rest
    else units (unit.assign key value) rest

def assignAll (unit : OrdMap Text Text) (attributes : List (Text × Text)) : OrdMap Text Text :=
  attributes.foldl (fun m a => m.assign a.1 a.2) unit

def numberFrom (n : Int) (tree : OrdMap Int (OrdMap Text Text)) :
    List (OrdMap Text Text) → OrdMap Int (OrdMap Text Text)
  | [] => tree
  | unit :: rest => numberFrom (n + 1) (tree.assign n unit) rest

namespace Parsing

variable {p : Parsing} {key value : Text}

theorem record_of_start (h : p.unit = -1) :
    p.record (key, value) = ⟨0, p.unitParsingTree.assign key value, p.parsingTree⟩ := by
  simp [record, enter, store, separate, h, OrdMap.assign_assign]

theorem record_processor (h : 0 ≤ p.unit) :
    p.record (processor, value) =
      ⟨p.unit + 1, (∅ : OrdMap Text Text).assign processor value, p.close⟩ := by
  have hne : p.unit ≠ -1 := by omega
  have hnext : p.unit + 1 ≠ -1 := by omega
  simp [record, enter, store, separate, close, hne, hnext, OrdMap.assign_assign]

theorem record_other (h : 0 ≤ p.unit) (hkey : key ≠ processor) :
    p.record (key, value) = { p with unitParsingTree := p.unitParsingTree.assign key value } := by
  have hne : p.unit ≠ -1 := by omega
  simp [record, enter, store, separate, hkey, hne, OrdMap.assign_assign]

theorem close_foldl_record (h : 0 ≤ p.unit) (attributes : List (Text × Text)) :
    (attributes.foldl record p).close =
      numberFrom p.unit p.parsingTree (units p.unitParsingTree attributes) := by
  induction attributes generalizing p with
  | nil => rfl
  | cons a rest ih =>
    obtain ⟨key, value⟩ := a
    rw [List.foldl_cons, units]
    by_cases hkey : key = processor
    · subst hkey
      have hnext : 0 ≤ p.unit + 1 := by omega
      rw [record_processor h, if_pos rfl, ih hnext, numberFrom]
      rfl
    · rw [record_other h hkey, if_neg hkey]
      exact ih (p := { p with unitParsingTree := p.unitParsingTree.assign key value }) h

/-- The tree of a text whose first attribute is `a`. -/
theorem close_foldl_start (a : Text × Text) (rest : List (Text × Text)) :
    ((a :: rest).foldl record start).close =
      numberFrom 0 ∅ (units ((∅ : OrdMap Text Text).assign a.1 a.2) rest) := by
  rw [List.foldl_cons, record_of_start rfl, close_foldl_record (le_refl _)]
  rfl

end Parsing

theorem length_units (unit : OrdMap Text Text) (attributes : List (Text × Text)) :
    (units unit attributes).length = 1 + attributes.countP (fun a => a.1 = processor) := by
  induction attributes generalizing unit with
  | nil => rfl
  | cons a rest ih =>
    obtain ⟨key, value⟩ := a
    rw [units, List.countP_cons]
    by_cases hkey : key = processor
    · simp only [hkey, if_pos, List.length_cons, ih, decide_true]
      omega
    · simp [hkey, ih]

/-- Attributes without a `processor` belong to the unit under way. -/
theorem units_append {attributes : List (Text × Text)} (h : ∀ a ∈ attributes, a.1 ≠ processor)
    (unit : OrdMap Text Text) (rest : List (Text × Text)) :
    units unit (attributes ++ rest) = units (assignAll unit attributes) rest := by
  induction attributes generalizing unit with
  | nil => rfl
  | cons a as ih =>
    obtain ⟨ha, has⟩ := List.forall_mem_cons.mp h
    rw [List.cons_append, units, if_neg ha, ih has]
    rfl

/-- The last attribute of a key wins. -/
theorem find?_assignAll (unit : OrdMap Text Text) (attributes : List (Text × Text)) (key : Text) :
    (assignAll unit attributes).find? key =
      ((attributes.filter (·.1 = key)).getLast?.map (·.2)).or (unit.find? key) := by
  induction attributes generalizing unit with
  | nil => rfl
  | cons a rest ih =>
    have hstep : assignAll unit (a :: rest) = assignAll (unit.assign a.1 a.2) rest := rfl
    rw [hstep, ih, OrdMap.find?_assign, List.filter_cons]
    by_cases hkey : a.1 = key
    · simp only [hkey, decide_true, if_true, List.getLast?_cons]
      cases (rest.filter (·.1 = key)).getLast? <;> simp
    · have hkey' : ¬ key = a.1 := Ne.symm hkey
      simp [hkey, hkey']

/-! ## Numbering -/

section Numbering

variable {tree : OrdMap Int (OrdMap Text Text)} {n : Int}

theorem free_assign (hfree : ∀ i, n ≤ i → tree.find? i = none) (unit : OrdMap Text Text) :
    ∀ i, n + 1 ≤ i → (tree.assign n unit).find? i = none := by
  intro i hi
  rw [OrdMap.find?_assign, if_neg (by omega)]
  exact hfree i (by omega)

theorem find?_numberFrom_lt {i : Int} (hi : i < n) (unitList : List (OrdMap Text Text)) :
    (numberFrom n tree unitList).find? i = tree.find? i := by
  induction unitList generalizing n tree with
  | nil => rfl
  | cons unit rest ih =>
    rw [numberFrom, ih (by omega), OrdMap.find?_assign, if_neg (by omega)]

theorem find?_numberFrom (hfree : ∀ i, n ≤ i → tree.find? i = none)
    (unitList : List (OrdMap Text Text)) (k : Nat) :
    (numberFrom n tree unitList).find? (n + k) = unitList[k]? := by
  induction unitList generalizing n tree k with
  | nil => exact hfree _ (by omega)
  | cons unit rest ih =>
    rw [numberFrom]
    cases k with
    | zero =>
      rw [find?_numberFrom_lt (by simp), OrdMap.find?_assign]
      simp
    | succ k =>
      have hsum : n + ((k + 1 : Nat) : Int) = n + 1 + (k : Int) := by omega
      rw [hsum, ih (free_assign hfree unit), List.getElem?_cons_succ]

theorem length_numberFrom (hfree : ∀ i, n ≤ i → tree.find? i = none)
    (unitList : List (OrdMap Text Text)) :
    (numberFrom n tree unitList).entries.length = tree.entries.length + unitList.length := by
  induction unitList generalizing n tree with
  | nil => rfl
  | cons unit rest ih =>
    have hnew : n ∉ tree.keys := by
      rw [OrdMap.mem_keys, hfree n (le_refl _)]
      simp
    rw [numberFrom, ih (free_assign hfree unit), OrdMap.length_assign_new _ hnew, List.length_cons]
    omega

end Numbering

theorem makeCore_isSome {stod : Text → Option D} {core : OrdMap Text Text}
    (h : ∀ v, core.find? "cpu MHz".toList = some v → (stod v).isSome) (identifier : Int) :
    ∃ cpuCore, makeCore stod identifier core = some cpuCore := by
  unfold makeCore frequency
  cases hv : core.find? "cpu MHz".toList with
  | none => simp
  | some v =>
    obtain ⟨d, hd⟩ := Option.isSome_iff_exists.mp (h v hv)
    simp [hd]

theorem length_makeCores {stod : Text → Option D} {entries : List (Int × OrdMap Text Text)}
    (hstod : ∀ e ∈ entries, ∀ v, e.2.find? "cpu MHz".toList = some v → (stod v).isSome)
    (hnodup : (entries.map (·.1)).Nodup) {cores : OrdMap Int (CPUCore D)}
    (hnew : ∀ e ∈ entries, e.1 ∉ cores.keys) :
    ∃ cores', makeCores stod entries cores = some cores' ∧
      cores'.entries.length = cores.entries.length + entries.length := by
  induction entries generalizing cores with
  | nil => exact ⟨cores, rfl, rfl⟩
  | cons e rest ih =>
    obtain ⟨identifier, core⟩ := e
    obtain ⟨hcore, hrest⟩ := List.forall_mem_cons.mp hstod
    obtain ⟨hfresh, hnew⟩ := List.forall_mem_cons.mp hnew
    obtain ⟨hnotin, hnodup⟩ := List.nodup_cons.mp hnodup
    obtain ⟨cpuCore, hmake⟩ := makeCore_isSome hcore identifier
    have hstill : ∀ e ∈ rest, e.1 ∉ (cores.assign identifier cpuCore).keys := by
      intro e he
      have hne : e.1 ≠ identifier := by
        rintro rfl
        exact hnotin (List.mem_map.mpr ⟨e, he, rfl⟩)
      rw [OrdMap.mem_keys, OrdMap.find?_assign, if_neg hne, ← OrdMap.mem_keys]
      exact hnew e he
    obtain ⟨cores', hmakes, hlength⟩ := ih hrest hnodup hstill
    refine ⟨cores', ?_, ?_⟩
    · simp only [makeCores, hmake, Option.bind_eq_bind, Option.bind_some, hmakes]
    · rw [hlength, OrdMap.length_assign_new _ hfresh, List.length_cons]
      omega

/-- One core for each unit of a tree with a unit 0. -/
theorem length_readCores {stod : Text → Option D} {tree : OrdMap Int (OrdMap Text Text)}
    (hzero : tree.contains 0 = true)
    (hstod : ∀ e ∈ tree.entries, ∀ v, e.2.find? "cpu MHz".toList = some v → (stod v).isSome) :
    ∃ cores, readCores stod tree = some cores ∧ cores.entries.length = tree.entries.length := by
  have hinsert : tree.insertNew 0 ∅ = tree := if_pos hzero
  have hnew : ∀ e ∈ tree.entries, e.1 ∉ (∅ : OrdMap Int (CPUCore D)).keys := by
    intro e _
    simp
  obtain ⟨cores, hmakes, hlength⟩ := length_makeCores hstod tree.nodup_keys hnew
  refine ⟨cores, ?_, ?_⟩
  · rw [readCores, hinsert, hmakes]
  · rw [hlength]
    exact Nat.zero_add _

end Rankd.Host

import Rankd.Host.CpuInfo

/-!
# One core for each processor

What `CPU::CPU()` makes of a text of blocks. A line without a value takes the line behind it in, and
a line with the key `processor` that is not the first of its block begins a unit of its own.

* `parsed_iff_readable`: the tree is the one of the blocks if and only if every block is `Readable`
* `readable_of_plain`: lines with values, with a single `processor` and no white space around keys
* `plain_of_readable`: of a block that repeats no key, nothing else is readable
-/

namespace Rankd.Host

open Infra

/-- One map for each block, numbered from 0, with the keys and the values of the block. -/
structure Numbered (blocks : List Block) (tree : OrdMap Int (OrdMap Text Text)) : Prop where
  count : tree.entries.length = blocks.length
  unit : ∀ (i : Nat) b, blocks[i]? = some b →
    ∃ unit, tree.find? i = some unit ∧ ∀ key, unit.find? key = b.valueOf key

/-- The text is parsed into its blocks, and there are as many cores as blocks if `std::stod` takes
every frequency. -/
def CpuInfo.Parsed (d : CpuInfo) : Prop :=
  ∃ p, parse d.text = some p ∧ Numbered d.blocks p.parsingTree ∧
    ∀ (D : Type) (stod : Text → Option D),
      (∀ b ∈ d.blocks, ∀ v, b.valueOf "cpu MHz".toList = some v → (stod v).isSome) →
      ∃ cores, readCores stod p.parsingTree = some cores ∧ cores.entries.length = d.blocks.length

/-- The lines of the block that are read as such tell the last value of every key. -/
structure Block.Readable (b : Block) : Prop where
  trimmed : ∀ l ∈ b.lines, trim l.key = l.key
  single : ∀ r ∈ (readings b.lines).tail, r.1.key ≠ processor
  current :
    ∀ key, ((readings b.lines).filter (·.1.key = key)).getLast?.map valueRead = b.valueOf key

/-- No line without a value has a line of the block behind it. -/
structure Block.Plain (b : Block) : Prop where
  trimmed : ∀ l ∈ b.lines, trim l.key = l.key
  single : ∀ l ∈ b.rest, l.key ≠ processor
  valued : ∀ l ∈ b.lines.dropLast, l.value ≠ none

/-! ## The units of the blocks -/

def Block.unit (b : Block) : OrdMap Text Text := assignAll ∅ b.attributes

/-- No attribute but the first begins a unit. -/
def Block.Whole (b : Block) : Prop := ∀ a ∈ b.attributes.tail, a.1 ≠ processor

theorem trim_processor : trim processor = processor := by decide

theorem Block.attributes_eq (b : Block) :
    ∃ v, b.attributes = (processor, v) :: b.attributes.tail := by
  have hkey : trim b.first.key = processor := by rw [b.first_key, trim_processor]
  unfold attributes lines
  cases b.rest with
  | nil => exact ⟨valueRead (b.first, none), by simp [readings, hkey]⟩
  | cons m rest =>
    rw [readings]
    split
    · exact ⟨valueRead (b.first, some m), by simp [hkey]⟩
    · exact ⟨valueRead (b.first, none), by simp [hkey]⟩

theorem Block.unit_eq {b : Block} {v : Text}
    (hv : b.attributes = (processor, v) :: b.attributes.tail) :
    b.unit = assignAll ((∅ : OrdMap Text Text).assign processor v) b.attributes.tail := by
  rw [unit, hv]
  rfl

def treeOf (blocks : List Block) : OrdMap Int (OrdMap Text Text) :=
  ((blocks.flatMap Block.attributes).foldl Parsing.record Parsing.start).close

theorem free_empty : ∀ i : Int, 0 ≤ i → (∅ : OrdMap Int (OrdMap Text Text)).find? i = none :=
  fun _ _ => rfl

theorem length_treeOf {blocks : List Block} (hne : blocks ≠ []) :
    (treeOf blocks).entries.length =
      (blocks.flatMap Block.attributes).countP (fun a => a.1 = processor) := by
  obtain ⟨b, bs, rfl⟩ := List.exists_cons_of_ne_nil hne
  obtain ⟨v, hv⟩ := b.attributes_eq
  rw [treeOf, List.flatMap_cons, hv, List.cons_append, Parsing.close_foldl_start,
    length_numberFrom free_empty, length_units, List.countP_cons]
  simp [Nat.add_comm]
  rfl

theorem countP_attributes (b : Block) :
    b.attributes.countP (fun a => a.1 = processor) =
      1 + b.attributes.tail.countP (fun a => a.1 = processor) := by
  obtain ⟨v, hv⟩ := b.attributes_eq
  rw [hv, List.countP_cons]
  simp [Nat.add_comm]

/-- As many `processor` attributes as blocks: each block has one. -/
theorem whole_of_countP {blocks : List Block}
    (h : (blocks.flatMap Block.attributes).countP (fun a => a.1 = processor) = blocks.length) :
    ∀ b ∈ blocks, b.Whole := by
  have hsum : (blocks.flatMap Block.attributes).countP (fun a => a.1 = processor) = blocks.length +
      (blocks.map (fun b => b.attributes.tail.countP (fun a => a.1 = processor))).sum := by
    clear h
    induction blocks with
    | nil => rfl
    | cons b bs ih =>
      rw [List.flatMap_cons, List.countP_append, ih, countP_attributes, List.map_cons,
        List.sum_cons, List.length_cons]
      omega
  have hzero :
    (blocks.map (fun b => b.attributes.tail.countP (fun a => a.1 = processor))).sum = 0 := by
    omega
  intro b hb a ha
  have hcount := List.sum_eq_zero_iff.mp hzero _ (List.mem_map_of_mem hb)
  simpa using List.countP_eq_zero.mp hcount a ha

theorem units_blocks {b : Block} {bs : List Block} (h : ∀ c ∈ b :: bs, c.Whole) {v : Text}
    (hv : b.attributes = (processor, v) :: b.attributes.tail) :
    units ((∅ : OrdMap Text Text).assign processor v)
      (b.attributes.tail ++ bs.flatMap Block.attributes) = (b :: bs).map Block.unit := by
  induction bs generalizing b v with
  | nil =>
    rw [units_append (h b List.mem_cons_self), ← Block.unit_eq hv]
    rfl
  | cons c bs ih =>
    obtain ⟨w, hw⟩ := c.attributes_eq
    have hrest : ∀ d ∈ c :: bs, d.Whole := fun d hd => h d (List.mem_cons_of_mem _ hd)
    rw [units_append (h b List.mem_cons_self), ← Block.unit_eq hv, List.flatMap_cons, hw,
      List.cons_append,
      units, if_pos rfl, ih hrest hw]
    rfl

theorem treeOf_eq {blocks : List Block} (hne : blocks ≠ []) (h : ∀ b ∈ blocks, b.Whole) :
    treeOf blocks = numberFrom 0 ∅ (blocks.map Block.unit) := by
  obtain ⟨b, bs, rfl⟩ := List.exists_cons_of_ne_nil hne
  obtain ⟨v, hv⟩ := b.attributes_eq
  rw [treeOf, List.flatMap_cons, hv, List.cons_append, Parsing.close_foldl_start,
    units_blocks h hv]

/-- The tree is numbered by the blocks if and only if each block makes one unit, with its values. -/
theorem numbered_treeOf_iff {blocks : List Block} (hne : blocks ≠ []) :
    Numbered blocks (treeOf blocks) ↔
      ∀ b ∈ blocks, b.Whole ∧ ∀ key, b.unit.find? key = b.valueOf key := by
  have hfind (hwhole : ∀ b ∈ blocks, b.Whole) (i : Nat) :
      (treeOf blocks).find? i = (blocks.map Block.unit)[i]? := by
    have hzero := find?_numberFrom free_empty (blocks.map Block.unit) i
    rwa [zero_add, ← treeOf_eq hne hwhole] at hzero
  constructor
  · intro h b hb
    have hwhole := whole_of_countP ((length_treeOf hne).symm.trans h.count)
    obtain ⟨i, hi, rfl⟩ := List.mem_iff_getElem.mp hb
    obtain ⟨unit, htree, hunit⟩ := h.unit i blocks[i] (List.getElem?_eq_getElem hi)
    rw [hfind hwhole, List.getElem?_map, List.getElem?_eq_getElem hi] at htree
    obtain rfl : Block.unit blocks[i] = unit := by simpa using htree
    exact ⟨hwhole _ hb, hunit⟩
  · intro h
    have hwhole : ∀ b ∈ blocks, b.Whole := fun b hb => (h b hb).1
    refine ⟨?_, ?_⟩
    · rw [treeOf_eq hne hwhole, length_numberFrom free_empty, List.length_map]
      exact Nat.zero_add _
    · intro i b hb
      refine ⟨b.unit, ?_, (h b (List.mem_of_getElem? hb)).2⟩
      rw [hfind hwhole, List.getElem?_map, hb]
      rfl

/-! ## Readable blocks -/

theorem mem_of_mem_readings {lines : List Line} {r : Line × Option Line}
    (h : r ∈ readings lines) : r.1 ∈ lines := by
  induction lines using readings.induct with
  | case1 => cases h
  | case2 l =>
    rw [readings, List.mem_singleton] at h
    rw [h]
    exact List.mem_singleton.mpr rfl
  | case3 l m rest hv ih =>
    rw [readings, if_pos hv] at h
    rcases List.mem_cons.mp h with rfl | h
    · exact List.mem_cons_self
    · exact List.mem_cons_of_mem _ (List.mem_cons_of_mem _ (ih h))
  | case4 l m rest hv ih =>
    rw [readings, if_neg hv] at h
    rcases List.mem_cons.mp h with rfl | h
    · exact List.mem_cons_self
    · exact List.mem_cons_of_mem _ (ih h)

section Trimmed

variable {b : Block} (htrim : ∀ l ∈ b.lines, trim l.key = l.key)
include htrim

theorem Block.whole_iff :
    b.Whole ↔ ∀ r ∈ (readings b.lines).tail, r.1.key ≠ processor := by
  have hkey : ∀ r ∈ (readings b.lines).tail, trim r.1.key = r.1.key :=
    fun r hr => htrim _ (mem_of_mem_readings (List.mem_of_mem_tail hr))
  unfold Whole attributes
  rw [← List.map_tail, List.forall_mem_map]
  constructor
  · intro h r hr
    exact hkey r hr ▸ h r hr
  · intro h r hr
    dsimp only
    rw [hkey r hr]
    exact h r hr

theorem Block.find?_unit (key : Text) :
    b.unit.find? key =
      ((readings b.lines).filter (·.1.key = key)).getLast?.map valueRead := by
  have hfilter : b.attributes.filter (·.1 = key) =
      ((readings b.lines).filter (·.1.key = key)).map (fun r => (trim r.1.key, valueRead r)) := by
    rw [attributes, List.filter_map]
    congr 1
    apply List.filter_congr
    intro r hr
    simp [htrim _ (mem_of_mem_readings hr)]
  rw [unit, find?_assignAll, hfilter, List.getLast?_map, Option.map_map, OrdMap.find?_empty,
    Option.or_none]
  rfl

end Trimmed

/-- White space around a key is lost. -/
theorem Block.trimmed_of_agrees {b : Block} (h : ∀ key, b.unit.find? key = b.valueOf key) :
    ∀ l ∈ b.lines, trim l.key = l.key := by
  intro l hl
  have hmem : l ∈ b.lines.filter (·.key = l.key) := List.mem_filter.mpr ⟨hl, by simp⟩
  have hne : b.lines.filter (·.key = l.key) ≠ [] := List.ne_nil_of_mem hmem
  have hfind : b.unit.find? l.key =
      some ((b.lines.filter (·.key = l.key)).getLast hne).content := by
    rw [h, valueOf, List.getLast?_eq_some_getLast hne]
    rfl
  rw [unit, find?_assignAll, OrdMap.find?_empty, Option.or_none, Option.map_eq_some_iff] at hfind
  obtain ⟨a, ha, -⟩ := hfind
  obtain ⟨hain, hakey⟩ := List.mem_filter.mp (List.mem_of_getLast? ha)
  obtain ⟨r, -, rfl⟩ := List.mem_map.mp hain
  rw [← of_decide_eq_true hakey]
  exact stripSpace_stripSpace r.1.key

theorem Block.readable_iff (b : Block) :
    b.Readable ↔ b.Whole ∧ ∀ key, b.unit.find? key = b.valueOf key := by
  constructor
  · intro h
    exact ⟨(whole_iff h.trimmed).mpr h.single,
      fun key => (find?_unit h.trimmed key).trans (h.current key)⟩
  · intro ⟨hwhole, hagrees⟩
    have htrim := trimmed_of_agrees hagrees
    exact {
      trimmed := htrim
      single := (whole_iff htrim).mp hwhole
      current := fun key => (find?_unit htrim key).symm.trans (hagrees key) }

/-! ## Plain blocks -/

theorem readings_of_valued {lines : List Line} (h : ∀ l ∈ lines.dropLast, l.value ≠ none) :
    readings lines = lines.map (fun l => (l, none)) := by
  induction lines using readings.induct with
  | case1 => rfl
  | case2 l => rfl
  | case3 l m rest hv ih => exact absurd hv (h l List.mem_cons_self)
  | case4 l m rest hv ih =>
    rw [readings, if_neg hv, ih (fun x hx => h x (List.mem_cons_of_mem _ hx))]
    rfl

theorem readable_of_plain {b : Block} (h : b.Plain) : b.Readable := by
  have hreadings := readings_of_valued h.valued
  refine ⟨h.trimmed, ?_, ?_⟩
  · rw [hreadings, ← List.map_tail, List.forall_mem_map]
    exact h.single
  · intro key
    rw [hreadings, List.filter_map, List.getLast?_map, Option.map_map]
    rfl

/-- Lines with different keys that are all read as such: none takes another one in. -/
theorem valued_of_mem_readings {lines : List Line} (hnodup : (lines.map (·.key)).Nodup)
    (h : ∀ l ∈ lines, ∃ r ∈ readings lines, r.1.key = l.key) :
    ∀ l ∈ lines.dropLast, l.value ≠ none := by
  induction lines using readings.induct with
  | case1 => simp
  | case2 l => simp
  | case3 l m rest hv ih =>
    -- `m` is taken in, and no other line has its key
    exfalso
    obtain ⟨hl, hm⟩ := List.nodup_cons.mp hnodup
    obtain ⟨r, hr, hkey⟩ := h m (List.mem_cons_of_mem _ List.mem_cons_self)
    rw [readings, if_pos hv] at hr
    rcases List.mem_cons.mp hr with rfl | hr
    · exact hl (List.mem_map.mpr ⟨m, List.mem_cons_self, hkey.symm⟩)
    · exact (List.nodup_cons.mp hm).1 (List.mem_map.mpr ⟨r.1, mem_of_mem_readings hr, hkey⟩)
  | case4 l m rest hv ih =>
    obtain ⟨hl, hrest⟩ := List.nodup_cons.mp hnodup
    have hvalued : ∀ x ∈ (m :: rest).dropLast, x.value ≠ none := by
      refine ih hrest ?_
      intro x hx
      obtain ⟨r, hr, hkey⟩ := h x (List.mem_cons_of_mem _ hx)
      rw [readings, if_neg hv] at hr
      rcases List.mem_cons.mp hr with rfl | hr
      · exact absurd (List.mem_map.mpr ⟨x, hx, hkey.symm⟩) hl
      · exact ⟨r, hr, hkey⟩
    exact List.forall_mem_cons.mpr ⟨hv, hvalued⟩

/-- A block without a repeated key is readable only where it is plain. -/
theorem plain_of_readable {b : Block} (hnodup : (b.lines.map (·.key)).Nodup) (h : b.Readable) :
    b.Plain := by
  have hread : ∀ l ∈ b.lines, ∃ r ∈ readings b.lines, r.1.key = l.key := by
    intro l hl
    have hmem : l ∈ b.lines.filter (·.key = l.key) := List.mem_filter.mpr ⟨hl, by simp⟩
    have hcurrent := h.current l.key
    rw [Block.valueOf, List.getLast?_eq_some_getLast (List.ne_nil_of_mem hmem), Option.map_some,
      Option.map_eq_some_iff] at hcurrent
    obtain ⟨r, hr, -⟩ := hcurrent
    obtain ⟨hin, hkey⟩ := List.mem_filter.mp (List.mem_of_getLast? hr)
    exact ⟨r, hin, of_decide_eq_true hkey⟩
  refine ⟨h.trimmed, ?_, valued_of_mem_readings hnodup hread⟩
  intro l hl hkey
  have hfirst : b.first.key ∉ b.rest.map (·.key) := (List.nodup_cons.mp hnodup).1
  rw [b.first_key] at hfirst
  exact hfirst (List.mem_map.mpr ⟨l, hl, hkey⟩)

/-! ## Cores -/

/-- There is no unit but those of the blocks. -/
theorem Numbered.exists_index {blocks : List Block} {tree : OrdMap Int (OrdMap Text Text)}
    (h : Numbered blocks tree) {i : Int} (hi : i ∈ tree.keys) :
    ∃ k : Nat, k < blocks.length ∧ i = k := by
  have hsub : (Finset.range blocks.length).image (Nat.cast : Nat → Int) ⊆ tree.keys.toFinset := by
    intro j hj
    obtain ⟨k, hk, rfl⟩ := Finset.mem_image.mp hj
    have hlt : k < blocks.length := Finset.mem_range.mp hk
    obtain ⟨unit, hunit, -⟩ := h.unit k blocks[k] (List.getElem?_eq_getElem hlt)
    exact List.mem_toFinset.mpr (OrdMap.mem_keys.mpr ⟨unit, hunit⟩)
  have hcard : tree.keys.toFinset.card ≤
      ((Finset.range blocks.length).image (Nat.cast : Nat → Int)).card := by
    rw [Finset.card_image_of_injective _ Nat.cast_injective, Finset.card_range, ← h.count,
      List.toFinset_card_of_nodup tree.nodup_keys, OrdMap.keys, List.length_map]
  have hmem := List.mem_toFinset.mpr hi
  rw [← Finset.eq_of_subset_of_card_le hsub hcard] at hmem
  obtain ⟨k, hk, rfl⟩ := Finset.mem_image.mp hmem
  exact ⟨k, Finset.mem_range.mp hk, rfl⟩

theorem cores_of_numbered {blocks : List Block} {tree : OrdMap Int (OrdMap Text Text)}
    (hne : blocks ≠ []) (h : Numbered blocks tree) {D : Type} {stod : Text → Option D}
    (hstod : ∀ b ∈ blocks, ∀ v, b.valueOf "cpu MHz".toList = some v → (stod v).isSome) :
    ∃ cores, readCores stod tree = some cores ∧ cores.entries.length = blocks.length := by
  have hpos := List.length_pos_of_ne_nil hne
  obtain ⟨first, hfirst, -⟩ := h.unit 0 blocks[0] (List.getElem?_eq_getElem hpos)
  have hzero : tree.contains 0 = true := OrdMap.contains_iff.mpr ⟨first, hfirst⟩
  rw [← h.count]
  refine length_readCores hzero ?_
  intro e he v hv
  obtain ⟨k, hk, hkey⟩ := h.exists_index (List.mem_map_of_mem he)
  obtain ⟨unit, hunit, hvalues⟩ := h.unit k blocks[k] (List.getElem?_eq_getElem hk)
  have he' : tree.find? e.1 = some e.2 := OrdMap.find?_eq_some.mpr he
  rw [hkey, hunit] at he'
  obtain rfl := Option.some.inj he'
  exact hstod blocks[k] (List.getElem_mem hk) v ((hvalues _).symm.trans hv)

theorem CpuInfo.blocks_ne_nil (d : CpuInfo) : d.blocks ≠ [] := by
  simp [blocks]

/-- The CPU is parsed as it is described if and only if every block is readable. -/
theorem parsed_iff_readable (d : CpuInfo) : d.Parsed ↔ ∀ b ∈ d.blocks, b.Readable := by
  obtain ⟨p, hparse, htree⟩ := d.parse_text
  have hne := d.blocks_ne_nil
  have hnumbered : Numbered d.blocks p.parsingTree ↔ ∀ b ∈ d.blocks, b.Readable := by
    rw [htree]
    change Numbered d.blocks (treeOf d.blocks) ↔ _
    rw [numbered_treeOf_iff hne]
    exact forall₂_congr fun b _ => b.readable_iff.symm
  rw [← hnumbered]
  constructor
  · rintro ⟨p', hparse', h, -⟩
    obtain rfl : p = p' := Option.some.inj (hparse.symm.trans hparse')
    exact h
  · intro h
    exact ⟨p, hparse, h, fun _ _ hstod => cores_of_numbered hne h hstod⟩

/-- What is known of a CPU without bugs. -/
def withoutBugs : CpuInfo where
  separated := []
  last := {
    first := ⟨processor, 1, some "0".toList, by decide, by decide, by decide⟩
    first_key := rfl
    rest := [
      ⟨"bugs".toList, 2, none, by decide, by decide, by decide⟩,
      ⟨"bogomips".toList, 1, some "7200.00".toList, by decide, by decide, by decide⟩] }
  ending := 2

/-- The line with the bogomips becomes the value of `bugs`. -/
theorem cpu_without_bugs_loses_bogomips :
    withoutBugs.text = "processor\t: 0\nbugs\t\t:\nbogomips\t: 7200.00\n\n".toList ∧
      ¬ withoutBugs.Parsed := by
  refine ⟨by decide, ?_⟩
  rintro ⟨p, hparse, hnumbered, -⟩
  have hlost : (parse withoutBugs.text).map (fun p => (p.parsingTree.find? 0).bind
      (·.find? "bogomips".toList)) = some none := by decide
  obtain ⟨unit, hunit, hvalues⟩ := hnumbered.unit 0 withoutBugs.last rfl
  have hvalue : withoutBugs.last.valueOf "bogomips".toList = some "7200.00".toList := by decide
  have hzero : p.parsingTree.find? 0 = some unit := hunit
  rw [hparse, Option.map_some, hzero, Option.bind_some, hvalues, hvalue] at hlost
  cases hlost

end Rankd.Host

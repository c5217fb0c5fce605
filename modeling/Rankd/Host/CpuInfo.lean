import Mathlib.Data.List.Chain
import Rankd.Host.Cpu

/-!
# The text of `/proc/cpuinfo`

Units separated by blank lines, a unit a list of lines `key: value` that begins with its `processor`
line. `heard` says which attributes the reader makes of the lines: it drops the character behind a
colon, so where a line ends with its colon the next line becomes its value.

* `readAttributes_items`: the inner loop records what is heard
* `parse_text`: the parsing of a whole text
-/

namespace Rankd.Host

open Infra

/-- `key: value`, or `key:` with nothing behind the colon. There may be tabs behind the key. -/
structure Line where
  key : Text
  tabs : Nat
  value : Option Text
  key_colon : ':' ∉ key
  key_newline : '\n' ∉ key
  value_newline : ∀ v ∈ value, '\n' ∉ v
  deriving DecidableEq

namespace Line

def behind (l : Line) : Text :=
  match l.value with
  | none => []
  | some v => ' ' :: v

def content (l : Line) : Text := l.value.getD []

def front (l : Line) : Text := l.key ++ List.replicate l.tabs '\t'

def text (l : Line) : Text := l.front ++ ':' :: l.behind

theorem colon_not_mem_front (l : Line) : ':' ∉ l.front := by
  simp [front, l.key_colon]

theorem newline_not_mem_behind (l : Line) : '\n' ∉ l.behind := by
  unfold behind
  split
  · simp
  · rename_i v hv
    simp [l.value_newline v hv]

theorem newline_not_mem_text (l : Line) : '\n' ∉ l.text := by
  simp [text, front, l.key_newline, l.newline_not_mem_behind]

/-- The tabs of a line and the newlines in front of it are not part of its key. -/
theorem trim_front (l : Line) (j : Nat) :
    trim (List.replicate j '\n' ++ l.front) = trim l.key := by
  rw [front, ← List.append_assoc]
  exact stripSpace_surround l.key (isSpace_of_mem_replicate rfl) (isSpace_of_mem_replicate rfl)

end Line

/-! ## Lines with the newlines behind them -/

def itemsText : List (Line × Nat) → Text
  | [] => []
  | (l, n) :: rest => l.text ++ (List.replicate n '\n' ++ itemsText rest)

/-- Only the last line may end without a newline. -/
def Separated (items : List (Line × Nat)) : Prop := items.IsChain (fun e _ => 0 < e.2)

/-- The attributes that are recorded. A line without a value takes the next line in, unless that is
a blank line. -/
def heard : List (Line × Nat) → List (Text × Text)
  | [] => []
  | [(l, _)] => [(trim l.key, l.content)]
  | (l, n) :: (m, k) :: rest =>
    if l.value = none ∧ n = 1 then (trim l.key, m.text) :: heard rest
    else (trim l.key, l.content) :: heard ((m, k) :: rest)

/-- The stream in front of some lines, with newlines that are still to be read. -/
def Before (items : List (Line × Nat)) (s : InputStream) : Prop :=
  (items = [] ∧ s.eof = true) ∨
    ∃ j, s = InputStream.opened (List.replicate j '\n' ++ itemsText items)

/-- The rest of a line is read, with one of the newlines behind it. -/
theorem getline_rest {t : Text} (ht : '\n' ∉ t) {n : Nat} {rest : List (Line × Nat)}
    (hn : 0 < n ∨ rest = []) :
    ∃ s, (InputStream.opened (t ++ (List.replicate n '\n' ++ itemsText rest))).getline '\n' [] =
      (t, s) ∧ Before rest s := by
  cases n with
  | zero =>
    obtain rfl := hn.resolve_left (lt_irrefl 0)
    refine ⟨⟨[], true, t.isEmpty⟩, ?_, Or.inl ⟨rfl, rfl⟩⟩
    rw [List.replicate_zero, List.nil_append, itemsText, List.append_nil]
    exact InputStream.getline_last ht
  | succ n =>
    refine ⟨InputStream.opened (List.replicate n '\n' ++ itemsText rest), ?_, Or.inr ⟨n, rfl⟩⟩
    rw [List.replicate_succ, List.cons_append]
    exact InputStream.getline_found ht

/-- What is read behind the colon of a line that takes no other line in. -/
theorem getline_content {l : Line} {n : Nat} {rest : List (Line × Nat)} (hn : 0 < n ∨ rest = [])
    (halone : l.value = none → n = 1 → rest = []) :
    ∃ s, (InputStream.opened (l.behind ++ (List.replicate n '\n' ++ itemsText rest))).get.getline
      '\n' [] = (l.content, s) ∧ Before rest s := by
  cases hv : l.value with
  | some v =>
    have hbehind : l.behind = ' ' :: v := by simp [Line.behind, hv]
    have hcontent : l.content = v := by simp [Line.content, hv]
    rw [hbehind, hcontent, List.cons_append, InputStream.get_cons]
    exact getline_rest (l.value_newline v hv) hn
  | none =>
    have hbehind : l.behind = [] := by simp [Line.behind, hv]
    have hcontent : l.content = [] := by simp [Line.content, hv]
    rw [hbehind, hcontent, List.nil_append]
    match n with
    | 0 =>
      obtain rfl := hn.resolve_left (lt_irrefl 0)
      exact ⟨_, InputStream.getline_of_eof rfl, Or.inl ⟨rfl, rfl⟩⟩
    | 1 =>
      obtain rfl := halone hv rfl
      exact ⟨_, rfl, Or.inl ⟨rfl, rfl⟩⟩
    | n + 2 =>
      rw [List.replicate_succ, List.cons_append, InputStream.get_cons]
      exact getline_rest (t := []) (List.not_mem_nil) (Or.inl (Nat.succ_pos n))

/-- A line without a value takes the next one in. -/
theorem getline_taken {l m : Line} (hv : l.value = none) {k : Nat} {rest : List (Line × Nat)}
    (hk : 0 < k ∨ rest = []) :
    ∃ s, (InputStream.opened (l.behind ++
      (List.replicate 1 '\n' ++ itemsText ((m, k) :: rest)))).get.getline '\n' [] =
      (m.text, s) ∧ Before rest s := by
  have hbehind : l.behind = [] := by simp [Line.behind, hv]
  rw [hbehind, List.nil_append, List.replicate_one, List.singleton_append, InputStream.get_cons]
  exact getline_rest m.newline_not_mem_text hk

/-- One round of the inner loop. -/
theorem readAttributes_line (fuel : Nat) (line : Text) (j : Nat) (l : Line) (after value : Text)
    (s : InputStream) (p : Parsing)
    (hvalue : (InputStream.opened (l.behind ++ after)).get.getline '\n' [] = (value, s)) :
    readAttributes (fuel + 1) line
        (InputStream.opened (List.replicate j '\n' ++ (l.text ++ after))) p =
      readAttributes fuel (List.replicate j '\n' ++ l.front) s (p.record (trim l.key, value)) := by
  have hfront : ':' ∉ List.replicate j '\n' ++ l.front := by
    simp [l.colon_not_mem_front]
  have htext : List.replicate j '\n' ++ (l.text ++ after) =
      (List.replicate j '\n' ++ l.front) ++ ':' :: (l.behind ++ after) := by
    simp [Line.text]
  rw [htext, readAttributes, InputStream.getline_found hfront]
  simp only [l.trim_front, hvalue]
  rfl

/-- The round that finds no further line. -/
theorem readAttributes_nil (fuel : Nat) (line : Text) {s : InputStream} (hs : Before [] s)
    (p : Parsing) :
    ∃ s', readAttributes (fuel + 1) line s p = some (s', p) ∧ s'.eof = true := by
  rcases hs with ⟨-, heof⟩ | ⟨j, rfl⟩
  · refine ⟨{ s with fail := true }, ?_, heof⟩
    rw [readAttributes, InputStream.getline_of_eof heof]
    simp [heof]
  · have hcolon : ':' ∉ List.replicate j '\n' := by simp
    refine ⟨⟨[], true, (List.replicate j '\n').isEmpty⟩, ?_, rfl⟩
    rw [itemsText, List.append_nil, readAttributes, InputStream.getline_last hcolon]
    rfl

theorem Before.cons {l : Line} {n : Nat} {rest : List (Line × Nat)} {s : InputStream}
    (hs : Before ((l, n) :: rest) s) :
    ∃ j, s = InputStream.opened (List.replicate j '\n' ++
      (l.text ++ (List.replicate n '\n' ++ itemsText rest))) := by
  rcases hs with ⟨hnil, -⟩ | hs
  · cases hnil
  · exact hs

/-- The inner loop records what is heard and ends at the end of the text. -/
theorem readAttributes_items {items : List (Line × Nat)} (hsep : Separated items) {fuel : Nat}
    (hfuel : items.length < fuel) (line : Text) {s : InputStream} (hs : Before items s)
    (p : Parsing) :
    ∃ s', readAttributes fuel line s p = some (s', (heard items).foldl Parsing.record p) ∧
      s'.eof = true := by
  obtain ⟨fuel, rfl⟩ : ∃ f, fuel = f + 1 := ⟨fuel - 1, by omega⟩
  induction items using heard.induct generalizing fuel line s p with
  | case1 => exact readAttributes_nil fuel line hs p
  | case2 l n =>
    obtain ⟨j, rfl⟩ := hs.cons
    obtain ⟨s', hvalue, hs'⟩ := getline_content (l := l) (n := n) (Or.inr rfl) (fun _ _ => rfl)
    obtain ⟨fuel, rfl⟩ : ∃ f, fuel = f + 1 := ⟨fuel - 1, by simp at hfuel; omega⟩
    rw [readAttributes_line _ _ _ _ _ _ _ _ hvalue]
    exact readAttributes_nil fuel _ hs' _
  | case3 l n m k rest h ih =>
    obtain ⟨j, rfl⟩ := hs.cons
    obtain ⟨hv, rfl⟩ := h
    have htail : Separated ((m, k) :: rest) := (List.isChain_cons_cons.mp hsep).2
    have hrest : Separated rest := htail.tail
    have hk : 0 < k ∨ rest = [] := by
      cases rest with
      | nil => exact Or.inr rfl
      | cons e rest => exact Or.inl (List.isChain_cons_cons.mp htail).1
    obtain ⟨s', hvalue, hs'⟩ := getline_taken (l := l) (m := m) hv hk
    obtain ⟨fuel, rfl⟩ : ∃ f, fuel = f + 1 := ⟨fuel - 1, by simp at hfuel; omega⟩
    rw [readAttributes_line _ _ _ _ _ _ _ _ hvalue, heard, if_pos ⟨hv, rfl⟩, List.foldl_cons]
    exact ih hrest _ hs' _ fuel (by simp at hfuel; omega)
  | case4 l n m k rest h ih =>
    obtain ⟨j, rfl⟩ := hs.cons
    obtain ⟨hn, htail⟩ := List.isChain_cons_cons.mp hsep
    have halone : l.value = none → n = 1 → (m, k) :: rest = [] :=
      fun hv hone => absurd ⟨hv, hone⟩ h
    obtain ⟨s', hvalue, hs'⟩ := getline_content (Or.inl hn) halone
    obtain ⟨fuel, rfl⟩ : ∃ f, fuel = f + 1 := ⟨fuel - 1, by simp at hfuel; omega⟩
    rw [readAttributes_line _ _ _ _ _ _ _ _ hvalue, heard, if_neg h, List.foldl_cons]
    exact ih htail _ hs' _ fuel (by simpa using hfuel)

theorem length_le_itemsText (items : List (Line × Nat)) :
    items.length ≤ (itemsText items).length := by
  induction items with
  | nil => exact le_refl _
  | cons e rest ih =>
    obtain ⟨l, n⟩ := e
    simp only [itemsText, Line.text, List.length_append, List.length_cons]
    omega

/-- The parsing of a text of lines. -/
theorem parse_itemsText {items : List (Line × Nat)} (hsep : Separated items) :
    ∃ p, parse (itemsText items) = some p ∧
      p.parsingTree = ((heard items).foldl Parsing.record Parsing.start).close := by
  have hs : Before items (InputStream.opened (itemsText items)) := Or.inr ⟨0, rfl⟩
  have hfuel : items.length < (itemsText items).length + 1 :=
    Nat.lt_succ_of_le (length_le_itemsText items)
  obtain ⟨s, hread, heof⟩ := readAttributes_items hsep hfuel [] hs Parsing.start
  have hgood : s.good = false := by simp [InputStream.good, heof]
  refine ⟨{ (heard items).foldl Parsing.record Parsing.start with
    parsingTree := ((heard items).foldl Parsing.record Parsing.start).close }, ?_, rfl⟩
  have hstart : ({ Parsing.start with unit := -1 } : Parsing) = Parsing.start := rfl
  have hrest : (InputStream.opened (itemsText items)).rest = itemsText items := rfl
  rw [parse, readUnits, InputStream.good_opened, if_pos rfl, hstart, hrest, hread]
  simp [readUnits, hgood]

/-! ## Blocks -/

/-- The lines of one processor. -/
structure Block where
  first : Line
  first_key : first.key = processor
  rest : List Line

def Block.lines (b : Block) : List Line := b.first :: b.rest

theorem Block.lines_ne_nil (b : Block) : b.lines ≠ [] := List.cons_ne_nil _ _

def joinLines : List Line → Text
  | [] => []
  | [l] => l.text
  | l :: m :: rest => l.text ++ '\n' :: joinLines (m :: rest)

/-- The value of the last line with a key. -/
def Block.valueOf (b : Block) (key : Text) : Option Text :=
  (b.lines.filter (·.key = key)).getLast?.map Line.content

/-- One or more blocks, with `n + 1` blank lines behind a block that is not the last one. -/
structure CpuInfo where
  separated : List (Block × Nat)
  last : Block
  ending : Nat

namespace CpuInfo

def blocks (d : CpuInfo) : List Block := d.separated.map (·.1) ++ [d.last]

def text (d : CpuInfo) : Text :=
  d.separated.flatMap (fun u => joinLines u.1.lines ++ List.replicate (u.2 + 2) '\n') ++
    (joinLines d.last.lines ++ List.replicate d.ending '\n')

end CpuInfo

/-- The lines that are read as such, each with the line it takes in. -/
def readings : List Line → List (Line × Option Line)
  | [] => []
  | [l] => [(l, none)]
  | l :: m :: rest =>
    if l.value = none then (l, some m) :: readings rest
    else (l, none) :: readings (m :: rest)

def valueRead (r : Line × Option Line) : Text :=
  match r.2 with
  | none => r.1.content
  | some m => m.text

def Block.attributes (b : Block) : List (Text × Text) :=
  (readings b.lines).map (fun r => (trim r.1.key, valueRead r))

/-- The lines of a block with `n` newlines behind the last one. -/
def lineItems (n : Nat) : List Line → List (Line × Nat)
  | [] => []
  | l :: rest => (l, if rest.isEmpty then n else 1) :: lineItems n rest

theorem itemsText_lineItems (n : Nat) {lines : List Line} (hne : lines ≠ [])
    (rest : List (Line × Nat)) :
    itemsText (lineItems n lines ++ rest) =
      joinLines lines ++ (List.replicate n '\n' ++ itemsText rest) := by
  induction lines using joinLines.induct with
  | case1 => exact absurd rfl hne
  | case2 l => rfl
  | case3 l m ls ih =>
    rw [lineItems, List.cons_append, itemsText, ih (List.cons_ne_nil m ls), joinLines]
    simp

theorem separated_lineItems (n : Nat) (lines : List Line) : Separated (lineItems n lines) := by
  induction lines with
  | nil => exact List.IsChain.nil
  | cons l rest ih =>
    cases rest with
    | nil => exact List.IsChain.singleton _
    | cons m rest => exact List.isChain_cons_cons.mpr ⟨Nat.one_pos, ih⟩

theorem pos_of_mem_lineItems {n : Nat} (hn : 0 < n) {lines : List Line} :
    ∀ e ∈ lineItems n lines, 0 < e.2 := by
  induction lines with
  | nil => simp [lineItems]
  | cons l rest ih =>
    rw [lineItems]
    refine List.forall_mem_cons.mpr ⟨?_, ih⟩
    dsimp only
    split
    · exact hn
    · exact Nat.one_pos

theorem Separated.append {a b : List (Line × Nat)} (ha : ∀ e ∈ a, 0 < e.2) (hb : Separated b) :
    Separated (a ++ b) := by
  induction a with
  | nil => exact hb
  | cons e a ih =>
    obtain ⟨he, ha⟩ := List.forall_mem_cons.mp ha
    exact List.isChain_cons.mpr ⟨fun _ _ => he, ih ha⟩

/-- No line of a block takes in a line behind the block. -/
theorem heard_lineItems {n : Nat} {rest : List (Line × Nat)} (hn : 2 ≤ n ∨ rest = [])
    (lines : List Line) :
    heard (lineItems n lines ++ rest) =
      (readings lines).map (fun r => (trim r.1.key, valueRead r)) ++ heard rest := by
  induction lines using readings.induct with
  | case1 => rfl
  | case2 l =>
    cases rest with
    | nil => rfl
    | cons e rest =>
      obtain ⟨m, k⟩ := e
      have htwo : 2 ≤ n := hn.resolve_right (List.cons_ne_nil _ _)
      have hone : ¬ (l.value = none ∧ n = 1) := by omega
      simp [lineItems, heard, readings, valueRead, hone]
  | case3 l m ls hv ih =>
    have hitems : lineItems n (l :: m :: ls) ++ rest =
        (l, 1) :: (m, if ls.isEmpty then n else 1) :: (lineItems n ls ++ rest) := rfl
    rw [hitems, heard, if_pos ⟨hv, rfl⟩, ih, readings, if_pos hv]
    rfl
  | case4 l m ls hv ih =>
    have hitems : lineItems n (l :: m :: ls) ++ rest =
        (l, 1) :: (m, if ls.isEmpty then n else 1) :: (lineItems n ls ++ rest) := rfl
    have htail : (m, if ls.isEmpty then n else 1) :: (lineItems n ls ++ rest) =
        lineItems n (m :: ls) ++ rest := rfl
    rw [hitems, heard, if_neg (fun h => hv h.1), htail, ih, readings, if_neg hv]
    rfl

namespace CpuInfo

def items (d : CpuInfo) : List (Line × Nat) :=
  d.separated.flatMap (fun u => lineItems (u.2 + 2) u.1.lines) ++ lineItems d.ending d.last.lines

theorem itemsText_items (d : CpuInfo) : itemsText d.items = d.text := by
  obtain ⟨separated, last, ending⟩ := d
  unfold items text
  dsimp only
  induction separated with
  | nil =>
    have hlast := itemsText_lineItems ending last.lines_ne_nil []
    rw [List.append_nil, itemsText, List.append_nil] at hlast
    exact hlast
  | cons u rest ih =>
    rw [List.flatMap_cons, List.flatMap_cons, List.append_assoc, List.append_assoc,
      itemsText_lineItems _ u.1.lines_ne_nil, ih, List.append_assoc]

theorem separated_items (d : CpuInfo) : Separated d.items := by
  refine Separated.append ?_ (separated_lineItems d.ending d.last.lines)
  intro e he
  obtain ⟨u, -, he⟩ := List.mem_flatMap.mp he
  exact pos_of_mem_lineItems (Nat.succ_pos _) e he

theorem heard_items (d : CpuInfo) : heard d.items = d.blocks.flatMap Block.attributes := by
  obtain ⟨separated, last, ending⟩ := d
  unfold items blocks
  dsimp only
  induction separated with
  | nil =>
    have hlast := heard_lineItems (n := ending) (Or.inr rfl) last.lines
    rw [List.append_nil] at hlast
    simpa [heard, Block.attributes] using hlast
  | cons u rest ih =>
    rw [List.flatMap_cons, List.append_assoc, heard_lineItems (Or.inl (Nat.le_add_left 2 u.2)), ih]
    rfl

/-- The parsing of a text of blocks. -/
theorem parse_text (d : CpuInfo) :
    ∃ p, parse d.text = some p ∧ p.parsingTree =
      ((d.blocks.flatMap Block.attributes).foldl Parsing.record Parsing.start).close := by
  rw [← itemsText_items, ← heard_items]
  exact parse_itemsText d.separated_items

end CpuInfo

end Rankd.Host

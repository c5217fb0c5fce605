import Mathlib.Data.List.DropRight
import Mathlib.Data.List.TakeWhile

/-!
# Input streams

`std::istream` on a text that is in memory: `getline` with a delimiter, `get`, and the two flags
that end the reading.

* `getline_found`, `getline_last`: a text with the delimiter, and one without it
* `getline_of_eof`: at its end a stream hands out nothing more
* `stripSpace_surround`, `stripSpace_stripSpace`: white space at the ends of a text
-/

namespace Rankd.Infra

abbrev Text := List Char

structure InputStream where
  rest : Text
  eof : Bool
  fail : Bool
  deriving DecidableEq, Repr

namespace InputStream

/-- A stream that was just opened. -/
def opened (text : Text) : InputStream := ⟨text, false, false⟩

def good (s : InputStream) : Bool := !s.eof && !s.fail

/-- `get()` as a statement: one character is dropped. -/
def get (s : InputStream) : InputStream :=
  if s.good then
    match s.rest with
    | [] => { s with eof := true, fail := true }
    | _ :: rest => { s with rest := rest }
  else { s with fail := true }

/-- `getline` into a string with the value `old`, which is kept if the stream is not good. -/
def getline (delim : Char) (old : Text) (s : InputStream) : Text × InputStream :=
  if s.good then
    match s.rest.dropWhile (· ≠ delim) with
    | [] => (s.rest, ⟨[], true, s.rest.isEmpty⟩)
    | _ :: rest => (s.rest.takeWhile (· ≠ delim), ⟨rest, false, false⟩)
  else (old, { s with fail := true })

variable {delim : Char} {a b old : Text} {s : InputStream}

@[simp] theorem good_opened (text : Text) : (opened text).good = true := rfl

@[simp] theorem get_cons (c : Char) (text : Text) : (opened (c :: text)).get = opened text := rfl

theorem getline_of_eof (h : s.eof = true) : s.getline delim old =
    (old, { s with fail := true }) := by
  simp [getline, good, h]

theorem takeWhile_append_delim (ha : delim ∉ a) :
    (a ++ delim :: b).takeWhile (· ≠ delim) = a ∧
      (a ++ delim :: b).dropWhile (· ≠ delim) = delim :: b := by
  induction a with
  | nil => simp
  | cons c a ih =>
    obtain ⟨hc, ha⟩ := not_or.mp (List.mem_cons.not.mp ha)
    obtain ⟨htake, hdrop⟩ := ih ha
    have hne : decide (c ≠ delim) = true := decide_eq_true (Ne.symm hc)
    constructor
    · rw [List.cons_append, List.takeWhile_cons, if_pos hne, htake]
    · rw [List.cons_append, List.dropWhile_cons, if_pos hne, hdrop]

/-- Up to the delimiter, which is dropped. -/
theorem getline_found (ha : delim ∉ a) :
    (opened (a ++ delim :: b)).getline delim old = (a, opened b) := by
  obtain ⟨htake, hdrop⟩ := takeWhile_append_delim (b := b) ha
  have hrest : (opened (a ++ delim :: b)).rest = a ++ delim :: b := rfl
  rw [getline, good_opened, if_pos rfl, hrest, hdrop, htake]
  rfl

/-- Up to the end of the text. -/
theorem getline_last (ha : delim ∉ a) :
    (opened a).getline delim old = (a, ⟨[], true, a.isEmpty⟩) := by
  have hdrop : a.dropWhile (· ≠ delim) = [] := by
    rw [List.dropWhile_eq_nil_iff]
    intro c hc
    simp only [ne_eq, decide_not, Bool.not_eq_true', decide_eq_false_iff_not]
    rintro rfl
    exact ha hc
  have hrest : (opened a).rest = a := rfl
  rw [getline, good_opened, if_pos rfl, hrest, hdrop]

end InputStream

/-! ## White space -/

/-- `std::isspace` in the C locale. -/
def isSpace (c : Char) : Bool :=
  c = ' ' || c = '\t' || c = '\n' || c = '\x0b' || c = '\x0c' || c = '\r'

/-- A text without the white space at both ends. -/
def stripSpace (s : Text) : Text := (s.dropWhile isSpace).rdropWhile isSpace

theorem isSpace_of_mem_replicate {c : Char} (h : isSpace c = true) {n : Nat} :
    ∀ x ∈ List.replicate n c, isSpace x = true := by
  intro x hx
  rw [List.eq_of_mem_replicate hx]
  exact h

theorem rdropWhile_append_space {a b : Text} (hb : ∀ c ∈ b, isSpace c = true) :
    (a ++ b).rdropWhile isSpace = a.rdropWhile isSpace := by
  rw [List.rdropWhile, List.rdropWhile, List.reverse_append, List.dropWhile_append_of_pos]
  simpa using hb

/-- White space around a text does not matter. -/
theorem stripSpace_surround {a b : Text} (s : Text) (ha : ∀ c ∈ a, isSpace c = true)
    (hb : ∀ c ∈ b, isSpace c = true) : stripSpace (a ++ s ++ b) = stripSpace s := by
  rw [stripSpace, stripSpace, List.append_assoc, List.dropWhile_append_of_pos ha,
    List.dropWhile_append]
  by_cases hs : (s.dropWhile isSpace).isEmpty = true
  · have hnil := List.dropWhile_eq_nil_iff.mpr hb
    rw [if_pos hs, hnil, List.isEmpty_iff.mp hs]
  · rw [if_neg hs, rdropWhile_append_space hb]

theorem stripSpace_stripSpace (s : Text) : stripSpace (stripSpace s) = stripSpace s := by
  have hself : (stripSpace s).dropWhile isSpace = stripSpace s := by
    rw [List.dropWhile_eq_self_iff]
    intro hpos
    have hprefix : stripSpace s <+: s.dropWhile isSpace := List.rdropWhile_prefix isSpace _
    obtain ⟨t, ht⟩ := hprefix
    have hlen : 0 < (s.dropWhile isSpace).length := by
      rw [← ht, List.length_append]
      omega
    have hhead : (stripSpace s)[0] = (s.dropWhile isSpace)[0] := by
      simp only [← ht]
      rw [List.getElem_append_left hpos]
    rw [hhead]
    exact List.dropWhile_get_zero_not isSpace s hlen
  rw [stripSpace, hself, stripSpace, List.rdropWhile_idempotent]

end Rankd.Infra

import Mathlib.Data.List.Basic
import Mathlib.Order.Defs.LinearOrder
import Mathlib.Tactic

/-!
# Ordered maps

A model of `std::map`: a list of entries with strictly increasing keys. Iteration is in key order.

* `assign` is `operator[]` on the left of an assignment, `insertNew` is `insert`, which keeps an
  entry that is already there
* `rename` is `extract`, a new key, and `insert` of the node
* a map is determined by its lookups (`ext_find?`)
-/

namespace Rankd.Infra

/-- Entries with strictly increasing keys. -/
structure OrdMap (κ α : Type) [LinearOrder κ] where
  entries : List (κ × α)
  sorted : entries.Pairwise (fun e f => e.1 < f.1)

namespace OrdMap

variable {κ α : Type} [LinearOrder κ]

instance [DecidableEq α] : DecidableEq (OrdMap κ α) := fun m₁ m₂ =>
  decidable_of_iff (m₁.entries = m₂.entries) (by
    obtain ⟨e₁, _⟩ := m₁
    obtain ⟨e₂, _⟩ := m₂
    simp)

def empty : OrdMap κ α := ⟨[], List.Pairwise.nil⟩

instance : EmptyCollection (OrdMap κ α) := ⟨empty⟩

def find? (m : OrdMap κ α) (k : κ) : Option α := (m.entries.find? (·.1 = k)).map (·.2)

def contains (m : OrdMap κ α) (k : κ) : Bool := (m.find? k).isSome

def keys (m : OrdMap κ α) : List κ := m.entries.map (·.1)

/-- Insertion in key order, replacing the entry of an equal key. -/
def assignEntries (k : κ) (a : α) : List (κ × α) → List (κ × α)
  | [] => [(k, a)]
  | e :: rest =>
    if k < e.1 then (k, a) :: e :: rest
    else if k = e.1 then (k, a) :: rest
    else e :: assignEntries k a rest

theorem mem_assignEntries {k : κ} {a : α} {e : κ × α} {l : List (κ × α)}
    (h : e ∈ assignEntries k a l) : e = (k, a) ∨ e ∈ l := by
  induction l with
  | nil => simpa [assignEntries] using h
  | cons f rest ih =>
    rw [assignEntries] at h
    split_ifs at h with h1 h2
    · rcases List.mem_cons.mp h with rfl | h
      · exact Or.inl rfl
      · exact Or.inr h
    · rcases List.mem_cons.mp h with rfl | h
      · exact Or.inl rfl
      · exact Or.inr (List.mem_cons_of_mem f h)
    · rcases List.mem_cons.mp h with rfl | h
      · exact Or.inr List.mem_cons_self
      · rcases ih h with h | h
        · exact Or.inl h
        · exact Or.inr (List.mem_cons_of_mem f h)

theorem sorted_assignEntries (k : κ) (a : α) {l : List (κ × α)}
    (h : l.Pairwise (fun e f => e.1 < f.1)) :
    (assignEntries k a l).Pairwise (fun e f => e.1 < f.1) := by
  induction l with
  | nil => simp [assignEntries]
  | cons e rest ih =>
    obtain ⟨hhead, htail⟩ := List.pairwise_cons.mp h
    rw [assignEntries]
    split_ifs with h1 h2
    · refine List.pairwise_cons.mpr ⟨?_, h⟩
      intro f hf
      rcases List.mem_cons.mp hf with rfl | hf
      · exact h1
      · exact lt_trans h1 (hhead f hf)
    · subst h2
      exact List.pairwise_cons.mpr ⟨hhead, htail⟩
    · refine List.pairwise_cons.mpr ⟨?_, ih htail⟩
      intro f hf
      rcases mem_assignEntries hf with rfl | hf
      · exact lt_of_le_of_ne (not_lt.mp h1) (Ne.symm h2)
      · exact hhead f hf

def assign (m : OrdMap κ α) (k : κ) (a : α) : OrdMap κ α :=
  ⟨assignEntries k a m.entries, sorted_assignEntries k a m.sorted⟩

def insertNew (m : OrdMap κ α) (k : κ) (a : α) : OrdMap κ α :=
  if m.contains k then m else m.assign k a

def erase (m : OrdMap κ α) (k : κ) : OrdMap κ α :=
  ⟨m.entries.filter (·.1 ≠ k), m.sorted.sublist List.filter_sublist⟩

/-- Moves the entry of `k` to `k'`. Without an entry at `k` nothing happens. -/
def rename (m : OrdMap κ α) (k k' : κ) : OrdMap κ α :=
  match m.find? k with
  | none => m
  | some a => (m.erase k).insertNew k' a

/-! ## Lookups -/

theorem find?_of_mem {m : OrdMap κ α} {k : κ} {a : α} (h : (k, a) ∈ m.entries) :
    m.find? k = some a := by
  obtain ⟨l, hl⟩ := m
  simp only [find?] at *
  induction l with
  | nil => cases h
  | cons e rest ih =>
    obtain ⟨hhead, htail⟩ := List.pairwise_cons.mp hl
    rcases List.mem_cons.mp h with rfl | h
    · simp
    · have hne : e.1 ≠ k := ne_of_lt (hhead _ h)
      rw [List.find?_cons_of_neg (by simpa using hne)]
      exact ih htail h

theorem find?_eq_some {m : OrdMap κ α} {k : κ} {a : α} :
    m.find? k = some a ↔ (k, a) ∈ m.entries := by
  constructor
  · intro h
    obtain ⟨e, he, rfl⟩ := Option.map_eq_some_iff.mp h
    have hk : e.1 = k := by simpa using List.find?_some he
    have hmem := List.mem_of_find?_eq_some he
    rw [← hk]
    exact hmem
  · exact find?_of_mem

theorem mem_keys {m : OrdMap κ α} {k : κ} : k ∈ m.keys ↔ ∃ a, m.find? k = some a := by
  simp only [keys, List.mem_map, find?_eq_some]
  constructor
  · rintro ⟨e, he, rfl⟩
    exact ⟨e.2, he⟩
  · rintro ⟨a, ha⟩
    exact ⟨(k, a), ha, rfl⟩

theorem contains_iff {m : OrdMap κ α} {k : κ} : m.contains k = true ↔ ∃ a, m.find? k = some a := by
  rw [contains, Option.isSome_iff_exists]

theorem contains_iff_mem {m : OrdMap κ α} {k : κ} : m.contains k = true ↔ k ∈ m.keys := by
  rw [contains_iff, mem_keys]

@[simp] theorem find?_empty (k : κ) : (∅ : OrdMap κ α).find? k = none := rfl

@[simp] theorem keys_empty : (∅ : OrdMap κ α).keys = [] := rfl

theorem nodup_keys (m : OrdMap κ α) : m.keys.Nodup := by
  rw [keys, List.nodup_iff_pairwise_ne, List.pairwise_map]
  exact m.sorted.imp fun h => ne_of_lt h

theorem find?_assignEntries (k : κ) (a : α) (j : κ) (l : List (κ × α)) :
    ((assignEntries k a l).find? (·.1 = j)).map (·.2) =
      if j = k then some a else (l.find? (·.1 = j)).map (·.2) := by
  induction l with
  | nil => by_cases hj : j = k <;> simp [assignEntries, hj, eq_comm]
  | cons e rest ih =>
    rw [assignEntries]
    by_cases h1 : k < e.1
    · rw [if_pos h1]
      by_cases hj : j = k
      · simp [hj]
      · simp [hj, Ne.symm hj]
    · rw [if_neg h1]
      by_cases h2 : k = e.1
      · rw [if_pos h2]
        by_cases hj : j = k
        · simp [hj]
        · simp [hj, Ne.symm hj, ← h2]
      · rw [if_neg h2]
        by_cases he : e.1 = j
        · simp [he, show ¬j = k from fun h => h2 (by rw [he, h])]
        · have hneg : ¬decide (e.1 = j) = true := by simpa using he
          rw [List.find?_cons, List.find?_cons]
          simp only [hneg]
          exact ih

@[simp] theorem find?_assign (m : OrdMap κ α) (k : κ) (a : α) (j : κ) :
    (m.assign k a).find? j = if j = k then some a else m.find? j :=
  find?_assignEntries k a j m.entries

@[simp] theorem find?_erase (m : OrdMap κ α) (k j : κ) :
    (m.erase k).find? j = if j = k then none else m.find? j := by
  by_cases hj : j = k
  · rw [if_pos hj, find?, Option.map_eq_none_iff, List.find?_eq_none]
    intro e he
    have hne := (List.mem_filter.mp he).2
    simp only [decide_eq_true_eq] at hne ⊢
    rw [hj]
    exact hne
  · rw [if_neg hj, find?, find?, erase, List.find?_filter]
    congr 2
    funext e
    by_cases he : e.1 = j
    · simp [he, hj]
    · simp [he]

@[simp] theorem find?_insertNew (m : OrdMap κ α) (k : κ) (a : α) (j : κ) :
    (m.insertNew k a).find? j = if j = k then some ((m.find? k).getD a) else m.find? j := by
  rw [insertNew]
  by_cases hc : m.contains k
  · obtain ⟨b, hb⟩ := contains_iff.mp hc
    rw [if_pos hc, hb, Option.getD_some]
    by_cases hj : j = k
    · rw [if_pos hj, hj, hb]
    · rw [if_neg hj]
  · have hnone : m.find? k = none := by
      rw [contains, Option.not_isSome_iff_eq_none] at hc
      exact hc
    rw [if_neg hc, hnone, find?_assign, Option.getD_none]

/-- Where the new key is free, renaming moves one entry and leaves the others. -/
theorem find?_rename {m : OrdMap κ α} {k k' : κ} {a : α} (hk : m.find? k = some a)
    (hfree : k' = k ∨ m.find? k' = none) (j : κ) :
    (m.rename k k').find? j = if j = k' then some a else if j = k then none else m.find? j := by
  have hnone : (m.erase k).find? k' = none := by
    rw [find?_erase]
    rcases hfree with h | h
    · rw [if_pos h]
    · rw [h, ite_self]
  simp only [rename, hk, find?_insertNew, hnone, Option.getD_none, find?_erase]

theorem contains_eq_false {m : OrdMap κ α} {k : κ} : m.contains k = false ↔ m.find? k = none := by
  rw [contains, Option.isSome_eq_false_iff, Option.isNone_iff_eq_none]

theorem keys_assignEntries {k : κ} (a : α) {l : List (κ × α)}
    (hl : l.Pairwise (fun e f => e.1 < f.1)) (h : k ∈ l.map (·.1)) :
    (assignEntries k a l).map (·.1) = l.map (·.1) := by
  induction l with
  | nil => cases h
  | cons e rest ih =>
    obtain ⟨hhead, htail⟩ := List.pairwise_cons.mp hl
    rw [assignEntries]
    rcases List.mem_cons.mp h with rfl | h
    · simp
    · obtain ⟨f, hf, rfl⟩ := List.mem_map.mp h
      have hlt := hhead f hf
      rw [if_neg (lt_asymm hlt), if_neg (ne_of_gt hlt), List.map_cons, List.map_cons, ih htail h]

/-- Assigning to a key that is there keeps the number of entries. -/
theorem length_assign {m : OrdMap κ α} {k : κ} (a : α) (h : k ∈ m.keys) :
    (m.assign k a).entries.length = m.entries.length := by
  simpa [assign] using congrArg List.length (keys_assignEntries a m.sorted h)

theorem length_assign_new {m : OrdMap κ α} {k : κ} (a : α) (h : k ∉ m.keys) :
    (m.assign k a).entries.length = m.entries.length + 1 := by
  have hne : ∀ e ∈ m.entries, k ≠ e.1 := by
    rintro e he rfl
    exact h (List.mem_map_of_mem he)
  change (assignEntries k a m.entries).length = m.entries.length + 1
  generalize m.entries = l at hne
  induction l with
  | nil => rfl
  | cons e rest ih =>
    rw [assignEntries]
    split_ifs with h1 h2
    · rfl
    · exact absurd h2 (hne e List.mem_cons_self)
    · rw [List.length_cons, List.length_cons, ih (fun f hf => hne f (List.mem_cons_of_mem _ hf))]

theorem length_erase {m : OrdMap κ α} {k : κ} (h : k ∈ m.keys) :
    (m.erase k).entries.length < m.entries.length := by
  obtain ⟨e, he, rfl⟩ := List.mem_map.mp h
  exact List.length_filter_lt_length_iff_exists.mpr ⟨e, he, by simp⟩

/-- A map is determined by its lookups. -/
theorem ext_find? {m₁ m₂ : OrdMap κ α} (h : ∀ k, m₁.find? k = m₂.find? k) : m₁ = m₂ := by
  have hmem : ∀ e, e ∈ m₁.entries ↔ e ∈ m₂.entries := by
    rintro ⟨k, a⟩
    rw [← find?_eq_some, ← find?_eq_some, h k]
  obtain ⟨l₁, hl₁⟩ := m₁
  obtain ⟨l₂, hl₂⟩ := m₂
  have hnodup : ∀ {l : List (κ × α)}, l.Pairwise (fun e f => e.1 < f.1) → l.Nodup := fun hl =>
    hl.imp fun hlt heq => absurd (congrArg Prod.fst heq) (ne_of_lt hlt)
  have hperm : l₁.Perm l₂ := (List.perm_ext_iff_of_nodup (hnodup hl₁) (hnodup hl₂)).mpr hmem
  have heq : l₁ = l₂ := List.Perm.eq_of_pairwise
    (fun e f _ _ hef hfe => absurd hef (not_lt.mpr (le_of_lt hfe))) hl₁ hl₂ hperm
  subst heq
  rfl

/-- The later of two assignments to one key stays. -/
theorem assign_assign (m : OrdMap κ α) (k : κ) (a b : α) :
    (m.assign k a).assign k b = m.assign k b := by
  apply ext_find?
  intro j
  simp only [find?_assign]
  split <;> rfl

/-! ## Insertions in a row -/

def insertAll (m : OrdMap κ α) (l : List (κ × α)) : OrdMap κ α :=
  l.foldl (fun m e => m.insertNew e.1 e.2) m

theorem insertAll_cons (m : OrdMap κ α) (e : κ × α) (l : List (κ × α)) :
    m.insertAll (e :: l) = (m.insertNew e.1 e.2).insertAll l := rfl

theorem find?_insertAll_of_not_mem {m : OrdMap κ α} {l : List (κ × α)} {k : κ}
    (h : k ∉ l.map (·.1)) : (m.insertAll l).find? k = m.find? k := by
  induction l generalizing m with
  | nil => rfl
  | cons e rest ih =>
    rw [List.map_cons, List.mem_cons, not_or] at h
    rw [insertAll_cons, ih h.2, find?_insertNew, if_neg h.1]

/-- New keys that are pairwise different all get their values. -/
theorem find?_insertAll_of_mem {m : OrdMap κ α} {l : List (κ × α)} {k : κ} {a : α}
    (hnew : ∀ e ∈ l, m.find? e.1 = none) (hnodup : (l.map (·.1)).Nodup) (h : (k, a) ∈ l) :
    (m.insertAll l).find? k = some a := by
  induction l generalizing m with
  | nil => cases h
  | cons e rest ih =>
    obtain ⟨hhead, hrest⟩ := List.forall_mem_cons.mp hnew
    obtain ⟨hnotin, hnodup⟩ := List.nodup_cons.mp hnodup
    rw [insertAll_cons]
    rcases List.mem_cons.mp h with rfl | h
    · rw [find?_insertAll_of_not_mem hnotin, find?_insertNew, if_pos rfl, hhead, Option.getD_none]
    · refine ih (fun f hf => ?_) hnodup h
      have hne : f.1 ≠ e.1 := fun heq => hnotin (List.mem_map.mpr ⟨f, hf, heq⟩)
      rw [find?_insertNew, if_neg hne]
      exact hrest f hf

/-- The keys that satisfy a predicate, when exactly one does. -/
theorem filter_keys_eq_singleton {m : OrdMap κ α} {p : κ → Bool} {k : κ} (hk : k ∈ m.keys)
    (hp : ∀ j ∈ m.keys, p j = true ↔ j = k) : m.keys.filter p = [k] := by
  have hfilter : m.keys.filter p = m.keys.filter (· = k) :=
    List.filter_congr fun j hj => by
      rw [Bool.eq_iff_iff, hp j hj, decide_eq_true_eq]
  rw [hfilter, List.filter_eq, List.count_eq_one_of_mem m.nodup_keys hk]
  rfl

end OrdMap

end Rankd.Infra

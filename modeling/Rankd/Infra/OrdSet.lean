import Mathlib.Data.List.Basic
import Mathlib.Order.Defs.LinearOrder
import Mathlib.Tactic

/-!
# Ordered sets

A model of `std::set` with a comparison of its own: a list in its order, into which `setInsert` puts
an element unless an equivalent one is there.

A comparison that is used with a set compares keys of a linear order (`ComparesKeys`), at least on
the elements that are inserted. Then a set keeps strictly increasing keys.

* `mem_keys_ofList` — a set has the keys of the elements that were inserted
* `sorted_ofList` — in strictly increasing order
* `eq_of_keys` — where keys determine elements, sets with the same keys are equal
* `key_le_getLast` — the last element has the greatest key
-/

namespace Rankd.Infra

variable {α κ : Type}

/-- `std::set::insert` under the order `lt`: an equivalent element stays. -/
def setInsert (lt : α → α → Bool) (a : α) : List α → List α
  | [] => [a]
  | b :: rest =>
    if lt a b then a :: b :: rest
    else if lt b a then b :: setInsert lt a rest
    else b :: rest

theorem setInsert_ne_nil (lt : α → α → Bool) (a : α) (l : List α) : setInsert lt a l ≠ [] := by
  cases l with
  | nil => simp [setInsert]
  | cons b rest =>
    rw [setInsert]
    split_ifs <;> simp

theorem mem_setInsert {lt : α → α → Bool} {a b : α} {l : List α} (h : b ∈ setInsert lt a l) :
    b = a ∨ b ∈ l := by
  induction l with
  | nil => simpa [setInsert] using h
  | cons c rest ih =>
    rw [setInsert] at h
    split_ifs at h
    · exact List.mem_cons.mp h
    · rcases List.mem_cons.mp h with rfl | h
      · exact Or.inr List.mem_cons_self
      · exact (ih h).imp_right (List.mem_cons_of_mem c)
    · exact Or.inr h

/-- The set into which the elements of a list were inserted. -/
def setOfList (lt : α → α → Bool) (l : List α) : List α :=
  l.foldl (fun set a => setInsert lt a set) []

theorem setOfList_concat (lt : α → α → Bool) (l : List α) (a : α) :
    setOfList lt (l ++ [a]) = setInsert lt a (setOfList lt l) := by
  simp [setOfList]

theorem mem_of_mem_setOfList {lt : α → α → Bool} {b : α} {l : List α} (h : b ∈ setOfList lt l) :
    b ∈ l := by
  induction l using List.reverseRecOn with
  | nil => simp [setOfList] at h
  | append_singleton l a ih =>
    rw [setOfList_concat] at h
    rcases mem_setInsert h with rfl | h
    · simp
    · exact List.mem_append_left [a] (ih h)

/-- On the elements of `D` the comparison compares keys. -/
def ComparesKeys [LinearOrder κ] (D : α → Prop) (lt : α → α → Bool) (key : α → κ) : Prop :=
  ∀ a b, D a → D b → (lt a b = true ↔ key a < key b)

namespace ComparesKeys

variable [LinearOrder κ] {D : α → Prop} {lt : α → α → Bool} {key : α → κ} {a : α} {l : List α}

theorem mem_keys_setInsert (h : ComparesKeys D lt key) (ha : D a) (hl : ∀ b ∈ l, D b) (k : κ) :
    k ∈ (setInsert lt a l).map key ↔ k = key a ∨ k ∈ l.map key := by
  induction l with
  | nil => simp [setInsert]
  | cons b rest ih =>
    have hb : D b := hl b List.mem_cons_self
    have hrest := ih fun c hc => hl c (List.mem_cons_of_mem b hc)
    rw [setInsert]
    split_ifs with hab hba
    · simp
    · rw [List.map_cons, List.mem_cons, hrest, List.map_cons, List.mem_cons]
      exact or_left_comm
    · -- neither is smaller: the keys are equal
      have heq : key a = key b := by
        rw [h a b ha hb] at hab
        rw [h b a hb ha] at hba
        exact le_antisymm (not_lt.mp hba) (not_lt.mp hab)
      simp [heq]

theorem sorted_setInsert (h : ComparesKeys D lt key) (ha : D a) (hl : ∀ b ∈ l, D b)
    (hs : l.Pairwise (key · < key ·)) : (setInsert lt a l).Pairwise (key · < key ·) := by
  induction l with
  | nil => simp [setInsert]
  | cons b rest ih =>
    have hb : D b := hl b List.mem_cons_self
    have hd : ∀ c ∈ rest, D c := fun c hc => hl c (List.mem_cons_of_mem b hc)
    obtain ⟨hhead, htail⟩ := List.pairwise_cons.mp hs
    rw [setInsert]
    split_ifs with hab hba
    · have hlt : key a < key b := (h a b ha hb).mp hab
      refine List.pairwise_cons.mpr ⟨fun c hc => ?_, hs⟩
      rcases List.mem_cons.mp hc with rfl | hc
      · exact hlt
      · exact hlt.trans (hhead c hc)
    · have hlt : key b < key a := (h b a hb ha).mp hba
      refine List.pairwise_cons.mpr ⟨fun c hc => ?_, ih hd htail⟩
      rcases mem_setInsert hc with rfl | hc
      · exact hlt
      · exact hhead c hc
    · exact hs

/-- A set has the keys of the elements that were inserted. -/
theorem mem_keys_ofList (h : ComparesKeys D lt key) (hl : ∀ b ∈ l, D b) (k : κ) :
    k ∈ (setOfList lt l).map key ↔ k ∈ l.map key := by
  induction l using List.reverseRecOn with
  | nil => rfl
  | append_singleton l a ih =>
    have hd : ∀ b ∈ l, D b := fun b hb => hl b (List.mem_append_left [a] hb)
    rw [setOfList_concat, h.mem_keys_setInsert (hl a (by simp))
      (fun b hb => hd b (mem_of_mem_setOfList hb)), ih hd, List.map_append, List.mem_append]
    simp [or_comm]

theorem sorted_ofList (h : ComparesKeys D lt key) (hl : ∀ b ∈ l, D b) :
    (setOfList lt l).Pairwise (key · < key ·) := by
  induction l using List.reverseRecOn with
  | nil => exact List.Pairwise.nil
  | append_singleton l a ih =>
    have hd : ∀ b ∈ l, D b := fun b hb => hl b (List.mem_append_left [a] hb)
    rw [setOfList_concat]
    exact h.sorted_setInsert (hl a (by simp)) (fun b hb => hd b (mem_of_mem_setOfList hb)) (ih hd)

/-- Where keys determine elements, nothing is lost. -/
theorem mem_ofList (h : ComparesKeys D lt key) (hinj : Function.Injective key) (hl : ∀ b ∈ l, D b) :
    a ∈ setOfList lt l ↔ a ∈ l := by
  rw [← List.mem_map_of_injective hinj, h.mem_keys_ofList hl, List.mem_map_of_injective hinj]

end ComparesKeys

/-- Comparing by a first key and, where neither is smaller, by a second is comparing pairs. -/
theorem lex_iff {β : Type} [LinearOrder α] [LinearOrder β] {a b : α} {c d : β} :
    toLex (a, c) < toLex (b, d) ↔ a < b ∨ ¬b < a ∧ c < d := by
  rw [Prod.Lex.toLex_lt_toLex]
  constructor
  · rintro (h | ⟨rfl, h⟩)
    · exact Or.inl h
    · exact Or.inr ⟨lt_irrefl a, h⟩
  · rintro (h | ⟨hle, h⟩)
    · exact Or.inl h
    · rcases lt_or_eq_of_le (not_lt.mp hle) with hab | hab
      · exact Or.inl hab
      · exact Or.inr ⟨hab, h⟩

variable [LinearOrder κ] {key : α → κ}

/-- Strictly increasing lists with the same keys are equal where keys determine elements. -/
theorem eq_of_keys (hinj : Function.Injective key) {l₁ l₂ : List α}
    (h₁ : l₁.Pairwise (key · < key ·)) (h₂ : l₂.Pairwise (key · < key ·))
    (h : ∀ k, k ∈ l₁.map key ↔ k ∈ l₂.map key) : l₁ = l₂ := by
  have hlt₁ : (l₁.map key).Pairwise (· < ·) := List.pairwise_map.mpr h₁
  have hlt₂ : (l₂.map key).Pairwise (· < ·) := List.pairwise_map.mpr h₂
  have hperm : (l₁.map key).Perm (l₂.map key) :=
    (List.perm_ext_iff_of_nodup (hlt₁.imp ne_of_lt) (hlt₂.imp ne_of_lt)).mpr h
  have hsame : l₁.map key = l₂.map key :=
    hperm.eq_of_pairwise (fun a b _ _ hab hba => absurd hab hba.not_gt) hlt₁ hlt₂
  exact List.map_injective_iff.mpr hinj hsame

/-- The last element has the greatest key. -/
theorem key_le_getLast {l : List α} {last : α} (h : l.Pairwise (key · < key ·))
    (hlast : l.getLast? = some last) {a : α} (ha : a ∈ l) : key a ≤ key last := by
  obtain ⟨init, rfl⟩ := List.getLast?_eq_some_iff.mp hlast
  rcases List.mem_append.mp ha with ha | ha
  · exact ((List.pairwise_append.mp h).2.2 a ha last (by simp)).le
  · rw [List.mem_singleton.mp ha]

end Rankd.Infra

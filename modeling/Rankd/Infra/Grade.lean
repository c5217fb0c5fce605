import Mathlib.Algebra.Order.Field.Basic
import Mathlib.Order.Monotone.Basic
import Mathlib.Order.Interval.Set.Basic

/-!
# Grades of a cost

A grade maps a cost to a number between 0 and 1, and does not grow with the cost. It may be given in
pieces, of which the later ones are never above the earlier ones (`IsGradeOn.ite`).
-/

namespace Rankd.Infra

variable {K L : Type} [LinearOrder K] [Field L] [LinearOrder L] {s : Set K} {f g : K → L}

/-- `f` grades the costs in `s`. -/
structure IsGradeOn (s : Set K) (f : K → L) : Prop where
  mem_Icc : ∀ x ∈ s, f x ∈ Set.Icc 0 1
  antitone : AntitoneOn f s

namespace IsGradeOn

theorem const {c : L} (h : c ∈ Set.Icc (0 : L) 1) : IsGradeOn s fun _ => c where
  mem_Icc := fun _ _ => h
  antitone := fun _ _ _ _ _ => le_rfl

theorem congr (h : IsGradeOn s f) (hfg : ∀ x ∈ s, f x = g x) : IsGradeOn s g where
  mem_Icc := fun x hx => hfg x hx ▸ h.mem_Icc x hx
  antitone := by
    intro x hx y hy hxy
    rw [← hfg x hx, ← hfg y hy]
    exact h.antitone hx hy hxy

/-- Two pieces, the second of which is never above the first. -/
theorem ite {threshold : K} (hf : IsGradeOn {x ∈ s | x ≤ threshold} f)
    (hg : IsGradeOn {x ∈ s | threshold < x} g)
    (hfg : ∀ x ∈ s, x ≤ threshold → ∀ y ∈ s, threshold < y → g y ≤ f x) :
    IsGradeOn s fun x => if x ≤ threshold then f x else g x := by
  constructor
  · intro x hx
    split_ifs with h
    · exact hf.mem_Icc x ⟨hx, h⟩
    · exact hg.mem_Icc x ⟨hx, not_le.mp h⟩
  · intro x hx y hy hxy
    dsimp only
    by_cases hyt : y ≤ threshold
    · have hxt : x ≤ threshold := hxy.trans hyt
      rw [if_pos hyt, if_pos hxt]
      exact hf.antitone ⟨hx, hxt⟩ ⟨hy, hyt⟩ hxy
    · rw [if_neg hyt]
      by_cases hxt : x ≤ threshold
      · rw [if_pos hxt]
        exact hfg x hx hxt y hy (not_le.mp hyt)
      · rw [if_neg hxt]
        exact hg.antitone ⟨hx, not_le.mp hxt⟩ ⟨hy, not_le.mp hyt⟩ hxy

variable [IsStrictOrderedRing L]

theorem one : IsGradeOn s fun _ => (1 : L) := const ⟨zero_le_one, le_rfl⟩

theorem zero : IsGradeOn s fun _ => (0 : L) := const ⟨le_rfl, zero_le_one⟩

/-- A piece that is followed by 0. -/
theorem ite_zero (threshold : K) (hf : IsGradeOn {x ∈ s | x ≤ threshold} f) :
    IsGradeOn s fun x => if x ≤ threshold then f x else 0 :=
  ite hf zero fun x hx hxt _ _ _ => (hf.mem_Icc x ⟨hx, hxt⟩).1

/-- A piece that is preceded by 1. -/
theorem ite_one {threshold : K} (hg : IsGradeOn {x ∈ s | threshold < x} g) :
    IsGradeOn s fun x => if x ≤ threshold then 1 else g x :=
  ite one hg fun _ _ _ y hy hyt => (hg.mem_Icc y ⟨hy, hyt⟩).2

end IsGradeOn

end Rankd.Infra

import Mathlib.Algebra.Order.Field.Basic
import Mathlib.Tactic.Ring

/-!
# Blended grades

A list of grades is blended into one, each with the same weight against all that come after it:
`blend w [r, s, t] = w r + (1 - w) (w s + (1 - w) t)`.

* the weight 0 leaves the last grade (`blend_zero`)
* a blend of grades between 0 and 1 is between 0 and 1 (`blend_mem_Icc`)
* a blend of positive grades is positive (`blend_pos`)
-/

namespace Rankd.Infra

variable {K : Type} [Field K]

/-- The blend of no grades is 0. -/
def blend (w : K) : List K → K
  | [] => 0
  | [r] => r
  | r :: s :: rs => w * r + (1 - w) * blend w (s :: rs)

@[simp] theorem blend_singleton (w r : K) : blend w [r] = r := rfl

theorem blend_cons (w r : K) {rs : List K} (h : rs ≠ []) :
    blend w (r :: rs) = w * r + (1 - w) * blend w rs := by
  cases rs with
  | nil => exact absurd rfl h
  | cons s rs => rfl

theorem blend_zero {rs : List K} (h : rs ≠ []) : blend 0 rs = rs.getLast h := by
  induction rs with
  | nil => exact absurd rfl h
  | cons r rs ih =>
    by_cases hrs : rs = []
    · subst hrs
      rfl
    · rw [blend_cons 0 r hrs, ih hrs, List.getLast_cons hrs]
      ring

theorem blend_eq_of_forall {w c : K} {rs : List K} (h : rs ≠ []) (hrs : ∀ r ∈ rs, r = c) :
    blend w rs = c := by
  induction rs with
  | nil => exact absurd rfl h
  | cons r rs ih =>
    have hr := hrs r List.mem_cons_self
    by_cases hempty : rs = []
    · subst hempty
      exact hr
    · rw [blend_cons w r hempty, hr, ih hempty fun s hs => hrs s (List.mem_cons_of_mem r hs)]
      ring

section Order

variable [LinearOrder K] [IsStrictOrderedRing K] {w : K} {rs : List K}

theorem blend_mem_Icc (h0 : 0 ≤ w) (h1 : w ≤ 1) (hrs : ∀ r ∈ rs, r ∈ Set.Icc 0 1) :
    blend w rs ∈ Set.Icc 0 1 := by
  induction rs with
  | nil => exact ⟨le_rfl, zero_le_one⟩
  | cons r rs ih =>
    obtain ⟨hr0, hr1⟩ := hrs r List.mem_cons_self
    obtain ⟨hb0, hb1⟩ := ih fun s hs => hrs s (List.mem_cons_of_mem r hs)
    by_cases hempty : rs = []
    · subst hempty
      exact ⟨hr0, hr1⟩
    · rw [blend_cons w r hempty]
      have hw : 0 ≤ 1 - w := sub_nonneg.mpr h1
      constructor
      · exact add_nonneg (mul_nonneg h0 hr0) (mul_nonneg hw hb0)
      · calc w * r + (1 - w) * blend w rs ≤ w * 1 + (1 - w) * 1 :=
              add_le_add (mul_le_mul_of_nonneg_left hr1 h0) (mul_le_mul_of_nonneg_left hb1 hw)
          _ = 1 := by ring

theorem blend_pos (h0 : 0 < w) (h1 : w ≤ 1) (h : rs ≠ []) (hrs : ∀ r ∈ rs, 0 < r) :
    0 < blend w rs := by
  induction rs with
  | nil => exact absurd rfl h
  | cons r rs ih =>
    have hr := hrs r List.mem_cons_self
    by_cases hempty : rs = []
    · subst hempty
      exact hr
    · have hb := ih hempty fun s hs => hrs s (List.mem_cons_of_mem r hs)
      rw [blend_cons w r hempty]
      exact add_pos_of_pos_of_nonneg (mul_pos h0 hr) (mul_nonneg (sub_nonneg.mpr h1) hb.le)

end Order

end Rankd.Infra

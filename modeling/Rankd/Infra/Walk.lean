import Mathlib.Algebra.BigOperators.Group.Finset.Basic
import Mathlib.Tactic

/-!
# Walks of a counter

A counter of `w` bits that is moved by integers, and the integer walk with the same moves.

* `toNat_eq_emod`: the counter is the walk modulo `2 ^ w`
* `toNat_eq_max_iff`: one move is the clamped one if and only if the sum fits the word
* `clamped_iff_fits`: all moves are clamped ones if and only if the walk stays within the word
-/

namespace Rankd.Infra

/-- The integer after `n` moves. -/
def walk (start : Int) (move : Nat → Int) (n : Nat) : Int :=
  start + ∑ i ∈ Finset.range n, move i

@[simp] theorem walk_zero (start : Int) (move : Nat → Int) : walk start move 0 = start := by
  simp [walk]

theorem walk_succ (start : Int) (move : Nat → Int) (n : Nat) :
    walk start move (n + 1) = walk start move n + move n := by
  rw [walk, walk, Finset.sum_range_succ, add_assoc]

/-- What a word of `w` bits can hold. -/
def FitsWord (w : Nat) (z : Int) : Prop := 0 ≤ z ∧ z < 2 ^ w

instance (w : Nat) (z : Int) : Decidable (FitsWord w z) := inferInstanceAs (Decidable (_ ∧ _))

section Move

variable {w : Nat}

theorem fitsWord_toNat (x : BitVec w) : FitsWord w x.toNat := by
  refine ⟨Int.natCast_nonneg _, ?_⟩
  exact_mod_cast x.isLt

theorem FitsWord.emod_eq {z : Int} (h : FitsWord w z) : z % 2 ^ w = z := Int.emod_eq_of_lt h.1 h.2

theorem toNat_ofInt_eq_emod (z : Int) : ((BitVec.ofInt w z).toNat : Int) = z % 2 ^ w := by
  rw [BitVec.toNat_ofInt, Int.toNat_of_nonneg (Int.emod_nonneg _ (by positivity))]
  norm_cast

theorem ofInt_eq_zero_iff {z : Int} : BitVec.ofInt w z = 0 ↔ z % 2 ^ w = 0 := by
  rw [← toNat_ofInt_eq_emod, ← BitVec.toNat_inj]
  norm_cast

theorem toNat_move (x : BitVec w) (d : Int) :
    ((x + BitVec.ofInt w d).toNat : Int) = (x.toNat + d) % 2 ^ w := by
  rw [BitVec.toNat_add, BitVec.toNat_ofInt]
  push_cast
  rw [Int.toNat_of_nonneg (Int.emod_nonneg _ (by positivity)), Int.add_emod_emod]

/-- A move of less than the whole word is clamped at zero exactly if nothing is to be clamped. -/
theorem toNat_eq_max_iff {x : BitVec w} {d : Int} (hd : -2 ^ w < d) :
    ((x + BitVec.ofInt w d).toNat : Int) = max 0 (x.toNat + d) ↔ FitsWord w (x.toNat + d) := by
  have hx := fitsWord_toNat x
  have hlt := (fitsWord_toNat (x + BitVec.ofInt w d)).2
  constructor
  · intro hmax
    rw [hmax] at hlt
    refine ⟨?_, (le_max_right _ _).trans_lt hlt⟩
    by_contra hneg
    -- the remainder of a sum between `-2 ^ w` and `0` is not `0`
    have hshift : ((x.toNat : Int) + d) % 2 ^ w = x.toNat + d + 2 ^ w := by
      rw [← Int.add_emod_right]
      exact Int.emod_eq_of_lt (by linarith [hx.1]) (by linarith)
    rw [toNat_move, hshift, max_eq_left (by linarith)] at hmax
    linarith [hx.1]
  · intro hfits
    rw [toNat_move, hfits.emod_eq, max_eq_right hfits.1]

end Move

section Run

variable {w : Nat} {x : Nat → BitVec w} {move : Nat → Int}

theorem eq_ofInt_walk (hstep : ∀ i, x (i + 1) = x i + BitVec.ofInt w (move i)) (n : Nat) :
    x n = BitVec.ofInt w (walk (x 0).toNat move n) := by
  induction n with
  | zero => rw [walk_zero, BitVec.ofInt_natCast, BitVec.ofNat_toNat, BitVec.setWidth_eq]
  | succ n ih => rw [hstep, ih, walk_succ, BitVec.ofInt_add]

theorem toNat_eq_emod (hstep : ∀ i, x (i + 1) = x i + BitVec.ofInt w (move i)) (n : Nat) :
    ((x n).toNat : Int) = walk (x 0).toNat move n % 2 ^ w := by
  rw [eq_ofInt_walk hstep n, toNat_ofInt_eq_emod]

theorem toNat_eq_walk (hstep : ∀ i, x (i + 1) = x i + BitVec.ofInt w (move i)) {n : Nat}
    (hfits : FitsWord w (walk (x 0).toNat move n)) :
    ((x n).toNat : Int) = walk (x 0).toNat move n := by
  rw [toNat_eq_emod hstep, hfits.emod_eq]

/-- The moves before the first one that is not clamped keep the counter on the walk. -/
theorem clamped_iff_fits (hstep : ∀ i, x (i + 1) = x i + BitVec.ofInt w (move i))
    (hmove : ∀ i, -2 ^ w < move i) (n : Nat) :
    (∀ i < n, ((x (i + 1)).toNat : Int) = max 0 ((x i).toNat + move i)) ↔
      ∀ i < n, FitsWord w (walk (x 0).toNat move (i + 1)) := by
  induction n with
  | zero => simp
  | succ n ih =>
    rw [Nat.forall_lt_succ_right, Nat.forall_lt_succ_right, ih]
    refine and_congr_right fun hbefore => ?_
    have hfits : FitsWord w (walk (x 0).toNat move n) := by
      cases n with
      | zero => simpa using fitsWord_toNat (x 0)
      | succ n => exact hbefore n (Nat.lt_succ_self n)
    rw [hstep, toNat_eq_max_iff (hmove n), toNat_eq_walk hstep hfits, walk_succ]

end Run

end Rankd.Infra

import Mathlib.Data.List.Basic
import Mathlib.Tactic

/-!
# Loops

`while` over a state. A round leaves the loop with a result, or continues from a state.

* `Round.iterate` makes the rounds that its fuel allows
* `Ends` and `Diverges`: some fuel gives a result, no fuel does
* a loop ends with one result at most (`ends_unique`)
* a loop that continues within an invariant diverges (`diverges_of_invariant`)
-/

namespace Rankd.Infra

/-- What one round does. -/
inductive Round (σ ρ : Type)
  | leaves (result : ρ)
  | continues (s : σ)

namespace Round

variable {σ ρ : Type}

def iterate (round : σ → Round σ ρ) : Nat → σ → Option ρ
  | 0, _ => none
  | fuel + 1, s =>
    match round s with
    | .leaves result => some result
    | .continues s' => iterate round fuel s'

/-- The loop gets to its end, with this result. -/
def Ends (round : σ → Round σ ρ) (s : σ) (result : ρ) : Prop :=
  ∃ fuel, iterate round fuel s = some result

def Diverges (round : σ → Round σ ρ) (s : σ) : Prop := ∀ fuel, iterate round fuel s = none

variable {round : σ → Round σ ρ} {s s' : σ} {result : ρ}

theorem iterate_leaves (h : round s = .leaves result) (fuel : Nat) :
    iterate round (fuel + 1) s = some result := by
  rw [iterate, h]

theorem iterate_continues (h : round s = .continues s') (fuel : Nat) :
    iterate round (fuel + 1) s = iterate round fuel s' := by
  rw [iterate, h]

theorem ends_of_leaves (h : round s = .leaves result) : Ends round s result :=
  ⟨1, iterate_leaves h 0⟩

/-- Two fuels that are both enough give one result. -/
theorem iterate_unique {fuel fuel' : Nat} {result' : ρ} (h : iterate round fuel s = some result)
    (h' : iterate round fuel' s = some result') : result = result' := by
  induction fuel generalizing s fuel' with
  | zero => cases h
  | succ fuel ih =>
    cases fuel' with
    | zero => cases h'
    | succ fuel' =>
      cases hround : round s with
      | leaves r =>
        rw [iterate_leaves hround] at h h'
        exact Option.some.inj (h.symm.trans h')
      | continues s' =>
        rw [iterate_continues hround] at h h'
        exact ih h h'

theorem ends_unique {result' : ρ} (h : Ends round s result) (h' : Ends round s result') :
    result = result' := by
  obtain ⟨fuel, hfuel⟩ := h
  obtain ⟨fuel', hfuel'⟩ := h'
  exact iterate_unique hfuel hfuel'

theorem Diverges.not_ends (h : Diverges round s) : ¬ Ends round s result := by
  rintro ⟨fuel, hfuel⟩
  rw [h fuel] at hfuel
  cases hfuel

theorem diverges_of_invariant {I : σ → Prop}
    (hround : ∀ s, I s → ∃ s', round s = .continues s' ∧ I s') (hs : I s) : Diverges round s := by
  intro fuel
  induction fuel generalizing s with
  | zero => rfl
  | succ fuel ih =>
    obtain ⟨s', hcontinues, hs'⟩ := hround s hs
    rw [iterate_continues hcontinues]
    exact ih hs'

/-- A round that leaves its state as it is goes on forever. -/
theorem diverges_of_fixed (h : round s = .continues s) : Diverges round s := by
  refine diverges_of_invariant (I := fun t => t = s) ?_ rfl
  rintro t rfl
  exact ⟨t, h, rfl⟩

end Round

end Rankd.Infra

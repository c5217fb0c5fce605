import Rankd.Infra.Prog
import Rankd.Infra.Walk

/-!
# Random numbers

What the two data sources of `dry-rankd-comp` share: the numbers that `full_randomizer` draws, and
the integer operations on them. The state of a program is the number of draws it has made.

`size_t`, `unsigned long long` and the result type of the engine have 64 bits.

* `bind_drawModulo`, `bind_drawModulo_zero`: a draw and a remainder
* `ofInt_drift`: a draw of which half of its range is taken off is a move by an integer
-/

namespace Rankd.Dry

open Infra

abbrev Count := BitVec 64

def randMax : Nat := 2147483647

/-- What `uniform_int_distribution(0, RAND_MAX)` gives. -/
abbrev Draw := Fin (randMax + 1)

/-- The draws of a generator. -/
abbrev Randomizer := Nat → Draw

inductive Fault
  | divisionByZero
  deriving DecidableEq

abbrev Simulated := Prog Nat Fault

/-- `full_randomizer(range)`. -/
def fullRandomizer (random : Randomizer) : Simulated Count := do
  let drawn ← Prog.get
  Prog.modify (· + 1)
  return BitVec.ofNat 64 (random drawn)

/-- `%`. -/
def modulo (a b : Count) : Simulated Count := do
  Prog.ensure (b != 0) .divisionByZero
  return a % b

/-- `full_randomizer(range) % bound`, with a value for the bound. -/
def drawModulo (random : Randomizer) (bound : Count) : Simulated Count := do
  let number ← fullRandomizer random
  modulo number bound

/-- `full_randomizer(range) % bound`, with a literal for the bound. -/
def drawBelow (random : Randomizer) (bound : Nat) : Simulated Count :=
  drawModulo random (BitVec.ofNat 64 bound)

/-! ## Words -/

theorem ofNat_ne_zero {n : Nat} (hpos : 0 < n) (h : n < 2 ^ 64) : BitVec.ofNat 64 n ≠ 0 := by
  intro heq
  have hzero := congrArg BitVec.toNat heq
  rw [BitVec.toNat_ofNat, Nat.mod_eq_of_lt h] at hzero
  exact hpos.ne' hzero

theorem ofNat_umod {a b : Nat} (ha : a < 2 ^ 64) (hb : b < 2 ^ 64) :
    BitVec.ofNat 64 a % BitVec.ofNat 64 b = BitVec.ofNat 64 (a % b) := by
  have hle := Nat.mod_le a b
  apply BitVec.eq_of_toNat_eq
  rw [BitVec.toNat_umod, BitVec.toNat_ofNat, BitVec.toNat_ofNat, BitVec.toNat_ofNat,
    Nat.mod_eq_of_lt ha, Nat.mod_eq_of_lt hb, Nat.mod_eq_of_lt (hle.trans_lt ha)]

theorem ofNat_udiv {a b : Nat} (ha : a < 2 ^ 64) (hb : b < 2 ^ 64) :
    BitVec.ofNat 64 a / BitVec.ofNat 64 b = BitVec.ofNat 64 (a / b) := by
  have hle := Nat.div_le_self a b
  apply BitVec.eq_of_toNat_eq
  rw [BitVec.toNat_udiv, BitVec.toNat_ofNat, BitVec.toNat_ofNat, BitVec.toNat_ofNat,
    Nat.mod_eq_of_lt ha, Nat.mod_eq_of_lt hb, Nat.mod_eq_of_lt (hle.trans_lt ha)]

/-! ## Draws -/

section Draws

variable (random : Randomizer)

theorem draw_lt (p : Nat) : (random p : Nat) < 2 ^ 31 := by
  have hlt := (random p).isLt
  unfold randMax at hlt
  omega

theorem run_fullRandomizer (p : Nat) :
    (fullRandomizer random).run p = (.ok (BitVec.ofNat 64 (random p)), p + 1) := rfl

theorem run_modulo {b : Count} (h : b ≠ 0) (a : Count) (p : Nat) :
    (modulo a b).run p = (.ok (a % b), p) := by
  have hensure : (b != 0) = true := by simpa using h
  rw [modulo, hensure, Prog.ensure_true]
  rfl

theorem run_drawModulo {bound : Nat} (hpos : 0 < bound) (h : bound < 2 ^ 64) (p : Nat) :
    (drawModulo random (BitVec.ofNat 64 bound)).run p =
      (.ok (BitVec.ofNat 64 (random p % bound)), p + 1) := by
  have hlt := draw_lt random p
  rw [drawModulo, Prog.bind_ok (run_fullRandomizer random p), run_modulo (ofNat_ne_zero hpos h),
    ofNat_umod (by omega) h]

theorem run_drawModulo_zero (p : Nat) :
    (drawModulo random (BitVec.ofNat 64 0)).run p = (.error .divisionByZero, p + 1) := rfl

variable {α : Type} {f : Count → Simulated α}

theorem bind_drawModulo {bound : Nat} (hpos : 0 < bound) (h : bound < 2 ^ 64) (p : Nat) :
    (drawModulo random (BitVec.ofNat 64 bound) >>= f).run p =
      (f (BitVec.ofNat 64 (random p % bound))).run (p + 1) :=
  Prog.bind_ok (run_drawModulo random hpos h p)

theorem bind_drawModulo_zero (p : Nat) :
    (drawModulo random (BitVec.ofNat 64 0) >>= f).run p = (.error .divisionByZero, p + 1) :=
  Prog.bind_error (run_drawModulo_zero random p)

theorem bind_drawBelow {bound : Nat} (hpos : 0 < bound) (h : bound < 2 ^ 64) (p : Nat) :
    (drawBelow random bound >>= f).run p =
      (f (BitVec.ofNat 64 (random p % bound))).run (p + 1) :=
  bind_drawModulo random hpos h p

end Draws

/-! ## Moves -/

/-- The integer that a draw and half of its range make. -/
def drift (bound half : Nat) (draw : Draw) : Int := (draw % bound : Nat) - half

theorem neg_lt_drift {bound half : Nat} (h : half < 2 ^ 64) (draw : Draw) :
    -2 ^ 64 < drift bound half draw := by
  unfold drift
  push_cast
  omega

theorem ofInt_drift (bound half : Nat) (draw : Draw) : BitVec.ofInt 64 (drift bound half draw) =
    BitVec.ofNat 64 (draw % bound) - BitVec.ofNat 64 half := by
  rw [drift, Int.sub_eq_add_neg, BitVec.ofInt_add, BitVec.ofInt_neg, BitVec.ofInt_natCast,
    BitVec.ofInt_natCast, BitVec.sub_eq_add_neg]

theorem add_ofInt_drift (x : Count) (bound half : Nat) (draw : Draw) :
    x + BitVec.ofInt 64 (drift bound half draw) =
      x + BitVec.ofNat 64 (draw % bound) - BitVec.ofNat 64 half := by
  rw [ofInt_drift, BitVec.sub_eq_add_neg, BitVec.sub_eq_add_neg, BitVec.add_assoc]

/-- What a move should do: the integer sum, and zero instead of a negative one. -/
def Clamps (before after : Count) (move : Int) : Prop :=
  (after.toNat : Int) = max 0 (before.toNat + move)

end Rankd.Dry

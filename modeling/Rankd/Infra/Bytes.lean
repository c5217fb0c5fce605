import Mathlib.Data.List.Basic
import Mathlib.Tactic

/-!
# Fixed-width byte strings

Big-endian and little-endian codecs between natural numbers and byte strings of a fixed width,
and checked indexing in the manner of `std::vector::at`.
Nothing here knows about a particular message format.

* `toBytesBE` / `ofBytesBE` are mutually inverse on numbers below `256 ^ w` and
  strings of length `w`
* a prefix of a big-endian string is the big-endian string of the high part
* `readAt` / `readRun` fail exactly when an index is out of range
-/

namespace Rankd.Infra

/-- A byte string. -/
abbrev Bytes := List UInt8

/-- Bytes in the order of their values, and byte strings lexicographically. -/
instance linearOrderUInt8 : LinearOrder UInt8 where
  le_refl := UInt8.le_refl
  le_trans _ _ _ := UInt8.le_trans
  lt_iff_le_not_ge a b := by
    rw [UInt8.lt_iff_toNat_lt, UInt8.le_iff_toNat_le, UInt8.le_iff_toNat_le]
    omega
  le_antisymm _ _ := UInt8.le_antisymm
  le_total := UInt8.le_total
  toDecidableLE _ _ := inferInstance
  toDecidableEq _ _ := inferInstance
  toDecidableLT _ _ := inferInstance

/-! ## Big endian -/

/-- The `w` low-order bytes of `n`, most significant first. -/
def toBytesBE : Nat → Nat → Bytes
  | 0, _ => []
  | w + 1, n => UInt8.ofNat (n / 256 ^ w) :: toBytesBE w n

/-- The number a big-endian byte string spells. -/
def ofBytesBE : Bytes → Nat
  | [] => 0
  | b :: rest => b.toNat * 256 ^ rest.length + ofBytesBE rest

@[simp] theorem length_toBytesBE : ∀ (w n : Nat), (toBytesBE w n).length = w
  | 0, _ => rfl
  | w + 1, n => by simp [toBytesBE, length_toBytesBE w n]

theorem ofBytesBE_lt : ∀ bs : Bytes, ofBytesBE bs < 256 ^ bs.length
  | [] => by simp [ofBytesBE]
  | b :: rest => by
    have hb : b.toNat < 256 := UInt8.toNat_lt_size b
    have ih := ofBytesBE_lt rest
    calc b.toNat * 256 ^ rest.length + ofBytesBE rest
        < b.toNat * 256 ^ rest.length + 256 ^ rest.length := by omega
      _ = (b.toNat + 1) * 256 ^ rest.length := by ring
      _ ≤ 256 * 256 ^ rest.length := Nat.mul_le_mul_right _ (by omega)
      _ = 256 ^ (rest.length + 1) := by ring

/-- Only the low `w` bytes of the number are written. -/
theorem ofBytesBE_toBytesBE_mod : ∀ (w n : Nat), ofBytesBE (toBytesBE w n) = n % 256 ^ w
  | 0, n => by simp [toBytesBE, ofBytesBE, Nat.mod_one]
  | w + 1, n => by
    have hsplit : n % 256 ^ (w + 1) = n % 256 ^ w + 256 ^ w * (n / 256 ^ w % 256) := by
      rw [pow_succ]
      exact Nat.mod_mul
    simp only [toBytesBE, ofBytesBE, length_toBytesBE, UInt8.toNat_ofNat']
    rw [ofBytesBE_toBytesBE_mod w n, hsplit, Nat.mul_comm, Nat.add_comm]

theorem ofBytesBE_toBytesBE {w n : Nat} (h : n < 256 ^ w) : ofBytesBE (toBytesBE w n) = n := by
  rw [ofBytesBE_toBytesBE_mod, Nat.mod_eq_of_lt h]

/-- Adding a multiple of `256 ^ w` does not change the low `w` bytes. -/
theorem toBytesBE_add_mul : ∀ (w k n : Nat), toBytesBE w (k * 256 ^ w + n) = toBytesBE w n
  | 0, _, _ => rfl
  | w + 1, k, n => by
    have hpos : 0 < 256 ^ w := Nat.pow_pos (by omega)
    have hsplit : k * 256 ^ (w + 1) + n = k * 256 * 256 ^ w + n := by ring
    have hdiv : (k * 256 * 256 ^ w + n) / 256 ^ w = k * 256 + n / 256 ^ w := by
      rw [Nat.add_comm, Nat.add_mul_div_right _ _ hpos, Nat.add_comm]
    simp only [toBytesBE]
    rw [hsplit, toBytesBE_add_mul w (k * 256) n, hdiv]
    congr 1
    apply UInt8.toNat.inj
    simp [UInt8.toNat_ofNat']

theorem toBytesBE_ofBytesBE : ∀ bs : Bytes, toBytesBE bs.length (ofBytesBE bs) = bs
  | [] => rfl
  | b :: rest => by
    have hlt := ofBytesBE_lt rest
    have hpos : 0 < 256 ^ rest.length := Nat.pow_pos (by omega)
    have hdiv : (b.toNat * 256 ^ rest.length + ofBytesBE rest) / 256 ^ rest.length = b.toNat := by
      rw [Nat.add_comm, Nat.add_mul_div_right _ _ hpos, Nat.div_eq_of_lt hlt, Nat.zero_add]
    simp only [List.length_cons, toBytesBE, ofBytesBE]
    rw [hdiv, toBytesBE_add_mul, toBytesBE_ofBytesBE rest]
    simp

/-- The first `a` of `a + b` bytes spell the high part of the number. -/
theorem take_toBytesBE (b n : Nat) :
    ∀ a : Nat, (toBytesBE (a + b) n).take a = toBytesBE a (n / 256 ^ b)
  | 0 => rfl
  | a + 1 => by
    rw [show a + 1 + b = (a + b) + 1 by omega]
    simp only [toBytesBE, List.take_succ_cons]
    rw [take_toBytesBE b n a, Nat.div_div_eq_div_mul, ← pow_add, Nat.add_comm b a]

/-- Big-endian strings of one width are equal exactly when the written numbers are. -/
theorem toBytesBE_inj {w m n : Nat} (hm : m < 256 ^ w) (hn : n < 256 ^ w) :
    toBytesBE w m = toBytesBE w n ↔ m = n := by
  constructor
  · intro h
    rw [← ofBytesBE_toBytesBE hm, h, ofBytesBE_toBytesBE hn]
  · intro h
    rw [h]

theorem toNat_shiftIn (acc : BitVec 64) (b : UInt8) :
    ((acc <<< 8) ||| b.toBitVec.setWidth 64).toNat = (acc.toNat * 256 + b.toNat) % 2 ^ 64 := by
  have hb : b.toNat < 2 ^ 8 := UInt8.toNat_lt_size b
  have hacc := acc.isLt
  have hor : (acc.toNat <<< 8 % 2 ^ 64) ||| b.toNat = (acc.toNat % 2 ^ 56 * 2 ^ 8) + b.toNat := by
    rw [Nat.shiftLeft_eq, show (2 : Nat) ^ 64 = 2 ^ 56 * 2 ^ 8 by norm_num, Nat.mul_mod_mul_right,
      Nat.mul_comm, Nat.two_pow_add_eq_or_of_lt hb]
  rw [BitVec.toNat_or, BitVec.toNat_shiftLeft, BitVec.toNat_setWidth, UInt8.toNat_toBitVec,
    Nat.mod_eq_of_lt (a := b.toNat) (by omega), hor]
  omega

/-- Shifting bytes into a 64-bit accumulator spells them in big endian, above what was there. -/
theorem toNat_foldl_shift (bs : Bytes) (acc : BitVec 64) :
    (bs.foldl (fun (acc : BitVec 64) b => (acc <<< 8) ||| (b.toBitVec.setWidth 64)) acc).toNat =
      (acc.toNat * 256 ^ bs.length + ofBytesBE bs) % 2 ^ 64 := by
  induction bs generalizing acc with
  | nil =>
    have hacc := acc.isLt
    simp only [List.foldl_nil, List.length_nil, ofBytesBE]
    omega
  | cons b rest ih =>
    rw [List.foldl_cons, ih, toNat_shiftIn, Nat.add_mod, Nat.mod_mul_mod, ← Nat.add_mod]
    congr 1
    simp only [List.length_cons, ofBytesBE]
    ring

/-! ## Little endian -/

/-- The `w` low-order bytes of `n`, least significant first: the memory of a little-endian host. -/
def toBytesLE (w n : Nat) : Bytes := (toBytesBE w n).reverse

/-- The number a little-endian byte string spells. -/
def ofBytesLE (bs : Bytes) : Nat := ofBytesBE bs.reverse

@[simp] theorem length_toBytesLE (w n : Nat) : (toBytesLE w n).length = w := by
  simp [toBytesLE]

theorem ofBytesLE_toBytesLE {w n : Nat} (h : n < 256 ^ w) : ofBytesLE (toBytesLE w n) = n := by
  rw [ofBytesLE, toBytesLE, List.reverse_reverse, ofBytesBE_toBytesBE h]

theorem toBytesLE_ofBytesLE (bs : Bytes) : toBytesLE bs.length (ofBytesLE bs) = bs := by
  rw [toBytesLE, ofBytesLE, ← List.length_reverse, toBytesBE_ofBytesBE, List.reverse_reverse]

theorem ofBytesLE_lt (bs : Bytes) : ofBytesLE bs < 256 ^ bs.length := by
  rw [ofBytesLE, ← List.length_reverse]
  exact ofBytesBE_lt bs.reverse

/-! ## Checked reads -/

/-- `std::vector::at`: the byte at an index, or the given error. -/
def readAt {ε : Type} (e : ε) (bs : Bytes) (i : Nat) : Except ε UInt8 :=
  match bs[i]? with
  | some b => .ok b
  | none => .error e

/-- Append `n` bytes, read one by one from offset `i` on, to `acc`. -/
def readRun {ε : Type} (e : ε) (bs : Bytes) : Nat → Nat → Bytes → Except ε Bytes
  | 0, _, acc => .ok acc
  | n + 1, i, acc => do
    let b ← readAt e bs i
    readRun e bs n (i + 1) (acc ++ [b])

section Reads

variable {ε : Type} {e : ε} {bs : Bytes}

@[simp] theorem ok_bind {α β : Type} (a : α) (f : α → Except ε β) : (Except.ok a >>= f) = f a := rfl

@[simp] theorem error_bind {α β : Type} (f : α → Except ε β) :
    (Except.error e >>= f) = Except.error e := rfl

@[simp] theorem readAt_cons_zero (b : UInt8) (rest : Bytes) : readAt e (b :: rest) 0 = .ok b := rfl

theorem readAt_of_lt {i : Nat} (h : i < bs.length) : readAt e bs i = .ok bs[i] := by
  simp [readAt, List.getElem?_eq_getElem h]

theorem readAt_of_le {i : Nat} (h : bs.length ≤ i) : readAt e bs i = .error e := by
  simp [readAt, List.getElem?_eq_none h]

/-- A run that fits is a slice of the string. -/
theorem readRun_of_le : ∀ {n i : Nat} {acc : Bytes}, i + n ≤ bs.length →
    readRun e bs n i acc = .ok (acc ++ (bs.drop i).take n)
  | 0, i, acc, _ => by simp [readRun]
  | n + 1, i, acc, h => by
    have hi : i < bs.length := by omega
    have hdrop : bs.drop i = bs[i] :: bs.drop (i + 1) := List.drop_eq_getElem_cons hi
    simp only [readRun, readAt_of_lt hi]
    show readRun e bs n (i + 1) (acc ++ [bs[i]]) = _
    rw [readRun_of_le (by omega), hdrop, List.take_succ_cons, List.append_assoc,
      List.singleton_append]

/-- A run that does not fit fails. -/
theorem readRun_of_lt : ∀ {n i : Nat} {acc : Bytes}, bs.length < i + n → i ≤ bs.length →
    readRun e bs n i acc = .error e
  | 0, i, acc, h, hi => absurd h (by omega)
  | n + 1, i, acc, h, hi => by
    by_cases hlt : i < bs.length
    · simp only [readRun, readAt_of_lt hlt]
      show readRun e bs n (i + 1) (acc ++ [bs[i]]) = _
      exact readRun_of_lt (by omega) (by omega)
    · simp only [readRun, readAt_of_le (Nat.le_of_not_lt hlt)]
      rfl

end Reads

end Rankd.Infra

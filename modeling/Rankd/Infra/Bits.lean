import Mathlib.Data.List.GetD
import Rankd.Infra.Bytes

/-!
# Bits of bytes

The bits of a byte string in network order, the most significant bit of the first byte first
(`msbBits`), and the bit set that a big-endian packing of the bytes gives (`packBE`): bit `i` of the
set counts from the end of the string (`getLsbD_packBE`).
-/

namespace Rankd.Infra

/-- The bits of a byte, the most significant first. -/
def byteBits (b : UInt8) : List Bool := (List.range 8).map b.toBitVec.getMsbD

/-- The bits of a byte string in network order. -/
def msbBits (bs : Bytes) : List Bool := bs.flatMap byteBits

@[simp] theorem msbBits_nil : msbBits [] = [] := rfl

@[simp] theorem msbBits_cons (b : UInt8) (bs : Bytes) : msbBits (b :: bs) =
    byteBits b ++ msbBits bs :=
  rfl

@[simp] theorem length_byteBits (b : UInt8) : (byteBits b).length = 8 := by simp [byteBits]

@[simp] theorem length_msbBits (bs : Bytes) : (msbBits bs).length = 8 * bs.length := by
  induction bs with
  | nil => rfl
  | cons b bs ih => simp [ih]; omega

theorem getD_reverse_byteBits (b : UInt8) (i : Nat) :
    (byteBits b).reverse.getD i false = b.toBitVec.getLsbD i := by
  by_cases hi : i < 8
  · have hall : ∀ j ∈ List.range 8,
        (byteBits b).reverse.getD j false = b.toBitVec.getLsbD j := by
      simp [byteBits, List.range_succ, BitVec.getMsbD]
    exact hall i (List.mem_range.mpr hi)
  · have hge : 8 ≤ i := by omega
    rw [List.getD_eq_default _ _ (by simpa using hge), BitVec.getLsbD_of_ge _ _ hge]

/-- The bytes shifted into a bit set one after the other, the last one to its lowest bits. -/
def packBE (w : Nat) : Bytes → BitVec w → BitVec w
  | [], acc => acc
  | b :: rest, acc => packBE w rest (acc ||| (BitVec.ofNat w b.toNat <<< (8 * rest.length)))

/-- Bit `i` of the set is bit `i` of the string, counted from its end. -/
theorem getLsbD_packBE {w : Nat} (bs : Bytes) (acc : BitVec w) {i : Nat} (hi : i < w) :
    (packBE w bs acc).getLsbD i = (acc.getLsbD i || (msbBits bs).reverse.getD i false) := by
  induction bs generalizing acc with
  | nil => simp [packBE]
  | cons b rest ih =>
    rw [packBE, ih, BitVec.getLsbD_or, Bool.or_assoc, msbBits_cons, List.reverse_append]
    congr 1
    by_cases hlt : i < 8 * rest.length
    · rw [List.getD_append _ _ _ _ (by simpa using hlt)]
      simp [hlt]
    · have hge : 8 * rest.length ≤ i := by omega
      rw [List.getD_append_right _ _ _ _ (by simpa using hge),
        List.getD_eq_default (msbBits rest).reverse _ (by simpa using hge)]
      have hbit : (BitVec.ofNat w b.toNat).getLsbD (i - 8 * rest.length) =
          b.toBitVec.getLsbD (i - 8 * rest.length) := by
        rw [BitVec.getLsbD_ofNat, decide_eq_true (by omega), Bool.true_and]
        exact BitVec.testBit_toNat b.toBitVec
      rw [BitVec.getLsbD_shiftLeft, hbit, List.length_reverse, length_msbBits,
        getD_reverse_byteBits]
      simp [hi, hlt]

/-- Equal up to an index, bit by bit. -/
theorem take_eq_take_iff {l m : List Bool} (hlen : l.length = m.length) (n : Nat) :
    l.take n = m.take n ↔ ∀ i < n, l.getD i false = m.getD i false := by
  constructor
  · intro h i hi
    have hget := congrArg (List.getD · i false) h
    simpa [List.getD_eq_getElem?_getD, List.getElem?_take, hi] using hget
  · intro h
    refine List.ext_getElem (by simp [hlen]) fun i hi hi' => ?_
    have hil : i < n ∧ i < l.length := by simpa using hi
    have him : i < m.length := hlen ▸ hil.2
    have hget := h i hil.1
    rw [List.getD_eq_getElem _ _ hil.2, List.getD_eq_getElem _ _ him] at hget
    simpa using hget

/-- Comparing the lowest bits of two sets compares the ends of the strings. -/
theorem packBE_suffix_iff {w : Nat} {a b : Bytes} (hlen : a.length = b.length) {n : Nat}
    (hn : n ≤ w) :
    (∀ i < n, (packBE w a 0).getLsbD i = (packBE w b 0).getLsbD i) ↔
      (msbBits a).drop (8 * a.length - n) = (msbBits b).drop (8 * b.length - n) := by
  have hreverse : ∀ bs : Bytes, (msbBits bs).reverse.take n =
      ((msbBits bs).drop (8 * bs.length - n)).reverse := by
    intro bs
    rw [List.take_reverse, length_msbBits]
  rw [← List.reverse_inj, ← hreverse, ← hreverse,
    take_eq_take_iff (by simp [hlen])]
  refine forall₂_congr fun i hi => ?_
  rw [getLsbD_packBE a 0 (by omega), getLsbD_packBE b 0 (by omega)]
  simp

end Rankd.Infra

import Rankd.Infra.Bytes

/-!
# Session identifiers

`structs/identifier.cpp`. A `UUIDv4` is a ULID: 48 bits of timestamp over 80 bits of entropy.

The ulid library is a submodule that is not part of the tree, so the four functions the program
calls are fields of `Ulid`, and what the program relies on are its laws:

* `MarshalBinary` and `UnmarshalBinary` are the 16-byte big-endian codec
* `EncodeTime` stores the low 48 bits of its argument in the top six bytes
* `EncodeEntropyRand` changes only the low ten bytes

`Ulid.bigEndian` is the library these laws describe, for evaluation.
-/

namespace Rankd

open Infra

/-- `typedef ulid::ULID UUIDv4`, an unsigned 128-bit integer. -/
abbrev UUIDv4 := BitVec 128

/-- The 48-bit timestamp of an identifier, as a number. -/
def timestamp (u : UUIDv4) : Nat := u.toNat / 2 ^ 80

/-- The part of the ulid library that the program calls. -/
structure Ulid where
  marshalBinary : UUIDv4 → Bytes
  unmarshalBinary : Bytes → UUIDv4
  encodeTime : BitVec 64 → UUIDv4 → UUIDv4
  /-- The random bytes are an argument. -/
  encodeEntropyRand : BitVec 80 → UUIDv4 → UUIDv4
  marshalBinary_bigEndian : ∀ u, marshalBinary u = toBytesBE 16 u.toNat
  unmarshalBinary_bigEndian : ∀ bs, bs.length = 16 → (unmarshalBinary bs).toNat = ofBytesBE bs
  encodeTime_timestamp : ∀ t u, timestamp (encodeTime t u) = t.toNat % 2 ^ 48
  encodeEntropyRand_timestamp : ∀ e u, timestamp (encodeEntropyRand e u) = timestamp u

namespace Ulid

variable (ulid : Ulid)

@[simp] theorem length_marshalBinary (u : UUIDv4) : (ulid.marshalBinary u).length = 16 := by
  rw [ulid.marshalBinary_bigEndian, length_toBytesBE]

@[simp] theorem unmarshalBinary_marshalBinary (u : UUIDv4) :
    ulid.unmarshalBinary (ulid.marshalBinary u) = u := by
  apply BitVec.eq_of_toNat_eq
  rw [ulid.unmarshalBinary_bigEndian _ (ulid.length_marshalBinary u),
    ulid.marshalBinary_bigEndian]
  exact ofBytesBE_toBytesBE (by have := u.isLt; norm_num at *; omega)

theorem marshalBinary_unmarshalBinary {bs : Bytes} (h : bs.length = 16) :
    ulid.marshalBinary (ulid.unmarshalBinary bs) = bs := by
  rw [ulid.marshalBinary_bigEndian, ulid.unmarshalBinary_bigEndian bs h, ← h]
  exact toBytesBE_ofBytesBE bs

end Ulid

/-! ## `structs/identifier.cpp` -/

def marshallIntoVector (ulid : Ulid) (uuid : UUIDv4) : Bytes := ulid.marshalBinary uuid

def unmarshallFromVector (ulid : Ulid) (marshalled : Bytes) : UUIDv4 :=
  ulid.unmarshalBinary marshalled

/-- Compares the first six bytes of the two marshalled identifiers. -/
def isSameTimestamp (ulid : Ulid) (left right : UUIDv4) : Bool :=
  (marshallIntoVector ulid left).take 6 == (marshallIntoVector ulid right).take 6

/-- The entropy drawn by `EncodeEntropyRand` is an argument. -/
def generateNewUuidWith (ulid : Ulid) (time : BitVec 64) (entropy : BitVec 80) : UUIDv4 :=
  ulid.encodeEntropyRand entropy (ulid.encodeTime time 0)

theorem timestamp_lt (u : UUIDv4) : timestamp u < 256 ^ 6 := by
  have h := u.isLt
  unfold timestamp
  norm_num at *
  omega

theorem take_marshallIntoVector (ulid : Ulid) (u : UUIDv4) :
    (marshallIntoVector ulid u).take 6 = toBytesBE 6 (timestamp u) := by
  rw [marshallIntoVector, ulid.marshalBinary_bigEndian, timestamp,
    show (2 : Nat) ^ 80 = 256 ^ 10 by norm_num]
  exact take_toBytesBE 10 u.toNat 6

/-- The byte comparison decides equality of timestamps. -/
@[simp] theorem isSameTimestamp_iff {ulid : Ulid} {u v : UUIDv4} :
    isSameTimestamp ulid u v = true ↔ timestamp u = timestamp v := by
  rw [isSameTimestamp, beq_iff_eq, take_marshallIntoVector, take_marshallIntoVector,
    toBytesBE_inj (timestamp_lt u) (timestamp_lt v)]

@[simp] theorem timestamp_generateNewUuidWith (ulid : Ulid) (time : BitVec 64)
    (entropy : BitVec 80) :
    timestamp (generateNewUuidWith ulid time entropy) = time.toNat % 2 ^ 48 := by
  rw [generateNewUuidWith, ulid.encodeEntropyRand_timestamp, ulid.encodeTime_timestamp]

/-! ## Node identifiers -/

/-- `enum class IdentifierType` of `rankd-api.h`, the kinds of address a node is reached by. -/
inductive IdentifierType
  | simulation | mac | ipv4 | ipv6 | dds
  deriving DecidableEq, Repr

/-! ## The library the laws describe -/

theorem timestamp_append (t : BitVec 48) (e : BitVec 80) :
    timestamp (t ++ e : BitVec 128) = t.toNat := by
  have he := e.isLt
  have happ : (t ++ e : BitVec 128).toNat = 2 ^ 80 * t.toNat + e.toNat := by
    rw [BitVec.toNat_append, Nat.shiftLeft_eq, Nat.mul_comm, ← Nat.two_pow_add_eq_or_of_lt he]
  rw [timestamp, happ]
  omega

theorem timestamp_eq_extract (u : UUIDv4) : timestamp u = (u.extractLsb' 80 48).toNat := by
  have h := u.isLt
  rw [timestamp, BitVec.extractLsb'_toNat, Nat.shiftRight_eq_div_pow]
  omega

/-- A ulid library in which the laws hold, with the 48-bit and 80-bit halves concatenated. -/
def Ulid.bigEndian : Ulid where
  marshalBinary u := toBytesBE 16 u.toNat
  unmarshalBinary bs := BitVec.ofNat 128 (ofBytesBE bs)
  encodeTime t u := (t.truncate 48 ++ u.truncate 80 : BitVec 128)
  encodeEntropyRand e u := (u.extractLsb' 80 48 ++ e : BitVec 128)
  marshalBinary_bigEndian _ := rfl
  unmarshalBinary_bigEndian bs h := by
    have hlt := ofBytesBE_lt bs
    rw [h] at hlt
    rw [BitVec.toNat_ofNat]
    exact Nat.mod_eq_of_lt (by norm_num at *; omega)
  encodeTime_timestamp t u := by
    rw [timestamp_append, BitVec.truncate_eq_setWidth, BitVec.toNat_setWidth]
  encodeEntropyRand_timestamp e u := by
    rw [timestamp_append, timestamp_eq_extract]

end Rankd

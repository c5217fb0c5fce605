import Rankd.Infra.Bytes

/-!
# Attributes

Netlink attributes in a well-formed frame: a type, the memory from the payload on, and the
attributes that a nested payload holds. Programs read the memory without looking at the
length of the payload.
-/

namespace Rankd.Infra

inductive Attribute
  | mk (type : UInt16) (length : Nat) (data : Nat → UInt8) (nested : List Attribute)

namespace Attribute

def type : Attribute → UInt16
  | mk type _ _ _ => type

/-- `RTA_PAYLOAD`. -/
def length : Attribute → Nat
  | mk _ length _ _ => length

/-- The bytes from `RTA_DATA` on. -/
def data : Attribute → Nat → UInt8
  | mk _ _ data _ => data

/-- The attributes in the payload. -/
def nested : Attribute → List Attribute
  | mk _ _ _ nested => nested

/-- The first bytes at `RTA_DATA`. -/
def bytes (n : Nat) (a : Attribute) : Bytes := (List.range n).map a.data

/-- An integer of `w` bytes at `RTA_DATA`, on a little-endian machine. -/
def uint (w : Nat) (a : Attribute) : Nat := ofBytesLE (a.bytes w)

/-- An integer of `w` bytes, `o` bytes behind `RTA_DATA`. -/
def uintAt (o w : Nat) (a : Attribute) : Nat :=
    ofBytesLE ((List.range w).map fun i => a.data (o + i))

/-- A signed integer of `w` bytes at `RTA_DATA`. -/
def int (w : Nat) (a : Attribute) : Int := (BitVec.ofNat (8 * w) (a.uint w)).toInt

@[simp] theorem length_bytes (n : Nat) (a : Attribute) : (a.bytes n).length = n := by simp [bytes]

theorem uint_lt (w : Nat) (a : Attribute) : a.uint w < 256 ^ w := by
  simpa [uint] using ofBytesLE_lt (a.bytes w)

theorem le_int (a : Attribute) : -2 ^ 63 ≤ a.int 8 := BitVec.le_toInt (BitVec.ofNat 64 (a.uint 8))

theorem int_lt (a : Attribute) : a.int 8 < 2 ^ 63 := BitVec.toInt_lt

/-- An attribute without nested ones. -/
def leaf (type : UInt16) (payload : Bytes) : Attribute :=
  mk type payload.length (payload.getD · 0) []

/-- The entry of a type in the table that `parse_rtattr` fills: the first attribute of it. -/
def lookup (flags : UInt16) (l : List Attribute) (type : UInt16) : Option Attribute :=
  l.find? fun a => a.type &&& ~~~flags = type

end Attribute

end Rankd.Infra

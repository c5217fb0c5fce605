import Rankd.Infra.Bytes

/-!
# Documents

`utils/marshalling/serialization.cpp`, for any `rapidjson::Document`.

A document is encoded as a stream of events, the calls of libcbor's callbacks, from which libcbor
builds an item, and it is decoded by a walk over an item. The builder, `cbor_serialize_alloc` and
`cbor_load` are parameters (`Cbor`).
-/

namespace Rankd

open Infra

/-! ## Data -/

/-- A negative number of 64 bits. The other integers are unsigned to rapidjson. -/
structure Negative where
  value : Int64
  negative : value < 0
  deriving DecidableEq

/-- A `rapidjson::Document`. Its strings are any bytes. -/
inductive Document
  | null
  | bool (value : Bool)
  | uint (value : UInt64)
  | negative (value : Negative)
  | double (bits : BitVec 64)
  | string (text : Bytes)
  | array (items : List Document)
  | object (members : List (Bytes × Document))

/-- A `cbor_item_t`, with what is read of it. -/
inductive Item
  | uint (value : UInt64)
  | negint (value : UInt64)
  | bytestring
  | string (definite : Bool) (text : Bytes)
  | array (items : List Item)
  | map (pairs : List (Item × Item))
  | tag
  | bool (value : Bool)
  | null
  | control
  | float (bits : BitVec 64)

/-- The calls of `struct cbor_callbacks` that a document can lead to. -/
inductive Event
  | boolean (value : Bool)
  | null
  | float8 (bits : BitVec 64)
  | uint64 (value : UInt64)
  | negint64 (value : UInt64)
  | string (text : Bytes)
  | arrayStart (size : Nat)
  | mapStart (size : Nat)
  deriving DecidableEq

/-- The bytes of a literal. -/
def textBytes (text : String) : Bytes := text.toUTF8.data.toList

/-- `c_str()`, read up to its terminator. -/
def cStringBytes (bytes : Bytes) : Bytes := bytes.takeWhile (· ≠ 0)

/-! ## Encoding -/

mutual

/--
`cbor_stream_decode`. `IsFloat`, `IsUint` and `IsInt` are never reached: what is one of them is an
`IsDouble`, `IsUint64` or `IsInt64` before.
-/
def Document.cborStreamDecode : Document → List Event
  | .bool value => [.boolean value]
  | .null => [.null]
  | .double bits => [.float8 bits]
  | .uint value => [.uint64 value]
  -- `negint64` takes an `uint64_t`
  | .negative value => [.negint64 value.value.toUInt64]
  | .string text => [.string text]
  | .array items => .arrayStart items.length :: Document.streamItems items
  | .object members => .mapStart members.length :: Document.streamMembers members

def Document.streamItems : List Document → List Event
  | [] => []
  | item :: rest => item.cborStreamDecode ++ Document.streamItems rest

def Document.streamMembers : List (Bytes × Document) → List Event
  | [] => []
  | (key, value) :: rest =>
    .string key :: (value.cborStreamDecode ++ Document.streamMembers rest)

end

/-! ## Decoding -/

/-- The key of a pair, which is empty for anything but a definite string. -/
def Item.key : Item → Bytes
  | .string true text => cStringBytes text
  | _ => []

mutual

/-- `load_cbor_to_decode`. The value of a definite string is made, and not returned. -/
def Item.loadCborToDecode : Item → Document
  | .uint value => .uint value
  | .negint value => .uint (0 - 1 - value)
  | .bytestring => .string (textBytes "Unimplemented feature (Byte string).")
  | .string _ _ => .string (textBytes "Unimplemented feature (Chunked string).")
  | .array items => .array (Item.loadItems items)
  | .map pairs => .object (Item.loadPairs pairs)
  | .tag => .string (textBytes "Unimplemented feature (tag).")
  | .bool value => .bool value
  | .null => .null
  | .control => .string (textBytes "Unimplemented feature (Control string).")
  | .float bits => .double bits

def Item.loadItems : List Item → List Document
  | [] => []
  | item :: rest => item.loadCborToDecode :: Item.loadItems rest

def Item.loadPairs : List (Item × Item) → List (Bytes × Document)
  | [] => []
  | (key, value) :: rest => (key.key, value.loadCborToDecode) :: Item.loadPairs rest

end

/-! ## libcbor -/

/-- The builder with its callbacks, which leaves no root if it fails, the encoder and the
decoder. -/
structure Cbor where
  build : List Event → Option Item
  serializeAlloc : Item → Bytes
  load : Bytes → Option Item

/-- `serialize_json_as_vector`, `none` where libcbor is given no item. -/
def Cbor.serializeJsonAsVector (lib : Cbor) (json : Document) : Option Bytes :=
  (lib.build json.cborStreamDecode).map lib.serializeAlloc

/--
`deserialize_json`. The length is an `int`, which is converted to the `size_t` of `cbor_load`. The
error of `cbor_load` is not looked at, its item is then null.
-/
def Cbor.deserializeJson (lib : Cbor) (data : Bytes) (length : BitVec 32) : Document :=
  match lib.load (data.take (length.signExtend 64).toNat) with
  | some item => item.loadCborToDecode
  | none => .null

/-! ## The items of events -/

mutual

/-- The events of an item, for the kinds that the callbacks build. -/
def Item.events : Item → List Event
  | .uint value => [.uint64 value]
  | .negint value => [.negint64 value]
  | .string _ text => [.string text]
  | .array items => .arrayStart items.length :: Item.eventsOfItems items
  | .map pairs => .mapStart pairs.length :: Item.eventsOfPairs pairs
  | .bool value => [.boolean value]
  | .null => [.null]
  | .float bits => [.float8 bits]
  | .bytestring | .tag | .control => []

def Item.eventsOfItems : List Item → List Event
  | [] => []
  | item :: rest => item.events ++ Item.eventsOfItems rest

def Item.eventsOfPairs : List (Item × Item) → List Event
  | [] => []
  | (key, value) :: rest => key.events ++ (value.events ++ Item.eventsOfPairs rest)

end

/-- libcbor builds an item from its events, and reads it back as it wrote it. -/
structure Cbor.Handles (lib : Cbor) (item : Item) : Prop where
  build : lib.build item.events = some item
  load : lib.load (lib.serializeAlloc item) = some item

mutual

/-- The item that describes a document. -/
def Document.item : Document → Item
  | .null => .null
  | .bool value => .bool value
  | .uint value => .uint value
  | .negative value => .negint value.value.toUInt64
  | .double bits => .float bits
  | .string text => .string true text
  | .array items => .array (Document.itemsOf items)
  | .object members => .map (Document.pairsOf members)

def Document.itemsOf : List Document → List Item
  | [] => []
  | item :: rest => item.item :: Document.itemsOf rest

def Document.pairsOf : List (Bytes × Document) → List (Item × Item)
  | [] => []
  | (key, value) :: rest => (.string true key, value.item) :: Document.pairsOf rest

end

mutual

/-- **What a document is turned into**: its keys are cut, its strings and negative numbers lost. -/
def Document.received : Document → Document
  | .negative value => .uint (0 - 1 - value.value.toUInt64)
  | .string _ => .string (textBytes "Unimplemented feature (Chunked string).")
  | .array items => .array (Document.receivedItems items)
  | .object members => .object (Document.receivedMembers members)
  | .null => .null
  | .bool value => .bool value
  | .uint value => .uint value
  | .double bits => .double bits

def Document.receivedItems : List Document → List Document
  | [] => []
  | item :: rest => item.received :: Document.receivedItems rest

def Document.receivedMembers : List (Bytes × Document) → List (Bytes × Document)
  | [] => []
  | (key, value) :: rest => (cStringBytes key, value.received) :: Document.receivedMembers rest

end

/-! ## The recursions over lists -/

/-- Induction over documents, with the hypothesis for all elements and all members. -/
@[elab_as_elim]
theorem Document.induct {motive : Document → Prop} (null : motive .null)
    (bool : ∀ value, motive (.bool value)) (uint : ∀ value, motive (.uint value))
    (negative : ∀ value, motive (.negative value)) (double : ∀ bits, motive (.double bits))
    (string : ∀ text, motive (.string text))
    (array : ∀ items, (∀ item ∈ items, motive item) → motive (.array items))
    (object : ∀ members, (∀ member ∈ members, motive member.2) → motive (.object members))
    (d : Document) : motive d := by
  refine @Document.rec motive (fun items => ∀ item ∈ items, motive item)
    (fun members => ∀ member ∈ members, motive member.2) (fun member => motive member.2)
    null bool uint negative double string array object ?_ ?_ ?_ ?_ ?_ d
  · intro item hitem
    cases hitem
  · intro first rest hfirst hrest item hitem
    rcases List.mem_cons.mp hitem with rfl | hitem
    · exact hfirst
    · exact hrest item hitem
  · intro member hmember
    cases hmember
  · intro first rest hfirst hrest member hmember
    rcases List.mem_cons.mp hmember with rfl | hmember
    · exact hfirst
    · exact hrest member hmember
  · intro key value hvalue
    exact hvalue

namespace Document

@[simp] theorem streamItems_eq (items : List Document) :
    streamItems items = items.flatMap cborStreamDecode := by
  induction items with
  | nil => rfl
  | cons item rest ih => rw [streamItems, ih, List.flatMap_cons]

@[simp] theorem streamMembers_eq (members : List (Bytes × Document)) :
    streamMembers members =
      members.flatMap fun member => .string member.1 :: member.2.cborStreamDecode := by
  induction members with
  | nil => rfl
  | cons member rest ih => rw [streamMembers, ih, List.flatMap_cons, List.cons_append]

@[simp] theorem itemsOf_eq (items : List Document) : itemsOf items = items.map item := by
  induction items with
  | nil => rfl
  | cons first rest ih => rw [itemsOf, ih, List.map_cons]

@[simp] theorem pairsOf_eq (members : List (Bytes × Document)) :
    pairsOf members = members.map fun member => (.string true member.1, member.2.item) := by
  induction members with
  | nil => rfl
  | cons member rest ih => rw [pairsOf, ih, List.map_cons]

@[simp] theorem receivedItems_eq (items : List Document) :
    receivedItems items = items.map received := by
  induction items with
  | nil => rfl
  | cons item rest ih => rw [receivedItems, ih, List.map_cons]

@[simp] theorem receivedMembers_eq (members : List (Bytes × Document)) :
    receivedMembers members =
      members.map fun member => (cStringBytes member.1, member.2.received) := by
  induction members with
  | nil => rfl
  | cons member rest ih => rw [receivedMembers, ih, List.map_cons]

end Document

namespace Item

@[simp] theorem eventsOfItems_eq (items : List Item) : eventsOfItems items =
    items.flatMap events := by
  induction items with
  | nil => rfl
  | cons item rest ih => rw [eventsOfItems, ih, List.flatMap_cons]

@[simp] theorem eventsOfPairs_eq (pairs : List (Item × Item)) :
    eventsOfPairs pairs = pairs.flatMap fun pair => pair.1.events ++ pair.2.events := by
  induction pairs with
  | nil => rfl
  | cons pair rest ih => rw [eventsOfPairs, ih, List.flatMap_cons, List.append_assoc]

@[simp] theorem loadItems_eq (items : List Item) :
    loadItems items = items.map loadCborToDecode := by
  induction items with
  | nil => rfl
  | cons item rest ih => rw [loadItems, ih, List.map_cons]

@[simp] theorem loadPairs_eq (pairs : List (Item × Item)) :
    loadPairs pairs = pairs.map fun pair => (pair.1.key, pair.2.loadCborToDecode) := by
  induction pairs with
  | nil => rfl
  | cons pair rest ih => rw [loadPairs, ih, List.map_cons]

end Item

/-! ## The round trip -/

/-- **The calls of the callbacks are the events of the item that describes the document.** -/
theorem Document.cborStreamDecode_eq (d : Document) : d.cborStreamDecode = d.item.events := by
  induction d using Document.induct with
  | array items ih =>
    simp only [cborStreamDecode, item, Item.events, streamItems_eq, itemsOf_eq,
      Item.eventsOfItems_eq, List.length_map, List.flatMap_map]
    rw [List.flatMap_congr ih]
  | object members ih =>
    simp only [cborStreamDecode, item, Item.events, streamMembers_eq, pairsOf_eq,
      Item.eventsOfPairs_eq, List.length_map, List.flatMap_map, List.singleton_append]
    rw [List.flatMap_congr fun member hmember => by rw [ih member hmember]]
  | null | bool | uint | negative | double | string => rfl

/-- **The walk over the item that describes a document.** -/
theorem Document.loadCborToDecode_item (d : Document) : d.item.loadCborToDecode = d.received := by
  induction d using Document.induct with
  | array items ih =>
    simp only [item, Item.loadCborToDecode, received, itemsOf_eq, Item.loadItems_eq,
      receivedItems_eq, List.map_map]
    congr 1
    exact List.map_congr_left ih
  | object members ih =>
    simp only [item, Item.loadCborToDecode, received, pairsOf_eq, Item.loadPairs_eq,
      receivedMembers_eq, List.map_map]
    congr 1
    refine List.map_congr_left fun member hmember => ?_
    rw [← ih member hmember]
    rfl
  | null | bool | uint | negative | double | string => rfl

/-- An `int` that is a length is this length as a `size_t`. -/
theorem toNat_signExtend_of_toInt {length : BitVec 32} {n : Nat} (h : length.toInt = n) :
    (length.signExtend 64).toNat = n := by
  have hsign : (length.signExtend 64).toInt = n := by
    rw [BitVec.toInt_signExtend_of_le (by decide), h]
  have hcond := BitVec.toInt_eq_toNat_cond (length.signExtend 64)
  have hlt := (length.signExtend 64).isLt
  split_ifs at hcond
  · omega
  · omega

/-- **What arrives of a document.** -/
theorem Cbor.deserializeJson_serializeJson {lib : Cbor} {d : Document} (hlib : lib.Handles d.item) :
    ∃ bytes, lib.serializeJsonAsVector d = some bytes ∧
      ∀ length : BitVec 32, length.toInt = bytes.length →
        lib.deserializeJson bytes length = d.received := by
  refine ⟨lib.serializeAlloc d.item, ?_, ?_⟩
  · rw [serializeJsonAsVector, Document.cborStreamDecode_eq, hlib.build, Option.map_some]
  · intro length hlength
    rw [deserializeJson, toNat_signExtend_of_toInt hlength, List.take_length, hlib.load]
    exact d.loadCborToDecode_item

end Rankd

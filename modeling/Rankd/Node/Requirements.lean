import Rankd.Node.State

/-!
# Requirements on the wire

The payload of EAR and MAR: `utils/marshalling.cpp`, `utils/marshalling/*.cpp` and
`structs/requesting_capabilities.cpp`.

A payload is a CBOR item, read as a JSON document (`deserializeJson`), checked (`validateYang`) and
turned into requirements (`transformToRequirements`). The way back is `transformToJson` and
`serializeJson`. libcbor and libyang are parameters (`Libraries`). A failed assertion of rapidjson,
the dereference of an end iterator and any exception other than `std::invalid_argument` are
`UnmarshalError.other`.
-/

namespace Rankd

open Infra

/-! ## Documents -/

/-- A `rapidjson::Value`. The integers of this program are never negative. -/
inductive Json
  | null
  | bool (value : Bool)
  | uint (value : UInt64)
  | double (bits : BitVec 64)
  | string (text : String)
  | array (items : List Json)
  | object (members : List (String × Json))

/-- A `cbor_item_t`, with what `load_cbor_to_decode` reads of it. -/
inductive CborItem
  | uint (value : UInt64)
  | negint (value : UInt64)
  | bytestring
  | string (definite : Bool) (text : String)
  | array (items : List CborItem)
  | map (pairs : List (CborItem × CborItem))
  | tag
  | bool (value : Bool)
  | null
  | control
  | float (bits : BitVec 64)

/-- `cbor_load`, `cbor_serialize_alloc`, and the validation by the YANG module. -/
structure Libraries where
  cborLoad : Bytes → Option CborItem
  cborSerialize : CborItem → Bytes
  validate : Json → Bool

namespace Json

/-- `FindMember`, which asserts an object. -/
def findMember (key : String) : Json → Except UnmarshalError (Option Json)
  | .object members => .ok ((members.find? (·.1 = key)).map (·.2))
  | _ => .error .other

/-- `operator[]`. -/
def member (key : String) (json : Json) : Except UnmarshalError Json :=
  match json.findMember key with
  | .ok (some value) => .ok value
  | .ok none => .error .other
  | .error e => .error e

/-- `*MemberBegin()`. -/
def memberBegin : Json → Except UnmarshalError (String × Json)
  | .object (first :: _) => .ok first
  | _ => .error .other

def getArray : Json → Except UnmarshalError (List Json)
  | .array items => .ok items
  | _ => .error .other

def getUint : Json → Except UnmarshalError (BitVec 32)
  | .uint value => if value.toNat < 2 ^ 32 then .ok (BitVec.ofNat 32 value.toNat) else .error .other
  | _ => .error .other

end Json

/-! ## `serialization.cpp` -/

/-- `c_str()`, read up to its terminator. -/
def cString (text : String) : String := String.ofList (text.toList.takeWhile (· ≠ '\x00'))

mutual

/-- `load_cbor_to_decode`. A string that was built is not returned. -/
def loadCborToDecode : CborItem → Json
  | .uint value => .uint value
  | .negint value => .uint (0 - 1 - value)
  | .bytestring => .string "Unimplemented feature (Byte string)."
  | .string _ _ => .string "Unimplemented feature (Chunked string)."
  | .array items => .array (loadItems items)
  | .map pairs => .object (loadPairs pairs)
  | .tag => .string "Unimplemented feature (tag)."
  | .bool value => .bool value
  | .null => .null
  | .control => .string "Unimplemented feature (Control string)."
  | .float bits => .double bits

def loadItems : List CborItem → List Json
  | [] => []
  | item :: rest => loadCborToDecode item :: loadItems rest

def loadPairs : List (CborItem × CborItem) → List (String × Json)
  | [] => []
  | (.string true key, value) :: rest => (cString key, loadCborToDecode value) :: loadPairs rest
  | (_, value) :: rest => ("", loadCborToDecode value) :: loadPairs rest

end

mutual

/-- `cbor_stream_decode`: the item that the callbacks build. -/
def cborStreamDecode : Json → CborItem
  | .null => .null
  | .bool value => .bool value
  | .uint value => .uint value
  | .double bits => .float bits
  | .string text => .string true text
  | .array items => .array (streamItems items)
  | .object members => .map (streamMembers members)

def streamItems : List Json → List CborItem
  | [] => []
  | item :: rest => cborStreamDecode item :: streamItems rest

def streamMembers : List (String × Json) → List (CborItem × CborItem)
  | [] => []
  | (key, value) :: rest => (.string true key, cborStreamDecode value) :: streamMembers rest

end

/-- `serialize_json_as_vector`. -/
def serializeJson (lib : Libraries) (json : Json) : Bytes :=
  lib.cborSerialize (cborStreamDecode json)

/-- `deserialize_json`. The error of `cbor_load` is not looked at, its item is then null. -/
def deserializeJson (lib : Libraries) (data : Bytes) : Json :=
  match lib.cborLoad data with
  | some item => loadCborToDecode item
  | none => .null

/-! ## `validation.cpp` -/

inductive RequestTypes
  | cpuRequest | memoryRequest | interfaceRequest | unknown
  deriving DecidableEq

def typify (text : String) : RequestTypes :=
  if text = "cpu_cores" then .cpuRequest
  else if text = "memory" then .memoryRequest
  else if text = "interface" then .interfaceRequest
  else .unknown

/-- The key of the only member of a request. -/
def requirementsKey : String := "nap-rank-requirements:requirements"

/-- The loop over the requirements: their orders count from 0. -/
def validateItems (valid : Bool) : Nat → List Json → Except UnmarshalError Unit
  | _, [] => .ok ()
  | expected, pair :: rest => do
    let order ← pair.findMember "order"
    let requirement ← pair.findMember "requirement"
    match order, requirement with
    | some order, some requirement =>
      let order ← order.getUint
      -- `int order`
      if order.toInt = expected then
        let first ← requirement.memberBegin
        if typify first.1 = .unknown then .error .invalidArgument
        else if valid then validateItems valid (expected + 1) rest
        else .error .other
      else .error .invalidArgument
    | _, _ => .error .invalidArgument

def validateYang (lib : Libraries) (document : Json) : Except UnmarshalError Unit :=
  match document with
  | .object [(key, value)] =>
    if key = requirementsKey then do
      let items ← value.findMember "items"
      match items with
      | some (.array items) => validateItems (lib.validate document) 0 items
      | _ => .error .invalidArgument
    else .error .invalidArgument
  | .object _ => .error .invalidArgument
  | _ => .error .other

/-! ## `transformation.cpp` -/

/-- `FnvHash` of a string with its terminator; `char` is signed. -/
def fnvHash (text : String) : BitVec 32 :=
  (text.toUTF8.data.toList ++ [0]).foldl
    (fun (hash : BitVec 32) (byte : UInt8) => (hash ^^^ byte.toBitVec.signExtend 32) * 16777619)
    2166136261

/-- The underlying values of the enumeration. -/
def CapabilityItemType.value : CapabilityItemType → BitVec 32
  | .unspecified => 0
  | .time => fnvHash "time"
  | .timeTas => fnvHash "tas-request"
  | .timeCbs => fnvHash "cbs-request"
  | .net => fnvHash "net"
  | .netBandwidth => fnvHash "interface-request"
  | .netDds => fnvHash "dds-request"
  | .comp => fnvHash "cpu"
  | .compCpu => fnvHash "cpu_cores"
  | .compMemory => fnvHash "memory-request"

/-- `std::map::insert`, on the entries in the order of their keys. -/
def mapInsert {κ α : Type} (rank : κ → Nat) (k : κ) (a : α) : List (κ × α) → List (κ × α)
  | [] => [(k, a)]
  | e :: rest =>
    if rank k < rank e.1 then (k, a) :: e :: rest
    else if rank k = rank e.1 then e :: rest
    else e :: mapInsert rank k a rest

/-- `add_item`. -/
def RequestingCapabilities.addItem (item : CapabilityItemType × Any) (place : UInt8)
    (c : RequestingCapabilities) : RequestingCapabilities where
  items := mapInsert (fun type => type.value.toNat) item.1 item.2 c.items
  orderedItems := mapInsert UInt8.toNat place item c.orderedItems

/-- The loop over the requirements. Kinds other than `COMP_CPU` are skipped. -/
def addRequirements : List Json → RequestingCapabilities →
    Except UnmarshalError RequestingCapabilities
  | [], c => .ok c
  | item :: rest, c => do
    let requirement ← item.member "requirement"
    let first ← requirement.memberBegin
    if fnvHash first.1 = CapabilityItemType.compCpu.value then
      let cores ← (← requirement.member "cpu_cores").getUint
      let order ← (← item.member "order").getUint
      addRequirements rest (c.addItem (.compCpu, some ⟨cores⟩) ⟨order.setWidth 8⟩)
    else
      addRequirements rest c

def transformToRequirements (json : Json) : Except UnmarshalError RequestingCapabilities := do
  let items ← (← (← json.member requirementsKey).member "items").getArray
  addRequirements items ⟨[], []⟩

/-- One item of the document, `none` where `std::any_cast` throws. -/
def itemToJson (item : UInt8 × CapabilityItemType × Any) : Option Json :=
  match item.2.1 with
  | .compCpu => item.2.2.map fun cores =>
      .object [("order", .uint item.1.toUInt64),
        ("requirement", .object [("cpu_cores", .uint cores.toUInt64)])]
  | _ => some (.object [("order", .uint item.1.toUInt64)])

def transformToJson (c : RequestingCapabilities) : Option Json := do
  let items ← c.orderedItems.mapM itemToJson
  return .object [(requirementsKey, .object [("items", .array items)])]

/-! ## `marshalling.cpp` -/

def unmarshal (lib : Libraries) (data : Bytes) : Except UnmarshalError RequestingCapabilities := do
  if data.isEmpty then
    return ⟨[], []⟩
  else
    let document := deserializeJson lib data
    validateYang lib document
    transformToRequirements document

/-- The payload of the EARs and MARs that a node sends for requirements. -/
def forwardedPayload (lib : Libraries) (c : RequestingCapabilities) : Option Bytes :=
  (transformToJson c).map (serializeJson lib)

end Rankd

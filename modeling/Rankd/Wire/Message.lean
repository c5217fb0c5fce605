import Rankd.Wire.Identifier

/-!
# Messages and their wire encoding

`structs/messages/*`, `utils/marshalling.cpp` and `utils/messaging.cpp`.

EAR and MAR have the same fields, the same encoder and the same decoder constructor, so these are
written once for the record `Request`. The address switch of the encoders and decoders, five copies
of one body at five widths, is one body that takes the width from `addrLen?`.

`EAR` and `MAR` leave the bytes of `_listener` past the address uninitialised when they are decoded.
That indeterminate content is the argument `uninit` of the decoders; the theorems hold for any.
-/

namespace Rankd

open Infra

/-! ## Kinds and headers -/

/--
`enum class MessageType`. A `static_cast` from four bits can also give a value without a name.
-/
inductive MessageType
  | ear | mar | bid | acc | ref | rep | notype
  | unnamed (code : UInt8)
  deriving DecidableEq, Repr

def MessageType.code : MessageType → UInt8
  | .ear => 0
  | .mar => 1
  | .bid => 2
  | .acc => 3
  | .ref => 4
  | .rep => 5
  | .notype => 7
  | .unnamed c => c

/-- `static_cast<MessageType>`. -/
def MessageType.ofCode (c : UInt8) : MessageType :=
  if c = 0 then .ear else if c = 1 then .mar else if c = 2 then .bid else if c = 3 then .acc
  else if c = 4 then .ref else if c = 5 then .rep else if c = 7 then .notype else .unnamed c

structure Header where
  version : UInt8
  type : MessageType
  uuid : UUIDv4
  deriving DecidableEq, Repr

/-- `RANK_HEADER_LEN`: one byte of version and type, sixteen of UUID. -/
def headerLen : Nat := 17

/-- `RANK_HEADER_VERSION`, the version of every message the program builds itself. -/
def headerVersion : UInt8 := 1

def marshalHeader (ulid : Ulid) (h : Header) : Bytes :=
  (((h.version &&& 0b11) <<< 6) ||| ((h.type.code &&& 0b1111) <<< 2)) ::
    marshallIntoVector ulid h.uuid

def unmarshalHeader (ulid : Ulid) (data : Bytes) : Header :=
  { version := (data.headD 0 >>> 6) &&& 0b11
    type := .ofCode ((data.headD 0 >>> 2) &&& 0b1111)
    uuid := unmarshallFromVector ulid ((data.drop 1).take 16) }

/-! ## Messages -/

/-- `std::array<uint8_t, RANK_LISTENER_MAX_LEN>`. -/
abbrev ListenerArray := Vector UInt8 16

/--
Bytes of an address by listener code: Simuzilla 1, IPv4 4, MAC 6, IPv6 16, DDS 16.
The other codes fall in the `default` of every switch.
-/
def addrLen? (code : UInt8) : Option Nat :=
  if code = 0 then some 1 else if code = 2 then some 4 else if code = 3 then some 6
  else if code = 4 then some 16 else if code = 5 then some 16 else none

/-- The fields of `EAR` and of `MAR`. -/
structure Request where
  priority : UInt8
  listenerLength : UInt8
  reserved : UInt8
  listener : ListenerArray
  payloadLength : UInt16
  payload : Bytes
  deriving DecidableEq, Repr

/-- The message classes. A message carries its kind, so its header's type cannot disagree. -/
inductive Message
  | ear (version : UInt8) (uuid : UUIDv4) (request : Request)
  | mar (version : UInt8) (uuid : UUIDv4) (request : Request)
  /-- `value` is the bit pattern of the `float`. -/
  | bid (version : UInt8) (uuid : UUIDv4) (value : BitVec 32)
  | acc (version : UInt8) (uuid : UUIDv4)
  | ref (version : UInt8) (uuid : UUIDv4)
  /-- `reserved` is left uninitialised by two of the constructors. -/
  | rep (version : UInt8) (uuid : UUIDv4) (listenerLength reserved : UInt8)
      (listener : ListenerArray)
  deriving DecidableEq, Repr

def Message.type : Message → MessageType
  | .ear .. => .ear
  | .mar .. => .mar
  | .bid .. => .bid
  | .acc .. => .acc
  | .ref .. => .ref
  | .rep .. => .rep

def Message.uuid : Message → UUIDv4
  | .ear _ u _ | .mar _ u _ | .bid _ u _ | .acc _ u | .ref _ u | .rep _ u _ _ _ => u

def Message.version : Message → UInt8
  | .ear v _ _ | .mar v _ _ | .bid v _ _ | .acc v _ | .ref v _ | .rep v _ _ _ _ => v

def Message.header (m : Message) : Header := ⟨m.version, m.type, m.uuid⟩

/-- What is thrown while a message is read: `std::vector::at`, or the `default` of a switch. -/
inductive Thrown
  | outOfRange
  | exception
  deriving DecidableEq, Repr

/--
`EAR::listener`, `MAR::listener` and `REP::listener`: one byte for code 0, otherwise as many bytes
as the *code* says.
-/
def listenerField (listenerLength : UInt8) (listener : ListenerArray) : Except Thrown Bytes :=
  if listenerLength = 0 then readRun .outOfRange listener.toList 1 0 []
  else readRun .outOfRange listener.toList listenerLength.toNat 0 []

/-! ## Encoding -/

/-- `EAR::raw_payload` and `MAR::raw_payload`. An unknown listener code gives no bytes at all. -/
def Request.rawPayload (ulid : Ulid) (h : Header) (r : Request) : Bytes :=
  match addrLen? r.listenerLength with
  | none => []
  | some len =>
    marshalHeader ulid h ++
      [(r.priority <<< 5) ||| ((r.listenerLength &&& 0x7) <<< 2) ||| (r.reserved &&& 0x3)] ++
      r.listener.toList.take len ++
      [((r.payloadLength >>> 8) &&& 0xFF).toUInt8, (r.payloadLength &&& 0xFF).toUInt8] ++
      r.payload

/-- `REP::raw_payload`. -/
def repRawPayload (ulid : Ulid) (h : Header) (listenerLength reserved : UInt8)
    (listener : ListenerArray) : Bytes :=
  match addrLen? listenerLength with
  | none => []
  | some len =>
    marshalHeader ulid h ++ [((listenerLength &&& 0x7) <<< 5) ||| (reserved &&& 0x3)] ++
      listener.toList.take len

def Message.rawPayload (ulid : Ulid) (m : Message) : Bytes :=
  match m with
  | .ear _ _ r | .mar _ _ r => r.rawPayload ulid m.header
  | .bid _ _ value => marshalHeader ulid m.header ++ toBytesLE 4 value.toNat
  | .acc .. | .ref .. => marshalHeader ulid m.header
  | .rep _ _ listenerLength reserved listener =>
    repRawPayload ulid m.header listenerLength reserved listener

/-! ## Decoding -/

/-- The address loop of the decoders: `_listener.at(i) = marshalled_data.at(i + 1)`. -/
def readListener (data : Bytes) : Nat → Nat → ListenerArray → Except Thrown ListenerArray
  | 0, _, listener => .ok listener
  | n + 1, i, listener => do
    let b ← readAt .outOfRange data (i + 1)
    readListener data n (i + 1) (listener.setIfInBounds i b)

/-- `EAR(Header, bytes)` and `MAR(Header, bytes)`. -/
def Request.decode (uninit : ListenerArray) (data : Bytes) : Except Thrown Request := do
  let first ← readAt .outOfRange data 0
  let listenerLength := (first >>> 2) &&& 0x07
  match addrLen? listenerLength with
  | none => throw .exception
  | some len => do
    let listener ← readListener data len 0 uninit
    let hi ← readAt .outOfRange data (1 + len)
    let lo ← readAt .outOfRange data (1 + len + 1)
    let payloadLength := (hi.toUInt16 <<< 8) ||| lo.toUInt16
    let payload ← readRun .outOfRange data payloadLength.toNat (1 + len + 2) []
    return {
      priority := (first >>> 5) &&& 0x07
      listenerLength := listenerLength
      reserved := 0
      listener := listener
      payloadLength := payloadLength
      payload := payload }

/-- `BID(Header, bytes)`: four bytes, reinterpreted as a `float`. -/
def decodeBid (data : Bytes) : Except Thrown (BitVec 32) := do
  let value ← readRun .outOfRange data 4 0 []
  return BitVec.ofNat 32 (ofBytesLE value)

/-- `REP(Header, bytes)`. `_listener` is value-initialised here. -/
def decodeRep (version : UInt8) (uuid : UUIDv4) (data : Bytes) : Except Thrown Message := do
  let first ← readAt .outOfRange data 0
  let listenerLength := (first >>> 5) &&& 0x07
  match addrLen? listenerLength with
  | none => throw .exception
  | some len => do
    let listener ← readListener data len 0 (Vector.replicate 16 0)
    return .rep version uuid listenerLength 0 listener

/-- `ntohs` of a little-endian host. -/
def ntohs (x : UInt16) : UInt16 := (x <<< 8) ||| (x >>> 8)

/-- `byte = ntohs(byte)`: the byte is widened to 16 bits and the result narrowed to a byte again. -/
def ntohsByte (b : UInt8) : UInt8 := (ntohs b.toUInt16).toUInt8

/-- The switch of `parse_message_from_bytes` over the header's type. `.ok none` is `nullptr`. -/
def parseContent (uninit : ListenerArray) (header : Header) (content : Bytes) :
    Except Thrown (Option Message) :=
  match header.type with
  | .notype => .ok none
  | .ear => do return some (.ear header.version header.uuid (← Request.decode uninit content))
  | .mar => do return some (.mar header.version header.uuid (← Request.decode uninit content))
  | .bid => do return some (.bid header.version header.uuid (← decodeBid content))
  | .acc => .ok (some (.acc header.version header.uuid))
  | .ref => .ok (some (.ref header.version header.uuid))
  | .rep => do return some (← decodeRep header.version header.uuid content)
  | .unnamed _ => .ok none

def parseMessageFromBytes (ulid : Ulid) (uninit : ListenerArray) (bytes : Bytes)
    (fromNetwork : Bool) : Except Thrown (Option Message) :=
  if bytes.length < headerLen then .ok none
  else
    let bytes := if fromNetwork then bytes.map ntohsByte else bytes
    parseContent uninit (unmarshalHeader ulid (bytes.take headerLen)) (bytes.drop headerLen)

end Rankd

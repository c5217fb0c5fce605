import Mathlib.Data.List.TakeWhile
import Rankd.Properties.Hops
import Rankd.Wire.Document

/-!
# Documents on the wire

`deserialize_json` after `serialize_json_as_vector`, for documents of any depth and width.

* `structural_roundtrip` — documents without strings, negative numbers and NUL in a key arrive
* `leaves_survive_iff` — a string arrives as a fixed text, and a negative number as a positive one

The documents of `Node/Requirements` are some of these (`document_loadCborToDecode`,
`item_cborStreamDecode`).
-/

namespace Rankd

open Infra

/-! ## libcbor, for evaluation -/

mutual

/-- An item from its events, with the events behind it. -/
def buildItem : Nat → List Event → Option (Item × List Event)
  | 0, _ | _, [] => none
  | _ + 1, .boolean value :: rest => some (.bool value, rest)
  | _ + 1, .null :: rest => some (.null, rest)
  | _ + 1, .float8 bits :: rest => some (.float bits, rest)
  | _ + 1, .uint64 value :: rest => some (.uint value, rest)
  | _ + 1, .negint64 value :: rest => some (.negint value, rest)
  | _ + 1, .string text :: rest => some (.string true text, rest)
  | fuel + 1, .arrayStart size :: rest =>
    (buildItems fuel size rest).map fun r => (.array r.1, r.2)
  | fuel + 1, .mapStart size :: rest =>
    (buildPairs fuel size rest).map fun r => (.map r.1, r.2)

def buildItems : Nat → Nat → List Event → Option (List Item × List Event)
  | _, 0, events => some ([], events)
  | 0, _ + 1, _ => none
  | fuel + 1, n + 1, events => do
    let first ← buildItem fuel events
    let rest ← buildItems fuel n first.2
    return (first.1 :: rest.1, rest.2)

def buildPairs : Nat → Nat → List Event → Option (List (Item × Item) × List Event)
  | _, 0, events => some ([], events)
  | 0, _ + 1, _ => none
  | fuel + 1, n + 1, events => do
    let key ← buildItem fuel events
    let value ← buildItem fuel key.2
    let rest ← buildPairs fuel n value.2
    return ((key.1, value.1) :: rest.1, rest.2)

end

mutual

def Item.bytes : Item → Bytes
  | .uint value => 0x1B :: toBytesBE 8 value.toNat
  | .negint value => 0x3B :: toBytesBE 8 value.toNat
  | .string _ text => cborHead 3 text.length ++ text
  | .array items => cborHead 4 items.length ++ Item.bytesOfItems items
  | .map pairs => cborHead 5 pairs.length ++ Item.bytesOfPairs pairs
  | .bool value => [if value then 0xF5 else 0xF4]
  | .null => [0xF6]
  | .float bits => 0xFB :: toBytesBE 8 bits.toNat
  | .bytestring => [0x40]
  | .tag => [0xC0]
  | .control => [0xF7]

def Item.bytesOfItems : List Item → Bytes
  | [] => []
  | item :: rest => item.bytes ++ Item.bytesOfItems rest

def Item.bytesOfPairs : List (Item × Item) → Bytes
  | [] => []
  | (key, value) :: rest => key.bytes ++ value.bytes ++ Item.bytesOfPairs rest

end

/-- The first byte of an item, the number that it or the bytes behind it hold, and what follows. -/
def readHead : Bytes → Option (UInt8 × Nat × Bytes)
  | [] => none
  | b :: rest =>
    let long (n : Nat) := some (b, ofBytesBE (rest.take n), rest.drop n)
    match b.toNat % 32 with
    | 24 => long 1
    | 25 => long 2
    | 26 => long 4
    | 27 => long 8
    | low => if low < 24 then some (b, low, rest) else none

mutual

def readItemBytes : Nat → Bytes → Option (Item × Bytes)
  | 0, _ => none
  | fuel + 1, bytes => do
    let (b, n, rest) ← readHead bytes
    match b.toNat / 32 with
    | 0 => return (.uint (UInt64.ofNat n), rest)
    | 1 => return (.negint (UInt64.ofNat n), rest)
    | 3 => return (.string true (rest.take n), rest.drop n)
    | 4 => (readItemsBytes fuel n rest).map fun r => (.array r.1, r.2)
    | 5 => (readPairsBytes fuel n rest).map fun r => (.map r.1, r.2)
    | 7 =>
      if b = 0xFB then return (.float (BitVec.ofNat 64 n), rest)
      else if n = 20 ∨ n = 21 then return (.bool (n = 21), rest)
      else if n = 22 then return (.null, rest)
      else none
    | _ => none

def readItemsBytes : Nat → Nat → Bytes → Option (List Item × Bytes)
  | _, 0, bytes => some ([], bytes)
  | 0, _ + 1, _ => none
  | fuel + 1, n + 1, bytes => do
    let first ← readItemBytes fuel bytes
    let rest ← readItemsBytes fuel n first.2
    return (first.1 :: rest.1, rest.2)

def readPairsBytes : Nat → Nat → Bytes → Option (List (Item × Item) × Bytes)
  | _, 0, bytes => some ([], bytes)
  | 0, _ + 1, _ => none
  | fuel + 1, n + 1, bytes => do
    let key ← readItemBytes fuel bytes
    let value ← readItemBytes fuel key.2
    let rest ← readPairsBytes fuel n value.2
    return ((key.1, value.1) :: rest.1, rest.2)

end

def Cbor.sample : Cbor where
  build events := (buildItem (events.length + 1) events).map Prod.fst
  serializeAlloc := Item.bytes
  load data := (readItemBytes (data.length + 1) data).map Prod.fst

/-- `{"a": [null, true, 300], "": {"b": 0.5}}`. -/
def sampleDocument : Document :=
  .object [(textBytes "a", .array [.null, .bool true, .uint 300]),
    (textBytes "", .object [(textBytes "b", .double 0x3FE0000000000000)])]

theorem Cbor.sample_handles : Cbor.sample.Handles sampleDocument.item where
  build := rfl
  load := rfl

/-! ## Structural documents -/

/-- Documents of null, booleans, unsigned numbers, doubles, arrays and objects
without NUL in a key. -/
inductive Document.Structural : Document → Prop
  | null : Structural .null
  | bool (value : Bool) : Structural (.bool value)
  | uint (value : UInt64) : Structural (.uint value)
  | double (bits : BitVec 64) : Structural (.double bits)
  | array {items : List Document} : (∀ item ∈ items, Structural item) → Structural (.array items)
  | object {members : List (Bytes × Document)} : (∀ member ∈ members, 0 ∉ member.1) →
      (∀ member ∈ members, Structural member.2) → Structural (.object members)

/-- A key without NUL is not cut. -/
theorem cStringBytes_eq {bytes : Bytes} (h : 0 ∉ bytes) : cStringBytes bytes = bytes := by
  unfold cStringBytes
  rw [List.takeWhile_eq_self_iff]
  intro b hb
  rw [decide_eq_true_eq]
  rintro rfl
  exact h hb

theorem Document.Structural.received_eq {d : Document} (h : d.Structural) : d.received = d := by
  induction h with
  | array _ ih =>
    simp only [received, receivedItems_eq]
    rw [List.map_congr_left ih, List.map_id']
  | object hkeys _ ih =>
    simp only [received, receivedMembers_eq]
    congr 1
    refine (List.map_congr_left fun member hmember => ?_).trans (List.map_id' _)
    rw [cStringBytes_eq (hkeys member hmember), ih member hmember]
  | null | bool | uint | double => rfl

/--
**The round trip of structural documents.** What `deserialize_json` makes of the bytes of
`serialize_json_as_vector`, with their number as its length, is the document itself.
-/
theorem structural_roundtrip {lib : Cbor} {d : Document} (hlib : lib.Handles d.item)
    (hd : d.Structural) : ∃ bytes, lib.serializeJsonAsVector d = some bytes ∧
      ∀ length : BitVec 32, length.toInt = bytes.length → lib.deserializeJson bytes length = d := by
  obtain ⟨bytes, hbytes, hload⟩ := Cbor.deserializeJson_serializeJson hlib
  refine ⟨bytes, hbytes, ?_⟩
  intro length hlength
  rw [hload length hlength, hd.received_eq]

/-- A document of all the kinds that arrive. -/
theorem structural_roundtrip_sample : Cbor.sample.Handles sampleDocument.item ∧
    sampleDocument.Structural ∧
    ∃ bytes, Cbor.sample.serializeJsonAsVector sampleDocument = some bytes ∧
      Cbor.sample.deserializeJson bytes (BitVec.ofNat 32 bytes.length) = sampleDocument := by
  have hd : sampleDocument.Structural := by
    unfold sampleDocument
    refine .object (by decide +kernel) ?_
    intro member hmember
    rcases List.mem_cons.mp hmember with rfl | hmember
    · refine .array fun item hitem => ?_
      simp only [List.mem_cons, List.not_mem_nil, or_false] at hitem
      rcases hitem with rfl | rfl | rfl
      · exact .null
      · exact .bool true
      · exact .uint 300
    · rw [List.mem_singleton.mp hmember]
      refine .object (by decide +kernel) fun inner hinner => ?_
      rw [List.mem_singleton.mp hinner]
      exact .double _
  obtain ⟨bytes, hbytes, hload⟩ := structural_roundtrip Cbor.sample_handles hd
  refine ⟨Cbor.sample_handles, hd, bytes, hbytes, hload _ ?_⟩
  obtain rfl : sampleDocument.item.bytes = bytes := Option.some.inj hbytes
  decide +kernel

/-! ## Leaves -/

/-- The part of a document at a position: the indices of elements and members on the way to it. -/
def Document.at? : List Nat → Document → Option Document
  | [], d => some d
  | i :: path, .array items => items[i]?.bind (Document.at? path)
  | i :: path, .object members => members[i]?.bind fun member => Document.at? path member.2
  | _ :: _, _ => none

/-- The leaves that are strings or negative numbers. -/
inductive Document.Exposed : Document → Prop
  | string (text : Bytes) : Exposed (.string text)
  | negative (value : Negative) : Exposed (.negative value)

/-- All strings and negative numbers of one document are in another, at the same positions. -/
def LeavesSurvive (d d' : Document) : Prop :=
  ∀ path leaf, d.at? path = some leaf → leaf.Exposed → d'.at? path = some leaf

/-- The text that every string arrives as. -/
def chunkedString : Bytes := textBytes "Unimplemented feature (Chunked string)."

theorem Document.at?_received (path : List Nat) (d : Document) :
    d.received.at? path = (d.at? path).map Document.received := by
  induction path generalizing d with
  | nil => rfl
  | cons i path ih =>
    cases d with
    | array items =>
      simp only [received, receivedItems_eq, at?, List.getElem?_map]
      rcases items[i]? with _ | item
      · rfl
      · exact ih item
    | object members =>
      simp only [received, receivedMembers_eq, at?, List.getElem?_map]
      rcases members[i]? with _ | member
      · rfl
      · exact ih member.2
    | null | bool | uint | negative | double | string => rfl

/-- A leaf that arrives as it is. -/
theorem Document.Exposed.received_eq_iff {leaf : Document} (h : leaf.Exposed) :
    leaf.received = leaf ↔ leaf = .string chunkedString := by
  cases h with
  | string text =>
    unfold received
    constructor
    · intro heq
      exact heq.symm
    · intro heq
      exact heq.symm
  | negative value =>
    unfold received
    constructor
    · intro heq
      cases heq
    · intro heq
      cases heq

theorem leavesSurvive_received_iff (d : Document) : LeavesSurvive d d.received ↔
    (∀ path value, d.at? path ≠ some (.negative value)) ∧
      ∀ path text, d.at? path = some (.string text) → text = chunkedString := by
  have hkept : ∀ {path leaf}, d.at? path = some leaf → leaf.Exposed →
      (d.received.at? path = some leaf ↔ leaf = .string chunkedString) := by
    intro path leaf hleaf hexposed
    rw [Document.at?_received, hleaf, Option.map_some, Option.some.injEq, hexposed.received_eq_iff]
  constructor
  · intro hall
    constructor
    · intro path value hvalue
      have hleaf := hall path _ hvalue (.negative value)
      cases (hkept hvalue (.negative value)).mp hleaf
    · intro path text htext
      have hleaf := hall path _ htext (.string text)
      cases (hkept htext (.string text)).mp hleaf
      rfl
  · rintro ⟨hnegative, hstring⟩ path leaf hleaf hexposed
    rw [hkept hleaf hexposed]
    cases hexposed with
    | string text => rw [hstring path text hleaf]
    | negative value => exact absurd hleaf (hnegative path value)

/--
**All strings and negative numbers of a document arrive** exactly if there are no negative numbers
and all strings are the text that is put in the place of strings.
-/
theorem leaves_survive_iff {lib : Cbor} {d : Document} (hlib : lib.Handles d.item) :
    ∃ bytes, lib.serializeJsonAsVector d = some bytes ∧
      ∀ length : BitVec 32, length.toInt = bytes.length →
        (LeavesSurvive d (lib.deserializeJson bytes length) ↔
          (∀ path value, d.at? path ≠ some (.negative value)) ∧
            ∀ path text, d.at? path = some (.string text) → text = chunkedString) := by
  obtain ⟨bytes, hbytes, hload⟩ := Cbor.deserializeJson_serializeJson hlib
  refine ⟨bytes, hbytes, ?_⟩
  intro length hlength
  rw [hload length hlength]
  exact leavesSurvive_received_iff d

/-- `["Unimplemented feature (Chunked string).", 300]`. -/
def chunkedDocument : Document := .array [.string chunkedString, .uint 300]

/-- `[-5]`. -/
def negativeDocument : Document := .array [.negative ⟨-5, by decide⟩]

theorem leaves_survive_iff_chunked : Cbor.sample.Handles chunkedDocument.item ∧
    ∃ bytes, Cbor.sample.serializeJsonAsVector chunkedDocument = some bytes ∧
      (LeavesSurvive chunkedDocument
          (Cbor.sample.deserializeJson bytes (BitVec.ofNat 32 bytes.length)) ↔
        (∀ path value, chunkedDocument.at? path ≠ some (.negative value)) ∧
          ∀ path text, chunkedDocument.at? path = some (.string text) → text = chunkedString) := by
  have hlib : Cbor.sample.Handles chunkedDocument.item := ⟨rfl, rfl⟩
  obtain ⟨bytes, hbytes, hload⟩ := leaves_survive_iff hlib
  refine ⟨hlib, bytes, hbytes, hload _ ?_⟩
  obtain rfl : chunkedDocument.item.bytes = bytes := Option.some.inj hbytes
  decide +kernel

/-- The number -5 arrives as 4. -/
theorem leaves_survive_negative : ¬∀ (lib : Cbor) (d : Document), lib.Handles d.item →
    ∃ bytes, lib.serializeJsonAsVector d = some bytes ∧
      ∀ length : BitVec 32, length.toInt = bytes.length →
        LeavesSurvive d (lib.deserializeJson bytes length) := by
  intro hall
  have hlib : Cbor.sample.Handles negativeDocument.item := ⟨rfl, rfl⟩
  obtain ⟨bytes, hbytes, hsurvive⟩ := hall .sample negativeDocument hlib
  obtain ⟨bytes', hbytes', hload⟩ := Cbor.deserializeJson_serializeJson hlib
  obtain rfl : negativeDocument.item.bytes = bytes := Option.some.inj hbytes
  obtain rfl : negativeDocument.item.bytes = bytes' := Option.some.inj hbytes'
  have hlength : (BitVec.ofNat 32 negativeDocument.item.bytes.length).toInt =
      negativeDocument.item.bytes.length := by
    decide +kernel
  have hleaf := hsurvive _ hlength [0] _ rfl (.negative _)
  rw [hload _ hlength] at hleaf
  cases hleaf

/-! ## The documents of requirements -/

mutual

/-- The document with the texts in UTF-8. -/
def Json.document : Json → Document
  | .null => .null
  | .bool value => .bool value
  | .uint value => .uint value
  | .double bits => .double bits
  | .string text => .string (textBytes text)
  | .array items => .array (Json.documentsOf items)
  | .object members => .object (Json.membersOf members)

def Json.documentsOf : List Json → List Document
  | [] => []
  | item :: rest => item.document :: Json.documentsOf rest

def Json.membersOf : List (String × Json) → List (Bytes × Document)
  | [] => []
  | (key, value) :: rest => (textBytes key, value.document) :: Json.membersOf rest

end

mutual

def CborItem.item : CborItem → Item
  | .uint value => .uint value
  | .negint value => .negint value
  | .bytestring => .bytestring
  | .string definite text => .string definite (textBytes text)
  | .array items => .array (CborItem.itemsOf items)
  | .map pairs => .map (CborItem.pairsOf pairs)
  | .tag => .tag
  | .bool value => .bool value
  | .null => .null
  | .control => .control
  | .float bits => .float bits

def CborItem.itemsOf : List CborItem → List Item
  | [] => []
  | item :: rest => item.item :: CborItem.itemsOf rest

def CborItem.pairsOf : List (CborItem × CborItem) → List (Item × Item)
  | [] => []
  | (key, value) :: rest => (key.item, value.item) :: CborItem.pairsOf rest

end

theorem textBytes_eq (text : String) : textBytes text =
    text.toList.flatMap String.utf8EncodeChar := by
  unfold textBytes
  rw [String.toUTF8_eq_toByteArray, ← String.utf8Encode_toList, List.utf8Encode,
    List.data_toByteArray]

/-- Only NUL is encoded with a zero. -/
theorem utf8EncodeChar_ne_zero {c : Char} (h : c ≠ '\x00') {b : UInt8}
    (hb : b ∈ String.utf8EncodeChar c) : b ≠ 0 := by
  have hval : c.val.toNat ≠ 0 := by
    intro h0
    exact h (Char.ext (UInt32.toNat_inj.mp h0))
  rintro rfl
  unfold String.utf8EncodeChar at hb
  dsimp only at hb
  have hof : ∀ n : Nat, (0 : UInt8) = UInt8.ofNat n → n % 256 = 0 := by
    intro n hn
    have := congrArg UInt8.toNat hn
    rw [UInt8.toNat_ofNat'] at this
    exact this.symm
  split_ifs at hb with h1 h2 h3
  · have := hof _ (List.mem_singleton.mp hb)
    omega
  all_goals
    simp only [List.mem_cons, List.not_mem_nil, or_false] at hb
  · rcases hb with hb | hb
    all_goals
      have := hof _ hb
      omega
  · rcases hb with hb | hb | hb
    all_goals
      have := hof _ hb
      omega
  · rcases hb with hb | hb | hb | hb
    all_goals
      have := hof _ hb
      omega

/-- A text is cut at the same place as its bytes. -/
theorem textBytes_cString (text : String) : textBytes (cString text) =
    cStringBytes (textBytes text) := by
  unfold cString cStringBytes
  rw [textBytes_eq, textBytes_eq, String.toList_ofList]
  induction text.toList with
  | nil => rfl
  | cons c rest ih =>
    by_cases hc : c = '\x00'
    · subst hc
      rfl
    · rw [List.takeWhile_cons_of_pos (by simpa using hc), List.flatMap_cons, List.flatMap_cons,
        List.takeWhile_append_of_pos, ih]
      intro b hb
      simpa using utf8EncodeChar_ne_zero hc hb

mutual

/-- **The walk of `Node/Requirements` is the one over all items.** -/
theorem document_loadCborToDecode : ∀ item : CborItem,
    (loadCborToDecode item).document = item.item.loadCborToDecode
  | .array items => by
    rw [loadCborToDecode, Json.document, documentsOf_loadItems items]
    rfl
  | .map pairs => by
    rw [loadCborToDecode, Json.document, membersOf_loadPairs pairs]
    rfl
  | .uint _ | .negint _ | .bytestring | .string _ _ | .tag | .bool _ | .null | .control
  | .float _ => rfl

theorem documentsOf_loadItems : ∀ items : List CborItem,
    Json.documentsOf (loadItems items) = Item.loadItems (CborItem.itemsOf items)
  | [] => rfl
  | item :: rest => by
    rw [loadItems, Json.documentsOf, document_loadCborToDecode item, documentsOf_loadItems rest]
    rfl

theorem membersOf_loadPairs : ∀ pairs : List (CborItem × CborItem),
    Json.membersOf (loadPairs pairs) = Item.loadPairs (CborItem.pairsOf pairs)
  | [] => rfl
  | (key, value) :: rest => by
    have hvalue := document_loadCborToDecode value
    have hrest := membersOf_loadPairs rest
    rw [CborItem.pairsOf, Item.loadPairs, ← hvalue, ← hrest]
    cases key with
    | string definite text =>
      cases definite with
      | true =>
        rw [loadPairs, Json.membersOf, textBytes_cString]
        rfl
      | false => rfl
    | uint | negint | bytestring | array | map | tag | bool | null | control | float => rfl

end

mutual

/-- **The items that `Node/Requirements` builds are those that describe its documents.** -/
theorem item_cborStreamDecode : ∀ json : Json, (cborStreamDecode json).item = json.document.item
  | .array items => by
    rw [cborStreamDecode, CborItem.item, itemsOf_streamItems items]
    rfl
  | .object members => by
    rw [cborStreamDecode, CborItem.item, pairsOf_streamMembers members]
    rfl
  | .null | .bool _ | .uint _ | .double _ | .string _ => rfl

theorem itemsOf_streamItems : ∀ items : List Json,
    CborItem.itemsOf (streamItems items) = Document.itemsOf (Json.documentsOf items)
  | [] => rfl
  | item :: rest => by
    rw [streamItems, CborItem.itemsOf, item_cborStreamDecode item, itemsOf_streamItems rest]
    rfl

theorem pairsOf_streamMembers : ∀ members : List (String × Json),
    CborItem.pairsOf (streamMembers members) = Document.pairsOf (Json.membersOf members)
  | [] => rfl
  | (key, value) :: rest => by
    rw [streamMembers, CborItem.pairsOf, item_cborStreamDecode value, pairsOf_streamMembers rest]
    rfl

end

end Rankd

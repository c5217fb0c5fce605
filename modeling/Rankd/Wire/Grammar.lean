import Rankd.Wire.Decode

/-!
# The parser accepts exactly the wire grammar

`parse_message_from_bytes` of simulation bytes (`from_network = false`).

The grammar is stated on the bytes alone: `wireLength?` gives the length of the message a byte
string starts with. The parser returns a message exactly when it is defined, and encoding that
message again gives this prefix with the reserved bits cleared (`clearReserved`).
-/

namespace Rankd

open Infra

/-! ## The grammar -/

/-- The four type bits of the first byte. -/
def typeCode (b : Bytes) : UInt8 := (b.headD 0 >>> 2) &&& 0b1111

/-- The length of a message's content, by kind. -/
def contentLength? (t : MessageType) (c : Bytes) : Option Nat :=
  match t with
  | .ear | .mar => requestLength? c
  | .bid => if 4 ≤ c.length then some 4 else none
  | .acc | .ref => some 0
  | .rep => repLength? c
  | .notype | .unnamed _ => none

/-- The length of the message that a byte string starts with. -/
def wireLength? (b : Bytes) : Option Nat :=
  (contentLength? (.ofCode (typeCode b)) (b.drop headerLen)).map (headerLen + ·)

/-- Masks the first byte of a content. -/
def maskFirst (mask : UInt8) : Bytes → Bytes
  | [] => []
  | x :: rest => (x &&& mask) :: rest

/-- The bits of a content's first byte that are not reserved. -/
def usedBits : MessageType → UInt8
  | .ear | .mar => 0xFC
  | .rep => 0xE0
  | _ => 0xFF

/-- Clears the two reserved header bits and those of the content's first byte. -/
def clearReserved (b : Bytes) : Bytes :=
  match b with
  | [] => []
  | b0 :: rest =>
    (b0 &&& 0xFC) ::
      (rest.take 16 ++ maskFirst (usedBits (.ofCode (typeCode b))) (rest.drop 16))

/-! ## Headers -/

/-- The kinds that have a message class. -/
def MessageType.hasClass : MessageType → Bool
  | .ear | .mar | .bid | .acc | .ref | .rep => true
  | .notype | .unnamed _ => false

theorem ofCode_hasClass : ∀ c : UInt8, (MessageType.ofCode c).hasClass = decide (c ≤ 5) :=
  forall_byte (by decide +kernel)

/-- The type and version bits survive decoding and encoding; the two low bits are cleared. -/
theorem headerByte_canonical : ∀ b : UInt8,
    ((((b >>> 6) &&& 0b11) &&& 0b11) <<< 6) |||
      (((MessageType.ofCode ((b >>> 2) &&& 0b1111)).code &&& 0b1111) <<< 2) = b &&& 0xFC :=
  forall_byte (by decide +kernel)

theorem requestByte_canonical : ∀ b : UInt8,
    (((b >>> 5) &&& 0x07) <<< 5) ||| ((((b >>> 2) &&& 0x07) &&& 0x7) <<< 2) |||
    ((0 : UInt8) &&& 0x3)
      = b &&& 0xFC :=
  forall_byte (by decide +kernel)

theorem repByte_canonical : ∀ b : UInt8,
    ((((b >>> 5) &&& 0x07) &&& 0x7) <<< 5) ||| ((0 : UInt8) &&& 0x3) = b &&& 0xE0 :=
  forall_byte (by decide +kernel)

theorem marshalHeader_unmarshalHeader {ulid : Ulid} {b0 : UInt8} {u : Bytes}
    (hu : u.length = 16) :
    marshalHeader ulid (unmarshalHeader ulid (b0 :: u)) = (b0 &&& 0xFC) :: u := by
  have hmarshal : marshallIntoVector ulid (unmarshallFromVector ulid u) = u :=
    ulid.marshalBinary_unmarshalBinary hu
  simp only [marshalHeader, unmarshalHeader, List.headD_cons, headerByte_canonical,
    List.drop_succ_cons, List.drop_zero, List.take_of_length_le (Nat.le_of_eq hu), hmarshal]

/-! ## Contents -/

/-- Encoding a decoded EAR or MAR gives its declared bytes back, reserved bits cleared. -/
theorem Request.rawPayload_decode {ulid : Ulid} {h : Header} {uninit : ListenerArray} {data : Bytes}
    {len : Nat} {r : Request} (ha : addrLen? ((data.headD 0 >>> 2) &&& 0x07) = some len)
    (hle : 1 + len + 2 + be16At data (1 + len) ≤ data.length)
    (hs : RequestSlices uninit data len r) :
    r.rawPayload ulid h = marshalHeader ulid h ++
      maskFirst 0xFC (data.take (1 + len + 2 + be16At data (1 + len))) := by
  cases data with
  | nil => simp only [List.length_nil] at hle; omega
  | cons first rest =>
    have hcode : addrLen? r.listenerLength = some len := by rw [hs.code]; exact ha
    have hrest : len + 2 ≤ rest.length := by simp only [List.length_cons] at hle; omega
    have haddr : r.listener.toList.take len = rest.take len := by
      have hlen : (rest.take len).length = len := by rw [List.length_take]; omega
      rw [hs.listener, List.drop_succ_cons, List.drop_zero,
        List.take_append_of_le_length (by omega),
        List.take_take, Nat.min_self]
    have hlenBytes : toBytesBE 2 r.payloadLength.toNat = (rest.drop len).take 2 := by
      have htwo : ((rest.drop len).take 2).length = 2 := by simp; omega
      rw [hs.payloadLength, be16At, Nat.add_comm 1 len, List.drop_succ_cons]
      have hround := toBytesBE_ofBytesBE ((rest.drop len).take 2)
      rwa [htwo] at hround
    have hpay : r.payload = (rest.drop (len + 2)).take (be16At (first :: rest) (1 + len)) := by
      rw [hs.payload, show 1 + len + 2 = (len + 2) + 1 by omega, List.drop_succ_cons]
    have hbody : rest.take (len + 2 + be16At (first :: rest) (1 + len)) =
        rest.take len ++ (rest.drop len).take 2 ++
          (rest.drop (len + 2)).take (be16At (first :: rest) (1 + len)) := by
      rw [List.take_add, List.take_add]
    simp only [Request.rawPayload, hcode, payloadLength_bytes]
    rw [haddr, hlenBytes, hpay, hs.priority, hs.code, hs.reserved, List.headD_cons,
      requestByte_canonical,
      show 1 + len + 2 + be16At (first :: rest) (1 + len)
        = (len + 2 + be16At (first :: rest) (1 + len)) + 1 by omega,
      List.take_succ_cons, maskFirst, hbody]
    simp only [List.append_assoc, List.cons_append, List.nil_append]

/-- The slices determine the decoded fields. -/
theorem RequestSlices.unique {uninit : ListenerArray} {data : Bytes} {len : Nat} {r r' : Request}
    (h : RequestSlices uninit data len r) (h' : RequestSlices uninit data len r') : r = r' := by
  obtain ⟨p, c, v, l, n, d⟩ := r
  obtain ⟨p', c', v', l', n', d'⟩ := r'
  have hl : l = l' := Vector.toList_inj.mp (h.listener.trans h'.listener.symm)
  have hn : n = n' := UInt16.toNat.inj (h.payloadLength.trans h'.payloadLength.symm)
  have hp : p = p' := h.priority.trans h'.priority.symm
  have hc : c = c' := h.code.trans h'.code.symm
  have hv : v = v' := h.reserved.trans h'.reserved.symm
  have hd : d = d' := h.payload.trans h'.payload.symm
  subst hl hn hp hc hv hd
  rfl

/-- A slice that ends inside a prefix does not see what follows the prefix. -/
theorem slice_take_append {c pad : Bytes} {n i k : Nat} (hk : i + k ≤ n) (hn : n ≤ c.length) :
    ((c.take n ++ pad).drop i).take k = (c.drop i).take k := by
  have hlen : (c.take n).length = n := by rw [List.length_take]; omega
  rw [List.drop_append_of_le_length (by omega), List.take_append_of_le_length (by
    rw [List.length_drop]; omega), List.drop_take, List.take_take, Nat.min_eq_left (by omega)]

theorem headD_take_append (c pad : Bytes) {n : Nat} (h0 : 0 < n) (hn : n ≤ c.length) :
    (c.take n ++ pad).headD 0 = c.headD 0 := by
  cases c with
  | nil => simp only [List.length_nil] at hn; omega
  | cons x rest =>
    cases n with
    | zero => omega
    | succ k => rfl

/-- Bytes after the declared end do not influence the decoded EAR or MAR. -/
theorem Request.decode_pad {uninit : ListenerArray} {c pad : Bytes} {n : Nat}
    (h : requestLength? c = some n) :
    Request.decode uninit (c.take n ++ pad) = Request.decode uninit c := by
  obtain ⟨len, r, ha, hn, hle, hdec, hs⟩ := Request.decode_ok uninit h
  have hhead := headD_take_append c pad (by omega) hle
  have hbe : be16At (c.take n ++ pad) (1 + len) = be16At c (1 + len) := by
    rw [be16At, be16At, slice_take_append (by omega) hle]
  have hlen : (c.take n ++ pad).length = n + pad.length := by
    rw [List.length_append, List.length_take]; omega
  have hpad : requestLength? (c.take n ++ pad) = some n := by
    generalize hd : c.take n ++ pad = data at hhead hbe hlen
    cases data with
    | nil => simp only [List.length_nil] at hlen; omega
    | cons x rest =>
      rw [List.headD_cons] at hhead
      rw [← hhead] at ha
      simp only [requestLength?, ha, hbe]
      rw [if_pos (by omega), hn]
  obtain ⟨len', r', ha', hn', _, hdec', hs'⟩ := Request.decode_ok uninit hpad
  have hlen' : len' = len := by
    rw [hhead] at ha'
    exact Option.some.inj (ha'.symm.trans ha)
  subst hlen'
  have hs'' : RequestSlices uninit c len' r' := {
    priority := by rw [hs'.priority, hhead]
    code := by rw [hs'.code, hhead]
    reserved := hs'.reserved
    listener := by rw [hs'.listener, slice_take_append (by omega) hle]
    payloadLength := by rw [hs'.payloadLength, hbe]
    payload := by rw [hs'.payload, hbe, slice_take_append (by omega) hle] }
  rw [hdec, hdec', hs''.unique hs]

/-- Encoding a decoded REP gives its declared bytes back, reserved bits cleared. -/
theorem repRawPayload_decode {ulid : Ulid} {h : Header} {data : Bytes} {len : Nat}
    {listener : ListenerArray} (ha : addrLen? ((data.headD 0 >>> 5) &&& 0x07) = some len)
    (hle : 1 + len ≤ data.length)
    (hl : listener.toList = (data.drop 1).take len ++ List.replicate (16 - len) 0) :
    repRawPayload ulid h ((data.headD 0 >>> 5) &&& 0x07) 0 listener =
      marshalHeader ulid h ++ maskFirst 0xE0 (data.take (1 + len)) := by
  cases data with
  | nil => simp only [List.length_nil] at hle; omega
  | cons first rest =>
    have hlen : (rest.take len).length = len := by
      rw [List.length_take]; simp only [List.length_cons] at hle; omega
    have haddr : listener.toList.take len = rest.take len := by
      rw [hl, List.drop_succ_cons, List.drop_zero, List.take_append_of_le_length (by omega),
        List.take_take, Nat.min_self]
    rw [List.headD_cons] at ha
    simp only [repRawPayload, List.headD_cons, ha, haddr, repByte_canonical, Nat.add_comm 1 len,
      List.take_succ_cons, maskFirst, List.append_assoc, List.cons_append, List.nil_append]

theorem decodeRep_pad {version : UInt8} {uuid : UUIDv4} {c pad : Bytes} {n : Nat}
    (h : repLength? c = some n) :
    decodeRep version uuid (c.take n ++ pad) = decodeRep version uuid c := by
  obtain ⟨len, listener, ha, hn, hle, hdec, hl⟩ := decodeRep_ok version uuid h
  have hhead := headD_take_append c pad (by omega) hle
  have hlen : (c.take n ++ pad).length = n + pad.length := by
    rw [List.length_append, List.length_take]; omega
  have hpad : repLength? (c.take n ++ pad) = some n := by
    generalize hd : c.take n ++ pad = data at hhead hlen
    cases data with
    | nil => simp only [List.length_nil] at hlen; omega
    | cons x rest =>
      rw [List.headD_cons] at hhead
      rw [← hhead] at ha
      simp only [repLength?, ha]
      rw [if_pos (by omega), hn]
  obtain ⟨len', listener', ha', hn', _, hdec', hl'⟩ :=
    decodeRep_ok version uuid hpad
  have hlen' : len' = len := by omega
  subst hlen'
  have hlist : listener' = listener := by
    apply Vector.toList_inj.mp
    rw [hl', hl, slice_take_append (by omega) hle]
  rw [hdec, hdec', hhead, hlist]

/-! ## The parser -/

section Parser

variable {ulid : Ulid} {uninit : ListenerArray}

/-- Inside the grammar the parser returns a message, determined by the declared bytes. -/
theorem parseContent_ok (ulid : Ulid) (uninit : ListenerArray) {h : Header} {c : Bytes} {n : Nat}
    (hn : contentLength? h.type c = some n) :
    ∃ m, parseContent uninit h c = .ok (some m) ∧
      m.rawPayload ulid = marshalHeader ulid h ++ maskFirst (usedBits h.type) (c.take n) ∧
      ∀ pad, parseContent uninit h (c.take n ++ pad) = .ok (some m) := by
  obtain ⟨version, type, uuid⟩ := h
  cases type with
  | ear =>
    obtain ⟨len, r, ha, hlen, hle, hdec, hs⟩ := Request.decode_ok uninit hn
    subst hlen
    refine ⟨.ear version uuid r, ?_, Request.rawPayload_decode ha hle hs, ?_⟩
    · simp only [parseContent, hdec, ok_bind]; rfl
    · intro pad
      simp only [parseContent, Request.decode_pad hn, hdec, ok_bind]; rfl
  | mar =>
    obtain ⟨len, r, ha, hlen, hle, hdec, hs⟩ := Request.decode_ok uninit hn
    subst hlen
    refine ⟨.mar version uuid r, ?_, Request.rawPayload_decode ha hle hs, ?_⟩
    · simp only [parseContent, hdec, ok_bind]; rfl
    · intro pad
      simp only [parseContent, Request.decode_pad hn, hdec, ok_bind]; rfl
  | bid =>
    simp only [contentLength?, Option.ite_none_right_eq_some, Option.some.injEq] at hn
    obtain ⟨hle, rfl⟩ := hn
    have hlen : (c.take 4).length = 4 := by rw [List.length_take]; omega
    refine ⟨.bid version uuid (BitVec.ofNat 32 (ofBytesLE (c.take 4))), ?_, ?_, ?_⟩
    · simp only [parseContent, decodeBid_ok hle, ok_bind]; rfl
    · have hval : (BitVec.ofNat 32 (ofBytesLE (c.take 4))).toNat = ofBytesLE (c.take 4) := by
        have hlt := ofBytesLE_lt (c.take 4)
        rw [hlen] at hlt
        rw [BitVec.toNat_ofNat]
        exact Nat.mod_eq_of_lt (by norm_num at *; omega)
      have hround := toBytesLE_ofBytesLE (c.take 4)
      rw [hlen] at hround
      show marshalHeader ulid _ ++ toBytesLE 4 _ = _
      rw [hval, hround]
      cases hc : c.take 4 with
      | nil => rw [hc] at hlen; simp at hlen
      | cons x rest =>
        show _ = _ ++ (x &&& 0xFF) :: rest
        rw [show x &&& 0xFF =
          x from forall_byte (p := fun x => x &&& 0xFF = x) (by decide +kernel) x]
        rfl
    · intro pad
      have hpad : (c.take 4 ++ pad).take 4 = c.take 4 := by
        rw [List.take_append_of_le_length (by omega), List.take_take, Nat.min_self]
      simp only [parseContent,
        decodeBid_ok (show 4 ≤ (c.take 4 ++ pad).length by rw [List.length_append]; omega),
        hpad, ok_bind]
      rfl
  | acc =>
    simp only [contentLength?, Option.some.injEq] at hn
    subst hn
    exact ⟨.acc version uuid, rfl, by simp [Message.rawPayload, Message.header, maskFirst,
      Message.type, Message.uuid, Message.version], fun _ => rfl⟩
  | ref =>
    simp only [contentLength?, Option.some.injEq] at hn
    subst hn
    exact ⟨.ref version uuid, rfl, by simp [Message.rawPayload, Message.header, maskFirst,
      Message.type, Message.uuid, Message.version], fun _ => rfl⟩
  | rep =>
    obtain ⟨len, listener, ha, hlen, hle, hdec, hl⟩ :=
      decodeRep_ok version uuid hn
    subst hlen
    refine ⟨.rep version uuid ((c.headD 0 >>> 5) &&& 0x07) 0 listener, ?_,
      repRawPayload_decode ha hle hl, ?_⟩
    · simp only [parseContent, hdec, ok_bind]; rfl
    · intro pad
      simp only [parseContent, decodeRep_pad hn, hdec, ok_bind]; rfl
  | notype => simp [contentLength?] at hn
  | unnamed d => simp [contentLength?] at hn

theorem parseContent_null {h : Header} {c : Bytes} (hc : h.type.hasClass = false) :
    parseContent uninit h c = .ok none := by
  obtain ⟨version, type, uuid⟩ := h
  cases type with
  | notype | unnamed => rfl
  | ear | mar | bid | acc | ref | rep => cases hc

/-- Outside the grammar a known kind throws. -/
theorem parseContent_error {h : Header} {c : Bytes} (hc : h.type.hasClass = true)
    (hn : contentLength? h.type c = none) : ∃ e, parseContent uninit h c = .error e := by
  obtain ⟨version, type, uuid⟩ := h
  cases type with
  | ear =>
    obtain ⟨e, he⟩ := Request.decode_error uninit hn
    exact ⟨e, by simp only [parseContent, he, error_bind]⟩
  | mar =>
    obtain ⟨e, he⟩ := Request.decode_error uninit hn
    exact ⟨e, by simp only [parseContent, he, error_bind]⟩
  | bid =>
    simp only [contentLength?, ite_eq_right_iff, reduceCtorEq, imp_false, not_le] at hn
    exact ⟨.outOfRange, by simp only [parseContent, decodeBid_error hn, error_bind]⟩
  | rep =>
    obtain ⟨e, he⟩ := decodeRep_error version uuid hn
    exact ⟨e, by simp only [parseContent, he, error_bind]⟩
  | acc | ref => simp [contentLength?] at hn
  | notype | unnamed => cases hc

/-- A byte string that holds a header, split after its first byte and after the header. -/
theorem exists_split {b : Bytes} (h : ¬ b.length < headerLen) :
    ∃ b0 u c, b = b0 :: (u ++ c) ∧ u.length = 16 := by
  cases b with
  | nil => simp [headerLen] at h
  | cons b0 rest =>
    refine ⟨b0, rest.take 16, rest.drop 16, by rw [List.take_append_drop], ?_⟩
    simp only [headerLen, List.length_cons] at h
    rw [List.length_take]
    omega

theorem drop_header {b0 : UInt8} {u c : Bytes} (hu : u.length = 16) :
    (b0 :: (u ++ c)).drop headerLen = c := by
  rw [headerLen, List.drop_succ_cons, List.drop_append_of_le_length (by omega),
    List.drop_of_length_le (by omega), List.nil_append]

theorem take_header (b0 : UInt8) {u : Bytes} (c : Bytes) (hu : u.length = 16) (n : Nat) :
    (b0 :: (u ++ c)).take (headerLen + n) = b0 :: (u ++ c.take n) := by
  rw [headerLen, show 17 + n = (u.length + n) + 1 by omega, List.take_succ_cons,
    List.take_length_add_append]

theorem parse_split (ulid : Ulid) (uninit : ListenerArray) (b0 : UInt8) {u : Bytes} (c : Bytes)
    (hu : u.length = 16) :
    parseMessageFromBytes ulid uninit (b0 :: (u ++ c)) false =
      parseContent uninit (unmarshalHeader ulid (b0 :: u)) c := by
  have hlen : ¬ (b0 :: (u ++ c)).length < headerLen := by
    simp only [List.length_cons, List.length_append, headerLen]; omega
  have htake := take_header b0 c hu 0
  rw [Nat.add_zero, List.take_zero, List.append_nil] at htake
  rw [parseMessageFromBytes, if_neg hlen]
  simp only [Bool.false_eq_true, if_false, htake, drop_header hu]

theorem wireLength?_split (ulid : Ulid) (b0 : UInt8) {u : Bytes} (c : Bytes) (hu : u.length = 16) :
    wireLength? (b0 :: (u ++ c)) =
      (contentLength? (unmarshalHeader ulid (b0 :: u)).type c).map (headerLen + ·) := by
  rw [wireLength?, drop_header hu]
  rfl

theorem clearReserved_split (ulid : Ulid) (b0 : UInt8) {u : Bytes} (c : Bytes)
    (hu : u.length = 16) :
    clearReserved (b0 :: (u ++ c)) =
      (b0 &&& 0xFC) :: (u ++ maskFirst (usedBits (unmarshalHeader ulid (b0 :: u)).type) c) := by
  have htake : (u ++ c).take 16 = u := by
    rw [List.take_append_of_le_length (by omega), List.take_of_length_le (by omega)]
  have hdrop : (u ++ c).drop 16 = c := by
    rw [List.drop_append_of_le_length (by omega), List.drop_of_length_le (by omega),
      List.nil_append]
  rw [clearReserved, htake, hdrop]
  rfl

/-- The parser's answer, from the bytes of the header and the content length. -/
theorem parse_cases (ulid : Ulid) (uninit : ListenerArray) (b : Bytes) :
    ((b.length < headerLen ∨ 5 < typeCode b) ∧
    parseMessageFromBytes ulid uninit b false = .ok none) ∨
    (¬ (b.length < headerLen ∨ 5 < typeCode b) ∧ wireLength? b = none ∧
      ∃ e, parseMessageFromBytes ulid uninit b false = .error e) ∨
    (¬ (b.length < headerLen ∨ 5 < typeCode b) ∧ ∃ n m, wireLength? b = some n ∧
      parseMessageFromBytes ulid uninit b false = .ok (some m) ∧
      m.rawPayload ulid = clearReserved (b.take n) ∧
      ∀ pad, parseMessageFromBytes ulid uninit (b.take n ++ pad) false = .ok (some m)) := by
  by_cases hshort : b.length < headerLen
  · exact Or.inl ⟨Or.inl hshort, by rw [parseMessageFromBytes, if_pos hshort]⟩
  · obtain ⟨b0, u, c, rfl, hu⟩ := exists_split hshort
    have hclass : (unmarshalHeader ulid (b0 :: u)).type.hasClass
        = decide (typeCode (b0 :: (u ++ c)) ≤ 5) := ofCode_hasClass _
    rw [parse_split ulid uninit b0 _ hu]
    by_cases htype : 5 < typeCode (b0 :: (u ++ c))
    · refine Or.inl ⟨Or.inr htype, parseContent_null ?_⟩
      rw [hclass, decide_eq_false_iff_not]
      exact UInt8.not_le.mpr htype
    · have hnot : ¬ ((b0 :: (u ++ c)).length < headerLen ∨ 5 < typeCode (b0 :: (u ++ c))) := by
        rintro (h | h)
        · exact hshort h
        · exact htype h
      refine Or.inr ?_
      rw [wireLength?_split ulid b0 c hu]
      cases hn : contentLength? (unmarshalHeader ulid (b0 :: u)).type c with
      | none =>
        refine Or.inl ⟨hnot, rfl, parseContent_error ?_ hn⟩
        rw [hclass, decide_eq_true_iff]
        exact UInt8.not_lt.mp htype
      | some n =>
        obtain ⟨m, hparse, hraw, hpad⟩ := parseContent_ok ulid uninit hn
        refine Or.inr ⟨hnot, headerLen + n, m, rfl, hparse, ?_, ?_⟩
        · rw [hraw, take_header b0 c hu, marshalHeader_unmarshalHeader hu,
            clearReserved_split ulid b0 _ hu, List.cons_append]
        · intro pad
          rw [take_header b0 c hu, List.cons_append, List.append_assoc,
            parse_split ulid uninit b0 _ hu]
          exact hpad pad

end Parser

/--
**The parser accepts exactly the grammar and re-encoding is canonical.**

`nullptr`, a message and an exception are told apart by the header's length, its type and
`wireLength?`. A returned message encodes to the declared prefix with the reserved bits cleared,
and is the same whatever follows that prefix.
-/
theorem parseMessageFromBytes_grammar (ulid : Ulid) (uninit : ListenerArray) (b : Bytes) :
    (parseMessageFromBytes ulid uninit b false = .ok none ↔
      b.length < headerLen ∨ 5 < typeCode b) ∧
    ((∃ m, parseMessageFromBytes ulid uninit b false = .ok (some m)) ↔
      ¬ (b.length < headerLen ∨ 5 < typeCode b) ∧ (wireLength? b).isSome) ∧
    ((∃ e, parseMessageFromBytes ulid uninit b false = .error e) ↔
      ¬ (b.length < headerLen ∨ 5 < typeCode b) ∧ wireLength? b = none) ∧
    ∀ m, parseMessageFromBytes ulid uninit b false = .ok (some m) →
      ∃ n, wireLength? b = some n ∧ m.rawPayload ulid = clearReserved (b.take n) ∧
        ∀ pad, parseMessageFromBytes ulid uninit (b.take n ++ pad) false = .ok (some m) := by
  rcases parse_cases ulid uninit b with ⟨hnull, hp⟩ | ⟨hnot, hn, e, hp⟩ | ⟨hnot, n, m, hn,
    hp, hraw, hpad⟩
  · simp [hp, hnull]
  · simp [hp, hn, hnot]
  · refine ⟨by simp [hp, hnot], by simp [hp, hn, hnot], by simp [hp, hn], ?_⟩
    intro m' hm'
    have hmm : m = m' := by
      rw [hp] at hm'
      exact Option.some.inj (Except.ok.inj hm')
    subst hmm
    exact ⟨n, hn, hraw, hpad⟩

/-- An ACC with its two reserved bits set and three bytes of padding. -/
theorem parseMessageFromBytes_grammar_acc :
    parseMessageFromBytes .bigEndian (Vector.replicate 16 0)
        (0x4F :: List.replicate 16 0 ++ [1, 2, 3]) false = .ok (some (.acc 1 0)) ∧
      ∃ n, wireLength? (0x4F :: List.replicate 16 0 ++ [1, 2, 3]) = some n ∧
        (Message.acc 1 0).rawPayload .bigEndian =
          clearReserved ((0x4F :: List.replicate 16 0 ++ [1, 2, 3] : Bytes).take n) ∧
        ∀ pad, parseMessageFromBytes .bigEndian (Vector.replicate 16 0)
          ((0x4F :: List.replicate 16 0 ++ [1, 2, 3] : Bytes).take n ++ pad) false
            = .ok (some (.acc 1 0)) := by
  have hparse : parseMessageFromBytes .bigEndian (Vector.replicate 16 0)
      (0x4F :: List.replicate 16 0 ++ [1, 2, 3]) false = .ok (some (.acc 1 0)) := by decide
  exact ⟨hparse,
    (parseMessageFromBytes_grammar .bigEndian (Vector.replicate 16 0) _).2.2.2 _ hparse⟩

end Rankd

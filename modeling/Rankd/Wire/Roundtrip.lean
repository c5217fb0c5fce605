import Rankd.Wire.Grammar

/-!
# The wire round trip

Decoding what `raw_payload` wrote gives the message back, up to the listener bytes past the address
and the reserved bits, which the format does not carry (`Message.contents`).
-/

namespace Rankd

open Infra

/-! ## What the format carries -/

/-- The fields of a message that the wire format carries. -/
inductive Contents
  | ear (version : UInt8) (uuid : UUIDv4) (priority listenerLength : UInt8) (address : Bytes)
      (payloadLength : UInt16) (payload : Bytes)
  | mar (version : UInt8) (uuid : UUIDv4) (priority listenerLength : UInt8) (address : Bytes)
      (payloadLength : UInt16) (payload : Bytes)
  | bid (version : UInt8) (uuid : UUIDv4) (value : BitVec 32)
  | acc (version : UInt8) (uuid : UUIDv4)
  | ref (version : UInt8) (uuid : UUIDv4)
  | rep (version : UInt8) (uuid : UUIDv4) (listenerLength : UInt8) (address : Bytes)
  deriving DecidableEq

/-- The significant bytes of a listener array. -/
def address (listenerLength : UInt8) (listener : ListenerArray) : Bytes :=
  listener.toList.take ((addrLen? listenerLength).getD 0)

def Message.contents : Message → Contents
  | .ear v u r => .ear v u r.priority r.listenerLength (address r.listenerLength r.listener)
      r.payloadLength r.payload
  | .mar v u r => .mar v u r.priority r.listenerLength (address r.listenerLength r.listener)
      r.payloadLength r.payload
  | .bid v u value => .bid v u value
  | .acc v u => .acc v u
  | .ref v u => .ref v u
  | .rep v u code _ listener => .rep v u code (address code listener)

/-- Field widths of EAR and MAR: three bits of priority, a known code, the payload's own length. -/
def Request.WellFormed (r : Request) : Prop :=
  r.priority < 8 ∧ (addrLen? r.listenerLength).isSome ∧ r.payloadLength.toNat = r.payload.length

def Message.WellFormed (m : Message) : Prop :=
  m.version < 4 ∧
    match m with
    | .ear _ _ r | .mar _ _ r => r.WellFormed
    | .rep _ _ code _ _ => (addrLen? code).isSome
    | .bid .. | .acc .. | .ref .. => True

instance (r : Request) : Decidable r.WellFormed := by
  unfold Request.WellFormed; infer_instance

instance (m : Message) : Decidable m.WellFormed := by
  unfold Message.WellFormed; cases m <;> infer_instance

/-! ## Packed bytes -/

theorem code_cases {code : UInt8} (h : (addrLen? code).isSome) :
    code = 0 ∨ code = 2 ∨ code = 3 ∨ code = 4 ∨ code = 5 := by
  unfold addrLen? at h
  split_ifs at h <;> simp_all

theorem headerByte_fields (t : MessageType) (ht : t.code ≤ 5) {v : UInt8} (hv : v < 4) :
    ((((v &&& 0b11) <<< 6) ||| ((t.code &&& 0b1111) <<< 2)) >>> 6) &&& 0b11 = v ∧
      ((((v &&& 0b11) <<< 6) ||| ((t.code &&& 0b1111) <<< 2)) >>> 2) &&& 0b1111 = t.code := by
  have hall : ∀ (n : Fin 4) (c : Fin 6),
      ((((UInt8.ofNat n.val &&& 0b11) <<< 6) ||| ((UInt8.ofNat c.val &&& 0b1111) <<< 2)) >>> 6)
        &&& 0b11 = UInt8.ofNat n.val ∧
      ((((UInt8.ofNat n.val &&& 0b11) <<< 6) ||| ((UInt8.ofNat c.val &&& 0b1111) <<< 2)) >>> 2)
        &&& 0b1111 = UInt8.ofNat c.val := by decide +kernel
  have hc : t.code.toNat < 6 := Nat.lt_succ_of_le (UInt8.le_iff_toNat_le.mp ht)
  have h := hall ⟨v.toNat, UInt8.lt_iff_toNat_lt.mp hv⟩ ⟨t.code.toNat, hc⟩
  simpa using h

/-- The first byte of an EAR or MAR keeps the lower three bits of the priority. -/
theorem requestByte_fields (p : UInt8) {code : UInt8} (hc : (addrLen? code).isSome) (res : UInt8) :
    (((p <<< 5) ||| ((code &&& 0x7) <<< 2) ||| (res &&& 0x3)) >>> 5) &&& 0x07 = p &&& 0x07 ∧
      (((p <<< 5) ||| ((code &&& 0x7) <<< 2) ||| (res &&& 0x3)) >>> 2) &&& 0x07 = code := by
  have hall : ∀ (n : Fin 8) (c : Fin 6) (x : Fin 4),
      (((UInt8.ofNat n.val <<< 5) ||| ((UInt8.ofNat c.val &&& 0x7) <<< 2) ||| UInt8.ofNat x.val)
        >>> 5) &&& 0x07 = UInt8.ofNat n.val ∧
      (((UInt8.ofNat n.val <<< 5) ||| ((UInt8.ofNat c.val &&& 0x7) <<< 2) ||| UInt8.ofNat x.val)
        >>> 2) &&& 0x07 = UInt8.ofNat c.val := by decide +kernel
  have hcode : code.toNat < 6 := by
    rcases code_cases hc with rfl | rfl | rfl | rfl | rfl <;> decide
  have hres : (res &&& 0x3).toNat < 4 :=
    forall_byte (p := fun r => (r &&& 0x3).toNat < 4) (by decide +kernel) res
  have hlow : p <<< 5 = (p &&& 0x07) <<< 5 ∧ (p &&& 0x07).toNat < 8 :=
    forall_byte (p := fun p => p <<< 5 = (p &&& 0x07) <<< 5 ∧ (p &&& 0x07).toNat < 8)
      (by decide +kernel) p
  have h := hall ⟨(p &&& 0x07).toNat, hlow.2⟩ ⟨code.toNat, hcode⟩ ⟨(res &&& 0x3).toNat, hres⟩
  rw [hlow.1]
  simpa using h

theorem repByte_fields (code : UInt8) (hc : (addrLen? code).isSome) (res : UInt8) :
    ((((code &&& 0x7) <<< 5) ||| (res &&& 0x3)) >>> 5) &&& 0x07 = code := by
  have hall : ∀ (c : Fin 6) (x : Fin 4),
      ((((UInt8.ofNat c.val &&& 0x7) <<< 5) ||| UInt8.ofNat x.val) >>> 5) &&& 0x07
        = UInt8.ofNat c.val := by decide +kernel
  have hcode : code.toNat < 6 := by
    rcases code_cases hc with rfl | rfl | rfl | rfl | rfl <;> decide
  have hres : (res &&& 0x3).toNat < 4 :=
    forall_byte (p := fun r => (r &&& 0x3).toNat < 4) (by decide +kernel) res
  have h := hall ⟨code.toNat, hcode⟩ ⟨(res &&& 0x3).toNat, hres⟩
  simpa using h

/-! ## Headers -/

theorem type_code_le (m : Message) : m.type.code ≤ 5 := by
  cases m <;> simp only [Message.type, MessageType.code] <;> decide

theorem ofCode_type_code (m : Message) : MessageType.ofCode m.type.code = m.type := by
  cases m <;> rfl

/-- A message's encoded header is read back. -/
theorem unmarshalHeader_marshalHeader {ulid : Ulid} {m : Message} (hv : m.version < 4) :
    unmarshalHeader ulid (marshalHeader ulid m.header) = m.header := by
  obtain ⟨h1, h2⟩ := headerByte_fields m.type (type_code_le m) hv
  have huuid : unmarshallFromVector ulid (marshallIntoVector ulid m.uuid) = m.uuid :=
    ulid.unmarshalBinary_marshalBinary m.uuid
  have hlen : (marshallIntoVector ulid m.uuid).length ≤ 16 :=
    Nat.le_of_eq (ulid.length_marshalBinary m.uuid)
  simp only [unmarshalHeader, marshalHeader, Message.header, List.headD_cons, List.drop_succ_cons,
    List.drop_zero, h1, h2, ofCode_type_code, List.take_of_length_le hlen, huuid]

/-- Parsing header and content written one after the other. -/
theorem parse_marshal {ulid : Ulid} {uninit : ListenerArray} {m : Message} (hv : m.version < 4)
    (c : Bytes) :
    parseMessageFromBytes ulid uninit (marshalHeader ulid m.header ++ c) false =
      parseContent uninit m.header c := by
  have hsplit := parse_split ulid uninit
    (((m.header.version &&& 0b11) <<< 6) ||| ((m.header.type.code &&& 0b1111) <<< 2)) c
    (ulid.length_marshalBinary m.uuid)
  have hheader : unmarshalHeader ulid
      ((((m.header.version &&& 0b11) <<< 6) ||| ((m.header.type.code &&& 0b1111) <<< 2)) ::
        ulid.marshalBinary m.uuid) = m.header := unmarshalHeader_marshalHeader hv
  rw [hheader] at hsplit
  exact hsplit

/-! ## Contents -/

theorem length_address {code : UInt8} {len : Nat} (h : addrLen? code = some len)
    (listener : ListenerArray) : (listener.toList.take len).length = len := by
  have hbound := (addrLen?_bounds h).2
  rw [List.length_take, Vector.length_toList]
  omega

/--
The bytes after the header of an EAR or MAR decode to its significant fields, with the lower three
bits of the priority and as much of the payload as its length says.
-/
theorem Request.decode_packed (uninit : ListenerArray) {r : Request} {len : Nat}
    (ha : addrLen? r.listenerLength = some len) (hpay : r.payloadLength.toNat ≤ r.payload.length) :
    ∃ r', Request.decode uninit
        ([(r.priority <<< 5) ||| ((r.listenerLength &&& 0x7) <<< 2) ||| (r.reserved &&& 0x3)] ++
          r.listener.toList.take len ++ toBytesBE 2 r.payloadLength.toNat ++ r.payload) = .ok r' ∧
      r'.priority = r.priority &&& 0x07 ∧ r'.listenerLength = r.listenerLength ∧
      address r'.listenerLength r'.listener = address r.listenerLength r.listener ∧
      r'.payloadLength = r.payloadLength ∧ r'.payload = r.payload.take r.payloadLength.toNat := by
  obtain ⟨hbp, hbc⟩ := requestByte_fields r.priority (by rw [ha]; rfl) r.reserved
  have haddr := length_address ha r.listener
  have htwo := length_toBytesBE 2 r.payloadLength.toNat
  generalize hfirst :
    (r.priority <<< 5) ||| ((r.listenerLength &&& 0x7) <<< 2) ||| (r.reserved &&& 0x3)
    = first at hbp hbc
  generalize hA : r.listener.toList.take len = addr at haddr
  generalize hB : toBytesBE 2 r.payloadLength.toNat = two at htwo
  have hdata : [first] ++ addr ++ two ++ r.payload =
    first :: (addr ++ (two ++ r.payload)) := by simp
  rw [hdata]
  have hbe : be16At (first :: (addr ++ (two ++ r.payload))) (1 + len) = r.payloadLength.toNat := by
    rw [be16At, Nat.add_comm 1 len, List.drop_succ_cons, ← haddr, List.drop_left,
      ← htwo, List.take_left, ← hB]
    exact ofBytesBE_toBytesBE (by have := r.payloadLength.toNat_lt; norm_num at *; omega)
  have hlen : requestLength? (first :: (addr ++ (two ++ r.payload)))
      = some (1 + len + 2 + r.payloadLength.toNat) := by
    simp only [requestLength?, hbc, ha, hbe]
    rw [if_pos (by simp only [List.length_cons, List.length_append]; omega)]
  obtain ⟨len', r', ha', _, _, hdec, hs⟩ := Request.decode_ok uninit hlen
  have hlen' : len' = len := by
    rw [List.headD_cons, hbc, ha] at ha'
    exact (Option.some.inj ha').symm
  subst hlen'
  have hcode' : r'.listenerLength = r.listenerLength := by rw [hs.code, List.headD_cons, hbc]
  refine ⟨r', hdec, by rw [hs.priority, List.headD_cons, hbp], hcode', ?_, ?_, ?_⟩
  · rw [address, address, hcode', ha, Option.getD_some, hA, hs.listener, List.drop_succ_cons,
      List.drop_zero, ← haddr, List.take_left, List.take_left]
  · exact UInt16.toNat.inj (hs.payloadLength.trans hbe)
  · rw [hs.payload, hbe, show 1 + len' + 2 = (addr.length + two.length) + 1 by omega,
      List.drop_succ_cons, ← List.drop_drop, List.drop_left, List.drop_left]

theorem priority_and_seven {p : UInt8} (h : p < 8) : p &&& 0x07 = p :=
  forall_byte (p := fun p => p < 8 → p &&& 0x07 = p) (by decide +kernel) p h

/-- The bytes after the header of a well-formed EAR or MAR decode to its significant fields. -/
theorem Request.decode_encode (uninit : ListenerArray) {r : Request} {len : Nat}
    (hw : r.WellFormed) (ha : addrLen? r.listenerLength = some len) :
    ∃ r', Request.decode uninit
        ([(r.priority <<< 5) ||| ((r.listenerLength &&& 0x7) <<< 2) ||| (r.reserved &&& 0x3)] ++
          r.listener.toList.take len ++ toBytesBE 2 r.payloadLength.toNat ++ r.payload) = .ok r' ∧
      r'.priority = r.priority ∧ r'.listenerLength = r.listenerLength ∧
      address r'.listenerLength r'.listener = address r.listenerLength r.listener ∧
      r'.payloadLength = r.payloadLength ∧ r'.payload = r.payload := by
  obtain ⟨hprio, -, hpay⟩ := hw
  obtain ⟨r', hdec, hp, hcode, haddr, hlen, hpayload⟩ := Request.decode_packed uninit ha hpay.le
  refine ⟨r', hdec, ?_, hcode, haddr, hlen, ?_⟩
  · rw [hp, priority_and_seven hprio]
  · rw [hpayload, hpay, List.take_length]

theorem decodeRep_encode (version : UInt8) (uuid : UUIDv4) {code : UInt8} {len : Nat}
    (ha : addrLen? code = some len) (res : UInt8) (listener : ListenerArray) :
    ∃ listener', decodeRep version uuid
        ([((code &&& 0x7) <<< 5) ||| (res &&& 0x3)] ++ listener.toList.take len)
        = .ok (.rep version uuid code 0 listener') ∧
      address code listener' = address code listener := by
  have hbc := repByte_fields code (by rw [ha]; rfl) res
  have haddr := length_address ha listener
  generalize hfirst : ((code &&& 0x7) <<< 5) ||| (res &&& 0x3) = first at hbc
  generalize hA : listener.toList.take len = addr at haddr
  have hlen : repLength? ([first] ++ addr) = some (1 + len) := by
    simp only [List.singleton_append, repLength?, hbc, ha]
    rw [if_pos (by simp only [List.length_cons]; omega)]
  obtain ⟨len', listener', ha', _, _, hdec, hl⟩ := decodeRep_ok version uuid hlen
  have hlen' : len' = len := by omega
  subst hlen'
  refine ⟨listener', ?_, ?_⟩
  · rw [hdec, List.singleton_append, List.headD_cons, hbc]
  · rw [address, address, ha, Option.getD_some, hA, hl, List.singleton_append, List.drop_succ_cons,
      List.drop_zero, ← haddr, List.take_length, List.take_left]

/-! ## The round trip -/

/-- **What arrives of an EAR**, whatever its priority is and however long its payload. -/
theorem parse_ear (ulid : Ulid) (uninit : ListenerArray) {version : UInt8} (hv : version < 4)
    (uuid : UUIDv4) {r : Request} {len : Nat} (ha : addrLen? r.listenerLength = some len)
    (hpay : r.payloadLength.toNat ≤ r.payload.length) :
    ∃ r', parseMessageFromBytes ulid uninit ((Message.ear version uuid r).rawPayload ulid) false =
        .ok (some (.ear version uuid r')) ∧
      r'.priority = r.priority &&& 0x07 ∧ r'.listenerLength = r.listenerLength ∧
      address r'.listenerLength r'.listener = address r.listenerLength r.listener ∧
      r'.payloadLength = r.payloadLength ∧ r'.payload = r.payload.take r.payloadLength.toNat := by
  obtain ⟨r', hdec, hfields⟩ := Request.decode_packed uninit ha hpay
  refine ⟨r', ?_, hfields⟩
  have hversion : (Message.ear version uuid r).version < 4 := hv
  have hraw : (Message.ear version uuid r).rawPayload ulid =
      marshalHeader ulid (Message.ear version uuid r).header ++
        ([(r.priority <<< 5) ||| ((r.listenerLength &&& 0x7) <<< 2) ||| (r.reserved &&& 0x3)] ++
          r.listener.toList.take len ++ toBytesBE 2 r.payloadLength.toNat ++ r.payload) := by
    simp only [Message.rawPayload, Request.rawPayload, ha, payloadLength_bytes, List.append_assoc]
  rw [hraw, parse_marshal hversion]
  simp only [parseContent, Message.header, Message.type, hdec, ok_bind]
  rfl

/--
**Decoding what `raw_payload` wrote gives the message back.** Kind, version, UUID, priority,
listener code, the significant listener bytes, payload length, payload and bid value all survive.
-/
theorem parse_rawPayload (ulid : Ulid) (uninit : ListenerArray) (m : Message) (hw : m.WellFormed) :
    ∃ m', parseMessageFromBytes ulid uninit (m.rawPayload ulid) false = .ok (some m') ∧
      m'.contents = m.contents := by
  obtain ⟨hv, hw⟩ := hw
  cases m with
  | ear version uuid r =>
    obtain ⟨len, ha⟩ := Option.isSome_iff_exists.mp hw.2.1
    obtain ⟨r', hparse, hp, hc, haddr, hn, hd⟩ := parse_ear ulid uninit hv uuid ha hw.2.2.le
    refine ⟨.ear version uuid r', hparse, ?_⟩
    rw [priority_and_seven hw.1] at hp
    rw [hw.2.2, List.take_length] at hd
    simp only [Message.contents, hp, haddr, hn, hd]
    rw [hc]
  | mar version uuid r =>
    obtain ⟨len, ha⟩ := Option.isSome_iff_exists.mp hw.2.1
    obtain ⟨r', hdec, hp, hc, haddr, hn, hd⟩ := Request.decode_encode uninit hw ha
    refine ⟨.mar version uuid r', ?_, by simp only [Message.contents, hp, haddr, hn, hd]; rw [hc]⟩
    have hraw : (Message.mar version uuid r).rawPayload ulid =
        marshalHeader ulid (Message.mar version uuid r).header ++
          ([(r.priority <<< 5) ||| ((r.listenerLength &&& 0x7) <<< 2) ||| (r.reserved &&& 0x3)] ++
            r.listener.toList.take len ++ toBytesBE 2 r.payloadLength.toNat ++ r.payload) := by
      simp only [Message.rawPayload, Request.rawPayload, ha, payloadLength_bytes, List.append_assoc]
    rw [hraw, parse_marshal hv]
    simp only [parseContent, Message.header, Message.type, hdec, ok_bind]
    rfl
  | bid version uuid value =>
    refine ⟨.bid version uuid value, ?_, rfl⟩
    have hlen : (toBytesLE 4 value.toNat).length = 4 := length_toBytesLE 4 value.toNat
    have hval : ofBytesLE (toBytesLE 4 value.toNat) = value.toNat :=
      ofBytesLE_toBytesLE (by have := value.isLt; norm_num at *; omega)
    rw [Message.rawPayload, parse_marshal hv]
    simp only [parseContent, Message.header, Message.type]
    rw [decodeBid_ok (by omega), List.take_of_length_le (by omega), hval, BitVec.ofNat_toNat,
      BitVec.setWidth_eq, ok_bind]
    rfl
  | acc version uuid =>
    refine ⟨.acc version uuid, ?_, rfl⟩
    rw [Message.rawPayload, ← List.append_nil (marshalHeader _ _), parse_marshal hv]
    rfl
  | ref version uuid =>
    refine ⟨.ref version uuid, ?_, rfl⟩
    rw [Message.rawPayload, ← List.append_nil (marshalHeader _ _), parse_marshal hv]
    rfl
  | rep version uuid code res listener =>
    obtain ⟨len, ha⟩ := Option.isSome_iff_exists.mp hw
    obtain ⟨listener', hdec, haddr⟩ :=
      decodeRep_encode version uuid ha res listener
    refine ⟨.rep version uuid code 0 listener', ?_, by simp only [Message.contents, haddr]⟩
    have hraw : (Message.rep version uuid code res listener).rawPayload ulid =
        marshalHeader ulid (Message.rep version uuid code res listener).header ++
          ([((code &&& 0x7) <<< 5) ||| (res &&& 0x3)] ++ listener.toList.take len) := by
      simp only [Message.rawPayload, repRawPayload, ha, List.append_assoc]
    rw [hraw, parse_marshal hv]
    simp only [parseContent, Message.header, Message.type]
    exact (congrArg (· >>= fun m => pure (some m)) hdec).trans rfl

/-- A MAR for an IPv6 listener, with the highest priority and version and one payload byte. -/
theorem parse_rawPayload_mar :
    (Message.mar 3 0x0123456789abcdef0123456789abcdef
        ⟨7, 4, 0, Vector.replicate 16 0xAB, 1, [0xFF]⟩).WellFormed ∧
      ∃ m', parseMessageFromBytes .bigEndian (Vector.replicate 16 0)
          ((Message.mar 3 0x0123456789abcdef0123456789abcdef
            ⟨7, 4, 0, Vector.replicate 16 0xAB, 1, [0xFF]⟩).rawPayload .bigEndian) false
            = .ok (some m') ∧
        m'.contents = (Message.mar 3 0x0123456789abcdef0123456789abcdef
          ⟨7, 4, 0, Vector.replicate 16 0xAB, 1, [0xFF]⟩).contents := by
  have hw : (Message.mar 3 0x0123456789abcdef0123456789abcdef
      ⟨7, 4, 0, Vector.replicate 16 0xAB, 1, [0xFF]⟩).WellFormed := by decide
  exact ⟨hw, parse_rawPayload .bigEndian (Vector.replicate 16 0) _ hw⟩

end Rankd

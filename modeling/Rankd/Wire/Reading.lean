import Rankd.Wire.Roundtrip

/-!
# What is read of an encoded message

What `parse_message_from_bytes` reads of the bytes of a message, whatever the message is: its
session is the same, a request is for the same listener, and an ACC or REF is the same one.
-/

namespace Rankd

open Infra

variable {ulid : Ulid} {uninit : ListenerArray} {m m' : Message} {u : UUIDv4} {v : UInt8}

theorem except_bind_ok {ε α β : Type} {x : Except ε α} {f : α → Except ε β} {b : β}
    (h : (x >>= f) = .ok b) : ∃ a, x = .ok a ∧ f a = .ok b := by
  cases x with
  | error e => cases h
  | ok a => exact ⟨a, rfl, h⟩

/-! ## The header -/

theorem decodeRep_uuid {c : Bytes} (h : decodeRep v u c = .ok m) : m.uuid = u := by
  obtain ⟨first, -, hfirst⟩ := except_bind_ok h
  dsimp only at hfirst
  split at hfirst
  · cases hfirst
  · obtain ⟨listener, -, hlistener⟩ := except_bind_ok hfirst
    cases hlistener
    rfl

theorem parseContent_uuid {h : Header} {c : Bytes}
    (hparse : parseContent uninit h c = .ok (some m)) :
    m.uuid = h.uuid := by
  obtain ⟨version, type, uuid⟩ := h
  cases type with
  | ear | mar | bid =>
    obtain ⟨r, -, hr⟩ := except_bind_ok hparse
    cases hr
    rfl
  | rep =>
    obtain ⟨r, hr, hsome⟩ := except_bind_ok hparse
    cases hsome
    exact decodeRep_uuid hr
  | acc | ref =>
    cases hparse
    rfl
  | notype | unnamed => cases hparse

/-- The encoder writes the lower two bits of the version. -/
theorem marshalHeader_mask (type : MessageType) :
    marshalHeader ulid ⟨v &&& 3, type, u⟩ = marshalHeader ulid ⟨v, type, u⟩ := by
  have hmask : (v &&& 3) &&& 3 = v &&& 3 :=
    forall_byte (p := fun v => (v &&& 3) &&& 3 = v &&& 3) (by decide +kernel) v
  have hversion : (v &&& 3) &&& 0b11 = v &&& 0b11 := hmask
  rw [marshalHeader, marshalHeader, hversion]

theorem version_mask_lt (v : UInt8) : v &&& 3 < 4 :=
  forall_byte (p := fun v => v &&& 3 < 4) (by decide +kernel) v

/-- A message with the version that is written of it. -/
def Message.masked : Message → Message
  | .ear v u r => .ear (v &&& 3) u r
  | .mar v u r => .mar (v &&& 3) u r
  | .bid v u value => .bid (v &&& 3) u value
  | .acc v u => .acc (v &&& 3) u
  | .ref v u => .ref (v &&& 3) u
  | .rep v u code reserved listener => .rep (v &&& 3) u code reserved listener

theorem rawPayload_masked (m : Message) : m.masked.rawPayload ulid = m.rawPayload ulid := by
  cases m <;>
    simp only [Message.masked, Message.rawPayload, Request.rawPayload, repRawPayload,
    Message.header,
      Message.type, Message.uuid, Message.version, marshalHeader_mask]

/-- A message is written as its header and something more, or not at all. -/
theorem rawPayload_cases (ulid : Ulid) (m : Message) :
    m.rawPayload ulid = [] ∨ ∃ c, m.rawPayload ulid = marshalHeader ulid m.header ++ c := by
  cases m with
  | ear v u r | mar v u r =>
    rw [Message.rawPayload, Request.rawPayload]
    split
    · exact Or.inl rfl
    · exact Or.inr ⟨_, by rw [List.append_assoc, List.append_assoc, List.append_assoc]⟩
  | bid v u value => exact Or.inr ⟨_, rfl⟩
  | acc v u | ref v u => exact Or.inr ⟨[], (List.append_nil _).symm⟩
  | rep v u code reserved listener =>
    rw [Message.rawPayload, repRawPayload]
    split
    · exact Or.inl rfl
    · exact Or.inr ⟨_, by rw [List.append_assoc]⟩

/-- **A message that is read has the UUID of the one that was written.** -/
theorem parse_rawPayload_uuid
    (h : parseMessageFromBytes ulid uninit (m.rawPayload ulid) false = .ok (some m')) :
    m'.uuid = m.uuid := by
  rw [← rawPayload_masked] at h
  have huuid : m.masked.uuid = m.uuid := by cases m <;> rfl
  have hversion : m.masked.version < 4 := by cases m <;> exact version_mask_lt _
  rcases rawPayload_cases ulid m.masked with hnone | ⟨c, hc⟩
  · rw [hnone] at h
    cases h
  · rw [hc, parse_marshal hversion] at h
    rw [parseContent_uuid h]
    exact huuid

/-! ## Requests -/

/-- The listener is read from its significant bytes. -/
theorem listenerField_congr {code : UInt8} {listener listener' : ListenerArray} {len : Nat}
    (ha : addrLen? code = some len) (h : address code listener' = address code listener) :
    listenerField code listener' = listenerField code listener := by
  have htake : listener'.toList.take len = listener.toList.take len := by
    rwa [address, address, ha, Option.getD_some] at h
  have hread : ∀ (l : ListenerArray) n, n ≤ len →
      readRun Thrown.outOfRange l.toList n 0 [] = .ok ((l.toList.take len).take n) := by
    intro l n hn
    have hlen := (addrLen?_bounds ha).2
    have hlength : l.toList.length = 16 := by rw [Vector.length_toList]
    rw [readRun_of_le (by omega), List.drop_zero, List.nil_append, List.take_take,
      Nat.min_eq_left hn]
  have hcode : code.toNat ≤ len := by
    rcases code_cases (by rw [ha]; rfl) with rfl | rfl | rfl | rfl | rfl <;> cases ha <;> decide
  rw [listenerField, listenerField, hread _ _ (addrLen?_bounds ha).1,
    hread _ _ (addrLen?_bounds ha).1, hread _ _ hcode, hread _ _ hcode, htake]

/-- The listener of a request that is decoded. -/
theorem Request.decode_listener {r r' : Request} {len : Nat}
    (ha : addrLen? r.listenerLength = some len)
    {rest : Bytes} (h : Request.decode uninit
      (((r.priority <<< 5) ||| ((r.listenerLength &&& 0x7) <<< 2) ||| (r.reserved &&& 0x3)) ::
        (r.listener.toList.take len ++ rest)) = .ok r') :
    r'.listenerLength = r.listenerLength ∧
      address r'.listenerLength r'.listener = address r.listenerLength r.listener := by
  have hcode := (requestByte_fields r.priority (by rw [ha]; rfl) r.reserved).2
  have haddress := length_address ha r.listener
  rcases hn : requestLength? (((r.priority <<< 5) ||| ((r.listenerLength &&& 0x7) <<< 2) |||
      (r.reserved &&& 0x3)) :: (r.listener.toList.take len ++ rest)) with _ | n
  · obtain ⟨e, he⟩ := Request.decode_error uninit hn
    rw [he] at h
    cases h
  · obtain ⟨len', r'', ha', -, -, hdec, hs⟩ := Request.decode_ok uninit hn
    obtain rfl := Except.ok.inj (hdec.symm.trans h)
    have hlength : r''.listenerLength = r.listenerLength := by
      rw [hs.code, List.headD_cons, hcode]
    rw [List.headD_cons, hcode, ha] at ha'
    cases ha'
    refine ⟨hlength, ?_⟩
    rw [address, address, hlength, ha, Option.getD_some, hs.listener, List.drop_succ_cons,
      List.drop_zero, List.take_append_of_le_length haddress.ge, List.take_take, Nat.min_self,
      List.take_append_of_le_length haddress.ge, List.take_take, Nat.min_self]

/-- **A request that is read is for the listener of the one that was written.** -/
theorem parse_ear_listener {r : Request}
    (h : parseMessageFromBytes ulid uninit ((Message.ear v u r).rawPayload ulid) false =
      .ok (some m')) : ∃ v' r', m' = .ear v' u r' ∧ r'.listenerLength = r.listenerLength ∧
        listenerField r'.listenerLength r'.listener =
        listenerField r.listenerLength r.listener := by
  rcases ha : addrLen? r.listenerLength with _ | len
  · rw [Message.rawPayload, Request.rawPayload, ha] at h
    cases h
  · rw [← rawPayload_masked] at h
    have hversion : (Message.ear (v &&& 3) u r).version < 4 := version_mask_lt v
    have hraw : (Message.ear v u r).masked.rawPayload ulid =
        marshalHeader ulid (Message.ear (v &&& 3) u r).header ++
          (((r.priority <<< 5) ||| ((r.listenerLength &&& 0x7) <<< 2) ||| (r.reserved &&& 0x3)) ::
            (r.listener.toList.take len ++ (toBytesBE 2 r.payloadLength.toNat ++ r.payload))) := by
      simp only [Message.masked, Message.rawPayload, Request.rawPayload, ha, payloadLength_bytes,
        List.append_assoc, List.cons_append, List.nil_append]
    rw [hraw, parse_marshal hversion] at h
    obtain ⟨r', hdecode, hsome⟩ := except_bind_ok h
    cases hsome
    obtain ⟨hlength, haddress⟩ := Request.decode_listener ha hdecode
    refine ⟨_, r', rfl, hlength, ?_⟩
    rw [hlength] at haddress ⊢
    exact listenerField_congr ha haddress

/-- **An ACC or REF is read as it was written.** -/
theorem parse_acc (hv : v < 4) : parseMessageFromBytes ulid uninit
    ((Message.acc v u).rawPayload ulid) false = .ok (some (.acc v u)) := by
  have hversion : (Message.acc v u).version < 4 := hv
  rw [Message.rawPayload, ← List.append_nil (marshalHeader _ _), parse_marshal hversion]
  rfl

theorem parse_ref (hv : v < 4) : parseMessageFromBytes ulid uninit
    ((Message.ref v u).rawPayload ulid) false = .ok (some (.ref v u)) := by
  have hversion : (Message.ref v u).version < 4 := hv
  rw [Message.rawPayload, ← List.append_nil (marshalHeader _ _), parse_marshal hversion]
  rfl

end Rankd

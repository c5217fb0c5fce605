import Rankd.Wire.Message

/-!
# What the decoders accept

The decoders index untrusted bytes with `at`. This module says for each of them, with a length
computed from the bytes alone, when it returns and what it returns then.

* `requestLength?` — the length an EAR or MAR body declares, if the bytes are long enough for it
* `repLength?` — the same for REP
* `Request.decode_ok` / `Request.decode_error`, `decodeRep_ok` / `decodeRep_error` — the decoder
  returns exactly when the length is there
-/

namespace Rankd

open Infra

/-! ## Bytes and bit fields -/

/-- A fact about every byte, from the 256 cases. -/
theorem forall_byte {p : UInt8 → Prop} (h : ∀ n : Fin 256, p (UInt8.ofNat n.val)) (b : UInt8) :
    p b := by
  have hb := h ⟨b.toNat, UInt8.toNat_lt_size b⟩
  simpa using hb

/-- The two length bytes are the big-endian codec at width two. -/
theorem payloadLength_bytes (n : UInt16) :
    [((n >>> 8) &&& 0xFF).toUInt8, (n &&& 0xFF).toUInt8] = toBytesBE 2 n.toNat := by
  have hmask : ∀ x : Nat, x &&& 255 = x % 256 := fun x => Nat.and_two_pow_sub_one_eq_mod x 8
  simp only [toBytesBE, pow_one, pow_zero, Nat.div_one, List.cons.injEq, and_true]
  constructor
  · apply UInt8.toNat.inj
    simp [hmask, Nat.shiftRight_eq_div_pow]
  · apply UInt8.toNat.inj
    simp [hmask]

theorem payloadLength_ofBytes (hi lo : UInt8) :
    ((hi.toUInt16 <<< 8) ||| lo.toUInt16).toNat = ofBytesBE [hi, lo] := by
  have h1 : hi.toNat < 256 := hi.toNat_lt_size
  have h2 : lo.toNat < 2 ^ 8 := lo.toNat_lt_size
  have hor : 2 ^ 8 * hi.toNat + lo.toNat = 2 ^ 8 * hi.toNat ||| lo.toNat :=
    Nat.two_pow_add_eq_or_of_lt h2 hi.toNat
  simp only [UInt16.toNat_or, UInt16.toNat_shiftLeft, UInt8.toNat_toUInt16]
  rw [show (8 : UInt16).toNat % 16 = 8 from rfl, Nat.shiftLeft_eq, Nat.mul_comm,
    Nat.mod_eq_of_lt (by omega), ← hor]
  simp only [ofBytesBE, List.length_cons, List.length_nil]
  omega

/-- An address has at most sixteen bytes and at least one. -/
theorem addrLen?_bounds {code : UInt8} {len : Nat} (h : addrLen? code = some len) :
    1 ≤ len ∧ len ≤ 16 := by
  unfold addrLen? at h
  split_ifs at h <;> simp only [Option.some.injEq] at h <;> omega

/-! ## The address loop -/

theorem setIfInBounds_toList (v : ListenerArray) (i : Nat) (b : UInt8) :
    (v.setIfInBounds i b).toList = v.toList.set i b := by
  simp [Vector.toList, Vector.setIfInBounds]

/-- The loop overwrites the bytes from `i` on and leaves the others. -/
theorem readListener_ok (data : Bytes) : ∀ (n i : Nat) (v : ListenerArray),
    i + n < data.length → i + n ≤ 16 →
    ∃ v', readListener data n i v = .ok v' ∧
      v'.toList = v.toList.take i ++ (data.drop (i + 1)).take n ++ v.toList.drop (i + n)
  | 0, i, v, _, _ => ⟨v, rfl, by simp⟩
  | n + 1, i, v, hlen, h16 => by
    have hi : i + 1 < data.length := by omega
    have hv : v.toList.length = 16 := by simp
    obtain ⟨v', hrun, hlist⟩ :=
      readListener_ok data n (i + 1) (v.setIfInBounds i data[i + 1])
        (show i + 1 + n < data.length by omega) (by omega)
    refine ⟨v', ?_, ?_⟩
    · simp only [readListener, readAt_of_lt hi]
      exact hrun
    · rw [hlist, setIfInBounds_toList, List.drop_eq_getElem_cons hi, List.take_succ_cons,
        List.drop_set_of_lt (by omega), show i + 1 + n = i + (n + 1) by omega]
      have htake : (v.toList.set i data[i + 1]).take (i + 1) = v.toList.take i ++
        [data[i + 1]] := by
        rw [List.take_succ_eq_append_getElem (by simp; omega), List.take_set_of_le (by omega)]
        simp
      rw [htake]
      simp

theorem readListener_error {data : Bytes} : ∀ {n i : Nat} {v : ListenerArray},
    data.length ≤ i + n → i < data.length → readListener data n i v = .error .outOfRange
  | 0, i, v, h, hi => absurd h (by omega)
  | n + 1, i, v, h, hi => by
    by_cases hlt : i + 1 < data.length
    · simp only [readListener, readAt_of_lt hlt]
      exact readListener_error (by omega) hlt
    · simp only [readListener, readAt_of_le (Nat.le_of_not_lt hlt)]
      rfl

/-! ## EAR and MAR bodies -/

/-- The big-endian 16-bit number at an offset. -/
def be16At (data : Bytes) (i : Nat) : Nat := ofBytesBE ((data.drop i).take 2)

/-- The number of bytes an EAR or MAR body takes, if the code is known and the bytes are there. -/
def requestLength? (data : Bytes) : Option Nat :=
  match data with
  | [] => none
  | first :: _ =>
    match addrLen? ((first >>> 2) &&& 0x07) with
    | none => none
    | some len =>
      if 1 + len + 2 + be16At data (1 + len) ≤ data.length then
        some (1 + len + 2 + be16At data (1 + len))
      else none

theorem drop_take_two {data : Bytes} {i : Nat} (h : i + 1 < data.length) :
    (data.drop i).take 2 = [data[i], data[i + 1]] := by
  rw [List.drop_eq_getElem_cons (by omega),
    List.drop_eq_getElem_cons (show i + 1 < data.length by omega)]
  rfl

/-- What a decoded EAR or MAR body holds, as slices of the bytes it came from. -/
structure RequestSlices (uninit : ListenerArray) (data : Bytes) (len : Nat) (r : Request) :
    Prop where
  priority : r.priority = (data.headD 0 >>> 5) &&& 0x07
  code : r.listenerLength = (data.headD 0 >>> 2) &&& 0x07
  reserved : r.reserved = 0
  listener : r.listener.toList = (data.drop 1).take len ++ uninit.toList.drop len
  payloadLength : r.payloadLength.toNat = be16At data (1 + len)
  payload : r.payload = (data.drop (1 + len + 2)).take (be16At data (1 + len))

theorem Request.decode_ok (uninit : ListenerArray) {data : Bytes} {n : Nat}
    (h : requestLength? data = some n) :
    ∃ len r, addrLen? ((data.headD 0 >>> 2) &&& 0x07) = some len ∧
      n = 1 + len + 2 + be16At data (1 + len) ∧ n ≤ data.length ∧
      Request.decode uninit data = .ok r ∧ RequestSlices uninit data len r := by
  cases data with
  | nil => simp [requestLength?] at h
  | cons first rest =>
    simp only [requestLength?] at h
    cases ha : addrLen? ((first >>> 2) &&& 0x07) with
    | none => simp [ha] at h
    | some len =>
      simp only [ha, Option.ite_none_right_eq_some, Option.some.injEq] at h
      obtain ⟨hle, hn⟩ := h
      obtain ⟨_, hlen16⟩ := addrLen?_bounds ha
      have hhi : 1 + len < (first :: rest).length := by omega
      have hlo : 1 + len + 1 < (first :: rest).length := by omega
      obtain ⟨listener, hrun, hlist⟩ :=
        readListener_ok (first :: rest) len 0 uninit (by omega) (by omega)
      have hlen : (((first :: rest)[1 + len].toUInt16 <<< 8) |||
          (first :: rest)[1 + len + 1].toUInt16).toNat = be16At (first :: rest) (1 + len) := by
        rw [payloadLength_ofBytes, be16At, drop_take_two hlo]
      have hpay : readRun Thrown.outOfRange (first :: rest) (be16At (first :: rest) (1 + len))
          (1 + len + 2) [] = .ok (((first :: rest).drop (1 + len + 2)).take
            (be16At (first :: rest) (1 + len))) := by
        rw [readRun_of_le (by omega), List.nil_append]
      refine ⟨len, {
        priority := (first >>> 5) &&& 0x07
        listenerLength := (first >>> 2) &&& 0x07
        reserved := 0
        listener := listener
        payloadLength := ((first :: rest)[1 + len].toUInt16 <<< 8) |||
          (first :: rest)[1 + len + 1].toUInt16
        payload := ((first :: rest).drop (1 + len + 2)).take (be16At (first :: rest) (1 + len)) },
        ha, hn.symm, by omega, ?_, ?_⟩
      · simp only [Request.decode, readAt_cons_zero, ok_bind, ha, hrun, readAt_of_lt hhi,
          readAt_of_lt hlo, hlen, hpay]
        rfl
      · exact {
          priority := rfl
          code := rfl
          reserved := rfl
          listener := by simpa using hlist
          payloadLength := hlen
          payload := rfl }

theorem Request.decode_error (uninit : ListenerArray) {data : Bytes}
    (h : requestLength? data = none) : ∃ e, Request.decode uninit data = .error e := by
  cases data with
  | nil => exact ⟨.outOfRange, rfl⟩
  | cons first rest =>
    simp only [requestLength?] at h
    cases ha : addrLen? ((first >>> 2) &&& 0x07) with
    | none =>
      refine ⟨.exception, ?_⟩
      simp only [Request.decode, readAt_cons_zero, ok_bind, ha]
      rfl
    | some len =>
      simp only [ha, ite_eq_right_iff, reduceCtorEq, imp_false, not_le] at h
      obtain ⟨_, hlen16⟩ := addrLen?_bounds ha
      refine ⟨.outOfRange, ?_⟩
      simp only [Request.decode, readAt_cons_zero, ok_bind, ha]
      by_cases haddr : len < (first :: rest).length
      · obtain ⟨listener, hrun, _⟩ :=
          readListener_ok (first :: rest) len 0 uninit (by omega) (by omega)
        rw [hrun, ok_bind]
        by_cases hhi : 1 + len < (first :: rest).length
        · rw [readAt_of_lt hhi, ok_bind]
          by_cases hlo : 1 + len + 1 < (first :: rest).length
          · -- the address and the length are there, the payload is not
            have hlen : (((first :: rest)[1 + len].toUInt16 <<< 8) |||
                (first :: rest)[1 + len + 1].toUInt16).toNat =
                  be16At (first :: rest) (1 + len) := by
              rw [payloadLength_ofBytes, be16At, drop_take_two hlo]
            rw [readAt_of_lt hlo, ok_bind, hlen, readRun_of_lt (by omega) (by omega), error_bind]
          · rw [readAt_of_le (Nat.le_of_not_lt hlo), error_bind]
        · rw [readAt_of_le (Nat.le_of_not_lt hhi), error_bind]
      · rw [readListener_error (show (first :: rest).length ≤ 0 + len by omega)
          (by simp), error_bind]

/-! ## BID bodies -/

theorem decodeBid_ok {data : Bytes} (h : 4 ≤ data.length) :
    decodeBid data = .ok (BitVec.ofNat 32 (ofBytesLE (data.take 4))) := by
  rw [decodeBid, readRun_of_le (by omega), ok_bind]
  simp only [List.drop_zero, List.nil_append]
  rfl

theorem decodeBid_error {data : Bytes} (h : data.length < 4) :
    decodeBid data = .error .outOfRange := by
  rw [decodeBid, readRun_of_lt (by omega) (by omega), error_bind]

/-! ## REP bodies -/

/-- The number of bytes a REP body takes, if the code is known and the bytes are there. -/
def repLength? (data : Bytes) : Option Nat :=
  match data with
  | [] => none
  | first :: _ =>
    match addrLen? ((first >>> 5) &&& 0x07) with
    | none => none
    | some len => if 1 + len ≤ data.length then some (1 + len) else none

theorem decodeRep_ok (version : UInt8) (uuid : UUIDv4) {data : Bytes} {n : Nat}
    (h : repLength? data = some n) :
    ∃ len listener, addrLen? ((data.headD 0 >>> 5) &&& 0x07) = some len ∧ n = 1 + len ∧
      n ≤ data.length ∧
      decodeRep version uuid data =
        .ok (.rep version uuid ((data.headD 0 >>> 5) &&& 0x07) 0 listener) ∧
      listener.toList = (data.drop 1).take len ++ List.replicate (16 - len) 0 := by
  cases data with
  | nil => simp [repLength?] at h
  | cons first rest =>
    simp only [repLength?] at h
    cases ha : addrLen? ((first >>> 5) &&& 0x07) with
    | none => simp [ha] at h
    | some len =>
      simp only [ha, Option.ite_none_right_eq_some, Option.some.injEq] at h
      obtain ⟨hle, hn⟩ := h
      obtain ⟨_, hlen16⟩ := addrLen?_bounds ha
      obtain ⟨listener, hrun, hlist⟩ :=
        readListener_ok (first :: rest) len 0 (Vector.replicate 16 0)
          (by omega) (by omega)
      refine ⟨len, listener, ha, hn.symm, by omega, ?_, ?_⟩
      · simp only [decodeRep, readAt_cons_zero, ok_bind, ha, hrun]
        rfl
      · rw [hlist, Vector.toList_replicate, List.drop_replicate, Nat.zero_add]
        simp only [List.take_zero, List.nil_append, Nat.zero_add]

theorem decodeRep_error (version : UInt8) (uuid : UUIDv4) {data : Bytes}
    (h : repLength? data = none) : ∃ e, decodeRep version uuid data = .error e := by
  cases data with
  | nil => exact ⟨.outOfRange, rfl⟩
  | cons first rest =>
    simp only [repLength?] at h
    cases ha : addrLen? ((first >>> 5) &&& 0x07) with
    | none =>
      refine ⟨.exception, ?_⟩
      simp only [decodeRep, readAt_cons_zero, ok_bind, ha]
      rfl
    | some len =>
      simp only [ha, ite_eq_right_iff, reduceCtorEq, imp_false, not_le] at h
      refine ⟨.outOfRange, ?_⟩
      simp only [decodeRep, readAt_cons_zero, ok_bind, ha]
      rw [readListener_error (show (first :: rest).length ≤ 0 + len by omega) (by simp), error_bind]

end Rankd

import Rankd.Wire.Roundtrip

/-!
# The Ethernet receive path

`Sender::make_and_send_frame`, `RawReceiverL2` and `ReceiverL2`.

Nothing sets the `_queue_mutex` of `RawReceiverL2`, so the first frame with the ethertype of Rank
locks `*nullptr`, and no message comes through (`receiveFrame_never_delivers`).

Both receivers also convert single bytes with `ntohs`. On a little-endian host the value of a
widened byte moves to the high half and narrowing drops it, so every byte becomes zero
(`ntohsByte_eq_zero`). With a mutex the receiver would decode a string of zero bytes from the
address `00:00:00:00:00:00`, whatever was sent (`receiveFrame_delivers_iff`).
-/

namespace Rankd

open Infra

/-! ## Frames -/

/-- `RANK_ETHERTYPE`. -/
def rankEthertype : UInt16 := 0x7265

/-- `sizeof(struct ethhdr)`: destination, source and ethertype. -/
def ethhdrLen : Nat := 14

/-- `TEMPORARY_BUFFER_LENGTH`. -/
def temporaryBufferLength : Nat := 65536

/-- `h_dest` and `h_source`. -/
abbrev MacAddress := Vector UInt8 6

/-- The frame `Sender::make_and_send_frame` puts on the wire. The ethertype is in network order. -/
def makeFrame (ulid : Ulid) (target source : MacAddress) (m : Message) : Bytes :=
  target.toList ++ source.toList ++ [(rankEthertype >>> 8).toUInt8, rankEthertype.toUInt8] ++
    m.rawPayload ulid

/-! ## The receivers -/

/-- What ends the receive path: an exception of the parser, or a lock of a mutex that is not
there. -/
inductive ReceiveFault
  | thrown (e : Thrown)
  | nullPointer
  deriving DecidableEq, Repr

/--
The `_queue` of sources and bytes between `RawReceiverL2` and `ReceiverL2`, and the
`_queue_mutex` that both lock, as `queue_access` and `set_queue` pass them on: a `std::mutex *`,
with `none` for null.
-/
structure RawReceiverL2 where
  queue : List (Bytes × Bytes)
  queueMutex : Option Nat

/--
The object of `RawReceiverL2::get_instance`. The constructor does not mention `_queue_mutex`, which
has no initializer either, so it is what the static object is filled with before: zero.
-/
def RawReceiverL2.getInstance : RawReceiverL2 where
  queue := []
  queueMutex := none

/-- `std::lock_guard<std::mutex> guard(*_queue_mutex)`. -/
def lockGuard (mutex : Option Nat) : Except ReceiveFault Unit :=
  match mutex with
  | some _ => .ok ()
  | none => .error .nullPointer

/--
The source address and the data that `RawReceiverL2::operator()` reads from a frame, `none` for a
frame of another ethertype. The buffer was cleared before `recv` filled its beginning.
-/
def sourceAndData (frame : Bytes) : Option (Bytes × Bytes) :=
  let received := frame.take temporaryBufferLength
  let buffer := received ++ List.replicate (temporaryBufferLength - received.length) 0
  let hProto := (buffer.getD 12 0).toUInt16 ||| ((buffer.getD 13 0).toUInt16 <<< 8)
  if ntohs hProto = rankEthertype then
    some (((buffer.drop 6).take 6).map ntohsByte, received.drop ethhdrLen)
  else none

/-- `RawReceiverL2::operator()` on one frame. -/
def RawReceiverL2.operatorCall (r : RawReceiverL2) (frame : Bytes) :
    Except ReceiveFault RawReceiverL2 :=
  match sourceAndData frame with
  | none => .ok r
  | some sourceAndBytes => do
    lockGuard r.queueMutex
    return { r with queue := r.queue ++ [sourceAndBytes] }

/--
`ReceiverL2::operator()` on one queued pair: what it deposits for the dispatcher, `none` for a
message that could not be parsed. It stops when the queue is empty.
-/
def ReceiverL2.operatorCall (ulid : Ulid) (uninit : ListenerArray) (r : RawReceiverL2) :
    Except ReceiveFault (Option (Message × Bytes × IdentifierType) × RawReceiverL2) :=
  match r.queue with
  | [] => .ok (none, r)
  | sourceAndBytes :: rest => do
    lockGuard r.queueMutex
    match parseMessageFromBytes ulid uninit sourceAndBytes.2 true with
    | .error e => .error (.thrown e)
    | .ok message =>
      return (message.map fun m => (m, sourceAndBytes.1, .mac), { r with queue := rest })

/-- The two receivers on a frame, one after the other. -/
def receiveFrame (ulid : Ulid) (uninit : ListenerArray) (r : RawReceiverL2) (frame : Bytes) :
    Except ReceiveFault (Option (Message × Bytes × IdentifierType) × RawReceiverL2) := do
  let r ← r.operatorCall frame
  ReceiverL2.operatorCall ulid uninit r

/-- The states of the receivers after any frames. -/
inductive RawReceiverL2.Reachable (ulid : Ulid) (uninit : ListenerArray) : RawReceiverL2 → Prop
  | start : RawReceiverL2.Reachable ulid uninit .getInstance
  | frame {r r' : RawReceiverL2} {frame : Bytes} {out : Option (Message × Bytes × IdentifierType)}
    (h : RawReceiverL2.Reachable ulid uninit r)
    (hrun : receiveFrame ulid uninit r frame = .ok (out, r')) :
    RawReceiverL2.Reachable ulid uninit r'

/-- What the dispatcher gets from a frame is the message and the address that were sent. -/
def Delivered (m : Message) (source : MacAddress)
    (result : Except ReceiveFault (Option (Message × Bytes × IdentifierType) × RawReceiverL2)) :
    Prop :=
  ∃ m' r', result = .ok (some (m', source.toList, .mac), r') ∧ m'.contents = m.contents

/-! ## Converted bytes -/

@[simp] theorem ntohsByte_eq_zero : ∀ b : UInt8, ntohsByte b = 0 :=
  forall_byte (by decide +kernel)

theorem map_ntohsByte (bs : Bytes) : bs.map ntohsByte = List.replicate bs.length 0 := by
  rw [List.eq_replicate_iff]
  refine ⟨List.length_map _, ?_⟩
  intro b hb
  obtain ⟨c, -, rfl⟩ := List.mem_map.mp hb
  exact ntohsByte_eq_zero c

theorem ofBytesBE_replicate_zero (n : Nat) : ofBytesBE (List.replicate n 0) = 0 := by
  induction n with
  | zero => rfl
  | succ n ih => rw [List.replicate_succ, ofBytesBE, ih]; simp

theorem unmarshalHeader_replicate_zero (ulid : Ulid) :
    unmarshalHeader ulid (List.replicate headerLen 0) = ⟨0, .ear, 0⟩ := by
  have huuid : ulid.unmarshalBinary (List.replicate 16 0) = 0 := by
    apply BitVec.eq_of_toNat_eq
    rw [ulid.unmarshalBinary_bigEndian _ List.length_replicate, ofBytesBE_replicate_zero]
    rfl
  have h : unmarshalHeader ulid (List.replicate headerLen 0)
      = ⟨0, .ear, ulid.unmarshalBinary (List.replicate 16 0)⟩ := rfl
  rw [h, huuid]

/-- The contents of the only message this path can deliver. -/
def zeroEar : Contents := .ear 0 0 0 0 [0] 0 []

/-- The only message this path can deliver. -/
def decodedZeroEar (uninit : ListenerArray) : Message :=
  .ear 0 0
    { priority := 0, listenerLength := 0, reserved := 0, listener := uninit.setIfInBounds 0 0,
      payloadLength := 0, payload := [] }

theorem contents_decodedZeroEar (uninit : ListenerArray) :
    (decodedZeroEar uninit).contents = zeroEar := by
  have haddr : address 0 (uninit.setIfInBounds 0 0) = [0] := by
    rw [address, show (addrLen? 0).getD 0 = 1 from rfl]
    have hne : (uninit.setIfInBounds 0 0).toList ≠ [] := by
      intro h
      have := congrArg List.length h
      simp at this
    obtain ⟨x, rest, hx⟩ := List.exists_cons_of_ne_nil hne
    have hhead : x = 0 := by
      have h0 : (uninit.setIfInBounds 0 0).toList[0]? = some 0 := by simp
      rw [hx] at h0
      simpa using h0
    rw [hx, hhead]
    rfl
  simp only [decodedZeroEar, Message.contents, haddr, zeroEar]

/-! ## The parser on converted bytes -/

/-- Decoding zero bytes: too short, short of the EAR's fixed fields, or the EAR of zeros. -/
theorem decode_replicate_zero (uninit : ListenerArray) (n : Nat) :
    Request.decode uninit (List.replicate n 0) =
      if n < 4 then .error .outOfRange
      else .ok { priority := 0, listenerLength := 0, reserved := 0,
                 listener := uninit.setIfInBounds 0 0, payloadLength := 0, payload := [] } := by
  match n with
  | 0 | 1 | 2 | 3 => rfl
  | n + 4 =>
    rw [if_neg (by omega)]
    simp only [List.replicate_succ]
    rfl

/-- What the parser makes of bytes from the network depends on their number only. -/
theorem parse_fromNetwork (ulid : Ulid) (uninit : ListenerArray) (b : Bytes) :
    parseMessageFromBytes ulid uninit b true =
      if b.length < headerLen then .ok none
      else if b.length < headerLen + 4 then .error .outOfRange
      else .ok (some (decodedZeroEar uninit)) := by
  by_cases hlen : b.length < headerLen
  · rw [parseMessageFromBytes, if_pos hlen, if_pos hlen]
  · have htake : (List.replicate b.length (0 : UInt8)).take headerLen
        = List.replicate headerLen 0 := by
      rw [List.take_replicate, Nat.min_eq_left (Nat.le_of_not_lt hlen)]
    rw [parseMessageFromBytes, if_neg hlen, if_neg hlen, if_pos rfl]
    simp only [map_ntohsByte, htake, unmarshalHeader_replicate_zero, List.drop_replicate,
      parseContent, decode_replicate_zero]
    by_cases hshort : b.length < headerLen + 4
    · rw [if_pos hshort, if_pos (by omega)]
      rfl
    · rw [if_neg hshort, if_neg (by omega)]
      rfl

/-! ## The receivers on a sent frame -/

theorem six_bytes (v : MacAddress) : ∃ a b c d e f, v.toList = [a, b, c, d, e, f] := by
  have h : v.toList.length = 6 := Vector.length_toList
  match hl : v.toList, h with
  | [a, b, c, d, e, f], _ => exact ⟨a, b, c, d, e, f, rfl⟩

/-- The raw receiver keeps the data of a frame and loses its source address. -/
theorem sourceAndData_makeFrame (ulid : Ulid) (target source : MacAddress) (m : Message)
    (pad : Bytes) :
    sourceAndData (makeFrame ulid target source m ++ pad) =
      some (List.replicate 6 0,
        (m.rawPayload ulid ++ pad).take (temporaryBufferLength - ethhdrLen)) := by
  have hframe : makeFrame ulid target source m ++ pad =
      (target.toList ++ source.toList ++ [0x72, 0x65]) ++ (m.rawPayload ulid ++ pad) := by
    rw [makeFrame, List.append_assoc]
    rfl
  have hhead : (target.toList ++ source.toList ++ [0x72, 0x65] : Bytes).length = ethhdrLen := by
    simp [ethhdrLen]
  have hreceived : (makeFrame ulid target source m ++ pad).take temporaryBufferLength =
      (target.toList ++ source.toList ++ [0x72, 0x65]) ++
        (m.rawPayload ulid ++ pad).take (temporaryBufferLength - ethhdrLen) := by
    rw [hframe, List.take_append, hhead, List.take_of_length_le (by rw [hhead]; decide)]
  obtain ⟨t0, t1, t2, t3, t4, t5, ht⟩ := six_bytes target
  obtain ⟨s0, s1, s2, s3, s4, s5, hs⟩ := six_bytes source
  have hproto : ntohs ((0x72 : UInt8).toUInt16 ||| ((0x65 : UInt8).toUInt16 <<< 8))
      = rankEthertype := by decide
  simp only [sourceAndData, hreceived, ht, hs, List.cons_append, List.nil_append,
    List.getD_cons_succ, List.getD_cons_zero]
  rw [if_pos hproto]
  simp [ethhdrLen]

section Frames

variable {r : RawReceiverL2} (ulid : Ulid) (uninit : ListenerArray) (target source : MacAddress)
  (m : Message) (pad : Bytes)

/-- Without a mutex no frame that was sent gets into the queue. -/
theorem receiveFrame_unlocked (hr : r.queueMutex = none) :
    receiveFrame ulid uninit r (makeFrame ulid target source m ++ pad) = .error .nullPointer := by
  rw [receiveFrame, RawReceiverL2.operatorCall, sourceAndData_makeFrame, hr]
  rfl

/-- What arrives at the dispatcher when a frame was sent, whatever was sent, if there is a mutex. -/
theorem receiveFrame_makeFrame (hr : r.queueMutex.isSome = true) (hq : r.queue = []) :
    receiveFrame ulid uninit r (makeFrame ulid target source m ++ pad) =
      if (m.rawPayload ulid ++ pad).length < headerLen then .ok (none, r)
      else if (m.rawPayload ulid ++ pad).length < headerLen + 4 then .error (.thrown .outOfRange)
      else .ok (some (decodedZeroEar uninit, List.replicate 6 0, .mac), r) := by
  obtain ⟨queue, mutex⟩ := r
  obtain ⟨address, rfl⟩ := Option.isSome_iff_exists.mp hr
  obtain rfl : queue = [] := hq
  have hlen : ∀ k, k ≤ temporaryBufferLength - ethhdrLen →
      (((m.rawPayload ulid ++ pad).take (temporaryBufferLength - ethhdrLen)).length < k ↔
        (m.rawPayload ulid ++ pad).length < k) := by
    intro k hk
    rw [List.length_take]
    omega
  have hqueued :
    receiveFrame ulid uninit ⟨[], some address⟩ (makeFrame ulid target source m ++ pad) =
      ReceiverL2.operatorCall ulid uninit ⟨[(List.replicate 6 0,
        (m.rawPayload ulid ++ pad).take (temporaryBufferLength - ethhdrLen))], some address⟩ := by
    rw [receiveFrame, RawReceiverL2.operatorCall, sourceAndData_makeFrame]
    rfl
  rw [hqueued, ReceiverL2.operatorCall]
  simp only [lockGuard, parse_fromNetwork]
  simp only [hlen headerLen (by decide), hlen (headerLen + 4) (by decide)]
  split_ifs <;> rfl

end Frames

/-- No frame with the ethertype of Rank gets through, so nothing is ever queued. -/
theorem RawReceiverL2.Reachable.eq_getInstance {ulid : Ulid} {uninit : ListenerArray}
    {r : RawReceiverL2} (h : r.Reachable ulid uninit) : r = .getInstance := by
  induction h with
  | start => rfl
  | @frame r r' frame out _ hrun ih =>
    subst ih
    rw [receiveFrame, RawReceiverL2.operatorCall] at hrun
    rcases hdata : sourceAndData frame with _ | sourceAndBytes
    · rw [hdata] at hrun
      cases hrun
      rfl
    · rw [hdata] at hrun
      cases hrun

theorem length_rawPayload_of_zeroEar (ulid : Ulid) {m : Message} (h : m.contents = zeroEar) :
    (m.rawPayload ulid).length = headerLen + 4 := by
  cases m with
  | ear version uuid r =>
    simp only [Message.contents, zeroEar, Contents.ear.injEq] at h
    obtain ⟨-, -, -, hcode, -, -, hpay⟩ := h
    have hlen : addrLen? r.listenerLength = some 1 := by rw [hcode]; rfl
    have hheader : (marshalHeader ulid (Message.ear version uuid r).header).length = headerLen := by
      simp [marshalHeader, marshallIntoVector, headerLen]
    simp only [Message.rawPayload, Request.rawPayload, hlen, hpay, List.length_append, hheader,
      length_address hlen]
    rfl
  | _ => simp [Message.contents, zeroEar] at h

/-! ## When the two paths agree -/

/-- With a mutex, the Ethernet path would deliver the EAR of zeros from the zero
address, and no more. -/
theorem receiveFrame_delivers_iff {r : RawReceiverL2} (ulid : Ulid) (uninit : ListenerArray)
    (target source : MacAddress) (m : Message) (pad : Bytes) (hr : r.queueMutex.isSome = true)
    (hq : r.queue = []) :
    Delivered m source (receiveFrame ulid uninit r (makeFrame ulid target source m ++ pad)) ↔
      m.contents = zeroEar ∧ source.toList = List.replicate 6 0 := by
  rw [receiveFrame_makeFrame ulid uninit target source m pad hr hq]
  constructor
  · rintro ⟨m', r', hdelivered, hm⟩
    split_ifs at hdelivered
    · cases hdelivered
    obtain ⟨hsome, -⟩ := Prod.mk.inj (Except.ok.inj hdelivered)
    obtain ⟨rfl, hs⟩ := Prod.mk.inj (Option.some.inj hsome)
    replace hs := (Prod.mk.inj hs).1
    rw [contents_decodedZeroEar] at hm
    exact ⟨hm.symm, hs.symm⟩
  · rintro ⟨hm, hs⟩
    have hlen := length_rawPayload_of_zeroEar ulid hm
    rw [List.length_append, if_neg (by omega), if_neg (by omega), ← hs]
    exact ⟨decodedZeroEar uninit, r, rfl, (contents_decodedZeroEar uninit).trans hm.symm⟩

/-- The parser gives the same message with and without the conversion for the EAR of zeros only. -/
theorem parse_fromNetwork_eq_iff (ulid : Ulid) (uninit : ListenerArray) {m : Message}
    (hw : m.WellFormed) :
    (parseMessageFromBytes ulid uninit (m.rawPayload ulid) true).map (·.map Message.contents) =
        (parseMessageFromBytes ulid uninit (m.rawPayload ulid) false).map (·.map Message.contents) ↔
      m.contents = zeroEar := by
  obtain ⟨m', hparse, hm'⟩ := parse_rawPayload ulid uninit m hw
  rw [hparse, parse_fromNetwork]
  have hok : ∀ x : Option Message,
      (Except.ok x : Except Thrown (Option Message)).map (·.map Message.contents)
        = .ok (x.map Message.contents) := fun _ => rfl
  constructor
  · intro h
    split_ifs at h
    · simp [hok] at h
    · simp [Except.map] at h
    · simp only [hok, Option.map_some, contents_decodedZeroEar, hm'] at h
      exact (Option.some.inj (Except.ok.inj h)).symm
  · intro hm
    have hlen := length_rawPayload_of_zeroEar ulid hm
    rw [if_neg (by omega), if_neg (by omega), hok, hok, Option.map_some, Option.map_some,
      contents_decodedZeroEar, hm', hm]

/--
**The Ethernet path never delivers what was sent**: the first frame of Rank locks a mutex that is
not there. With a mutex it would deliver the EAR of zeros from the zero address, and this is also
the only well-formed message that the parser gives with the conversion as without.
-/
theorem receiveFrame_never_delivers {r : RawReceiverL2} (ulid : Ulid) (uninit : ListenerArray)
    (target source : MacAddress) (m : Message) (pad : Bytes) (h : r.Reachable ulid uninit) :
    ¬Delivered m source (receiveFrame ulid uninit r (makeFrame ulid target source m ++ pad)) ∧
    (∀ mutex, Delivered m source (receiveFrame ulid uninit { r with queueMutex := some mutex }
        (makeFrame ulid target source m ++ pad)) ↔
      m.contents = zeroEar ∧ source.toList = List.replicate 6 0) ∧
    (m.WellFormed →
      ((parseMessageFromBytes ulid uninit (m.rawPayload ulid) true).map (·.map Message.contents) =
          (parseMessageFromBytes ulid uninit (m.rawPayload ulid) false).map
            (·.map Message.contents) ↔
        m.contents = zeroEar)) := by
  obtain rfl := h.eq_getInstance
  refine ⟨?_, fun mutex => receiveFrame_delivers_iff ulid uninit target source m pad rfl rfl,
    parse_fromNetwork_eq_iff ulid uninit⟩
  rintro ⟨m', r', hdelivered, -⟩
  rw [receiveFrame_unlocked ulid uninit target source m pad rfl] at hdelivered
  cases hdelivered

/-- After a frame of another ethertype the EAR of zeros is not delivered either, but it is
parsed. -/
theorem receiveFrame_never_delivers_zeroEar :
    ∃ r out, receiveFrame .bigEndian (Vector.replicate 16 0) .getInstance
        (List.replicate 12 0 ++ [8, 0]) = .ok (out, r) ∧
      ¬Delivered (decodedZeroEar (Vector.replicate 16 0)) (Vector.replicate 6 0)
        (receiveFrame .bigEndian (Vector.replicate 16 0) r
          (makeFrame .bigEndian (Vector.replicate 6 0) (Vector.replicate 6 0)
            (decodedZeroEar (Vector.replicate 16 0)) ++ [])) ∧
      (decodedZeroEar (Vector.replicate 16 0)).WellFormed ∧
      ((parseMessageFromBytes .bigEndian (Vector.replicate 16 0)
          ((decodedZeroEar (Vector.replicate 16 0)).rawPayload .bigEndian) true).map
            (·.map Message.contents) =
        (parseMessageFromBytes .bigEndian (Vector.replicate 16 0)
          ((decodedZeroEar (Vector.replicate 16 0)).rawPayload .bigEndian) false).map
            (·.map Message.contents)) := by
  have hother : receiveFrame .bigEndian (Vector.replicate 16 0) .getInstance
      (List.replicate 12 0 ++ [8, 0]) = .ok (none, .getInstance) := by
    have hnone : sourceAndData (List.replicate 12 0 ++ [8, 0]) = none := by decide +kernel
    rw [receiveFrame, RawReceiverL2.operatorCall, hnone]
    rfl
  have h := receiveFrame_never_delivers .bigEndian (Vector.replicate 16 0) (Vector.replicate 6 0)
    (Vector.replicate 6 0) (decodedZeroEar (Vector.replicate 16 0)) [] (.frame .start hother)
  have hw : (decodedZeroEar (Vector.replicate 16 0)).WellFormed := by decide
  exact ⟨_, _, hother, h.1, hw, (h.2.2 hw).mpr (contents_decodedZeroEar _)⟩

/--
An ACC of version 1 sent by `02:00:00:00:00:01`: the raw receiver does not survive the lock. What
the parser would read of its seventeen bytes is an EAR header with nothing after it.
-/
theorem receiveFrame_acc :
    ¬Delivered (.acc 1 0x0123456789abcdef0123456789abcdef) #v[2, 0, 0, 0, 0, 1]
      (receiveFrame .bigEndian (Vector.replicate 16 0) .getInstance
        (makeFrame .bigEndian #v[2, 0, 0, 0, 0, 2] #v[2, 0, 0, 0, 0, 1]
          (.acc 1 0x0123456789abcdef0123456789abcdef))) ∧
    parseMessageFromBytes .bigEndian (Vector.replicate 16 0)
        ((Message.acc 1 0x0123456789abcdef0123456789abcdef).rawPayload .bigEndian) true ≠
      parseMessageFromBytes .bigEndian (Vector.replicate 16 0)
        ((Message.acc 1 0x0123456789abcdef0123456789abcdef).rawPayload .bigEndian) false := by
  constructor
  · rintro ⟨m', r', h, -⟩
    rw [← List.append_nil (makeFrame _ _ _ _), receiveFrame_unlocked _ _ _ _ _ _ rfl] at h
    cases h
  · rw [parse_fromNetwork]
    intro h
    obtain ⟨m', hparse, -⟩ := parse_rawPayload .bigEndian (Vector.replicate 16 0)
      (.acc 1 0x0123456789abcdef0123456789abcdef) (by decide)
    rw [hparse] at h
    cases h

end Rankd

import Rankd.Node.Process
import Rankd.Properties.Hops
import Rankd.Wire.Api
import Rankd.Wire.Roundtrip

/-!
# Messages for clients

`structs/dispatchers/api.cpp`: the EAR that is built for an admission request, in the daemon and in
the simulation, and the REP of the simulation.

* `target_carried_iff` — the kind of the target is cast to a listener code, which numbers MAC and
  IPv4 the other way round
* `own_sessions_iff` — the daemon gives every EAR the UUID 0, and the pids are kept in a byte
* `request_survives_iff` — the priority is shifted out of its three bits, and the length of the
  payload is cut to 16 bits
-/

namespace Rankd

open Infra

/-! ## The builders -/

/-- `marshall`. The parser of rapidjson, which reads up to the terminator, is a parameter. -/
def marshall (lib : Libraries) (parse : Bytes → Json) (stringifiedJson : Bytes) : Bytes :=
  serializeJson lib (parse (stringifiedJson.takeWhile (· ≠ 0)))

/-- `std::copy` of a target to a `listener` of zeros, `none` where it writes past the array. -/
def copyTarget (target : Bytes) : Option ListenerArray :=
  if h : target.length ≤ 16 then
    some ⟨(target ++ List.replicate (16 - target.length) 0).toArray, by simp; omega⟩
  else none

/-- The EAR of both builders. Its UUID is all that they do not take from the request. -/
def buildEar (uuid : UUIDv4) (priority : UInt8) (target : Bytes) (type : IdentifierType)
    (payload : Bytes) : Option Message :=
  (copyTarget target).map fun listener => .ear headerVersion uuid {
    priority := priority
    listenerLength := type.code
    reserved := 0
    listener := listener
    payloadLength := UInt16.ofNat payload.length
    payload := payload }

/-- `build_message_from_admission_request`, of the daemon. The UUID is `UUIDv4()`. -/
def buildMessageFromAdmissionRequest (lib : Libraries) (parse : Bytes → Json)
    (request : AdmissionRequest) : Option Message :=
  buildEar 0 request.priority request.target request.targetType
    (marshall lib parse request.requirements)

/-- `build_message_from_arguments`, of the simulation, with the result of `generate_new_uuid`. -/
def buildMessageFromArguments (lib : Libraries) (parse : Bytes → Json) (generated : UUIDv4)
    (jsonAdmissionRequest : Bytes) (priority : BitVec 32) (target : Bytes) (type : IdentifierType) :
    Option Message :=
  buildEar generated (UInt8.ofBitVec (priority.setWidth 8)) target type
    (marshall lib parse jsonAdmissionRequest)

/-- The other `build_message_from_arguments`. It leaves the reserved bits uninitialised. -/
def buildRepFromArguments (uninit : UInt8) (uuid : UUIDv4) (target : Bytes)
    (type : IdentifierType) :
    Option Message :=
  (copyTarget target).map fun listener => .rep headerVersion uuid type.code uninit listener

/-! ## Targets -/

/-- The number of bytes of an address. -/
def IdentifierType.size : IdentifierType → Nat
  | .simulation => 1
  | .mac => 6
  | .ipv4 => 4
  | .ipv6 => 16
  | .dds => 16

/-- `RANK_EAR_MESSAGE_LEN_LT_*`, by the names. -/
def IdentifierType.listenerCode : IdentifierType → UInt8
  | .simulation => 0
  | .ipv4 => 2
  | .mac => 3
  | .ipv6 => 4
  | .dds => 5

/-- The target that a message names. -/
def Message.target? : Message → Option (IdentifierType × Bytes)
  | .ear _ _ r | .mar _ _ r =>
    (typeOfCode r.listenerLength).map fun type => (type, address r.listenerLength r.listener)
  | .rep _ _ code _ listener => (typeOfCode code).map fun type => (type, address code listener)
  | .bid .. | .acc .. | .ref .. => none

/-- A message that brings a target to the other side. Its code stands at `shift`. -/
structure Carries (ulid : Ulid) (uninit : ListenerArray) (shift : UInt8) (type : IdentifierType)
    (target : Bytes) (m : Message) : Prop where
  raw : ∃ header first rest, m.rawPayload ulid = header ++ first :: (target ++ rest) ∧
    header.length = headerLen ∧ (first >>> shift) &&& 0x07 = type.listenerCode
  decoded : ∃ m', parseMessageFromBytes ulid uninit (m.rawPayload ulid) false = .ok (some m') ∧
    m'.target? = some (type, target)

section Targets

variable {ulid : Ulid} {uninit : ListenerArray} {type : IdentifierType} {target : Bytes}

theorem code_eq_listenerCode : type.code = type.listenerCode ↔ type ≠ .mac ∧ type ≠ .ipv4 := by
  cases type <;> decide

theorem addrLen?_listenerCode (type : IdentifierType) :
    addrLen? type.listenerCode = some type.size := by
  cases type <;> rfl

theorem typeOfCode_listenerCode (type : IdentifierType) :
    typeOfCode type.listenerCode = some type := by
  cases type <;> rfl

theorem size_le (type : IdentifierType) : type.size ≤ 16 := by
  cases type <;> decide

/-- Every kind is cast to a code that the encoder knows. -/
theorem addrLen?_code (type : IdentifierType) : ∃ len, addrLen? type.code = some len := by
  cases type <;> exact ⟨_, rfl⟩

theorem copyTarget_eq (hsize : target.length = type.size) :
    ∃ listener, copyTarget target = some listener ∧
      listener.toList.take target.length = target := by
  have hle : target.length ≤ 16 := hsize ▸ size_le type
  refine ⟨_, dif_pos hle, ?_⟩
  simp [Vector.toList]

/-- The address behind a listener code that is cast from its kind. -/
theorem address_code {listener : ListenerArray} (hcode : type.code = type.listenerCode)
    (hsize : target.length = type.size) (hlistener : listener.toList.take target.length = target) :
    address type.code listener = target := by
  rw [address, hcode, addrLen?_listenerCode, Option.getD_some, ← hsize, hlistener]

theorem length_marshalHeader (ulid : Ulid) (h : Header) : (marshalHeader ulid h).length =
    headerLen := by
  rw [marshalHeader, List.length_cons, marshallIntoVector, ulid.length_marshalBinary]
  rfl

/-- The byte behind the header of a message that carries a target. -/
theorem Carries.first_eq {shift first : UInt8} {m : Message} {header content : Bytes}
    (h : Carries ulid uninit shift type target m) (hheader : header.length = headerLen)
    (hraw : m.rawPayload ulid = header ++ first :: content) :
    (first >>> shift) &&& 0x07 = type.listenerCode := by
  obtain ⟨header', first', rest, hraw', hlength, hcode⟩ := h.raw
  obtain ⟨-, heq⟩ := List.append_inj (hraw.symm.trans hraw') (hheader.trans hlength.symm)
  rw [(List.cons.inj heq).1, hcode]

/-- An EAR whose code was cast from the kind of its target. -/
theorem carries_ear_iff {uuid : UUIDv4} {r : Request} (hcode : r.listenerLength = type.code)
    (hpayload : r.payloadLength.toNat ≤ r.payload.length) (hsize : target.length = type.size)
    (hlistener : r.listener.toList.take target.length = target) :
    Carries ulid uninit 2 type target (.ear headerVersion uuid r) ↔ type ≠ .mac ∧ type ≠ .ipv4 := by
  rw [← code_eq_listenerCode]
  obtain ⟨len, hlen⟩ := addrLen?_code type
  rw [← hcode] at hlen
  let m : Message := .ear headerVersion uuid r
  have hversion : m.version < 4 := show headerVersion < 4 by decide
  let first := (r.priority <<< 5) ||| ((r.listenerLength &&& 0x7) <<< 2) ||| (r.reserved &&& 0x3)
  have hfirst : (first >>> 2) &&& 0x07 = r.listenerLength :=
    (requestByte_fields r.priority (by rw [hlen]; rfl) r.reserved).2
  have hraw : m.rawPayload ulid = marshalHeader ulid m.header ++ ([first] ++
      r.listener.toList.take len ++ toBytesBE 2 r.payloadLength.toNat ++ r.payload) := by
    simp only [m, first, Message.rawPayload, Request.rawPayload, hlen, payloadLength_bytes,
      List.append_assoc]
  constructor
  · intro h
    have hbyte := h.first_eq (length_marshalHeader ulid m.header) (by simpa using hraw)
    rw [← hbyte, ← hcode]
    exact hfirst.symm
  · intro hsame
    have hlen' : len = target.length := by
      rw [hcode, hsame, addrLen?_listenerCode] at hlen
      rw [hsize, Option.some.inj hlen]
    constructor
    · refine ⟨_, first, toBytesBE 2 r.payloadLength.toNat ++ r.payload, ?_,
        length_marshalHeader ulid m.header, hfirst.trans (hcode.trans hsame)⟩
      rw [hraw, hlen', hlistener]
      simp
    · obtain ⟨r', hparse, -, hcode', haddress, -⟩ :=
        parse_ear ulid uninit hversion uuid hlen hpayload
      refine ⟨.ear headerVersion uuid r', hparse, ?_⟩
      have htarget : address r'.listenerLength r'.listener = target := by
        rw [haddress, hcode, address_code hsame hsize hlistener]
      rw [Message.target?, htarget, hcode', hcode, hsame, typeOfCode_listenerCode, Option.map_some]

/-- A REP whose code was cast from the kind of its target. -/
theorem carries_rep_iff {uuid : UUIDv4} {reserved : UInt8} {listener : ListenerArray}
    (hsize : target.length = type.size) (hlistener : listener.toList.take target.length = target) :
    Carries ulid uninit 5 type target (.rep headerVersion uuid type.code reserved listener) ↔
      type ≠ .mac ∧ type ≠ .ipv4 := by
  rw [← code_eq_listenerCode]
  obtain ⟨len, hlen⟩ := addrLen?_code type
  let m : Message := .rep headerVersion uuid type.code reserved listener
  have hversion : m.version < 4 := show headerVersion < 4 by decide
  let first := ((type.code &&& 0x7) <<< 5) ||| (reserved &&& 0x3)
  have hfirst : (first >>> 5) &&& 0x07 = type.code := repByte_fields _ (by rw [hlen]; rfl) reserved
  have hraw : m.rawPayload ulid = marshalHeader ulid m.header ++ ([first] ++
      listener.toList.take len) := by
    simp only [m, first, Message.rawPayload, repRawPayload, hlen, List.append_assoc]
  constructor
  · intro h
    have hbyte := h.first_eq (length_marshalHeader ulid m.header) (by simpa using hraw)
    rw [← hbyte]
    exact hfirst.symm
  · intro hsame
    have hlen' : len = target.length := by
      rw [hsame, addrLen?_listenerCode] at hlen
      rw [hsize, Option.some.inj hlen]
    constructor
    · refine ⟨_, first, [], ?_, length_marshalHeader ulid m.header, hfirst.trans hsame⟩
      rw [hraw, hlen', hlistener]
      simp
    · obtain ⟨listener', hdecode, haddress⟩ :=
        decodeRep_encode headerVersion uuid hlen reserved listener
      refine ⟨.rep headerVersion uuid type.code 0 listener', ?_, ?_⟩
      · rw [hraw, parse_marshal hversion]
        simp only [m, parseContent, Message.header, Message.type]
        exact (congrArg (· >>= fun m => pure (some m)) hdecode).trans rfl
      · simp only [Message.target?, haddress, address_code hsame hsize hlistener]
        rw [hsame, typeOfCode_listenerCode, Option.map_some]

/-- A length that is cut to 16 bits is not longer than it was. -/
theorem toNat_ofNat_le (n : Nat) : (UInt16.ofNat n).toNat ≤ n := by
  rw [UInt16.toNat_ofNat']
  exact Nat.mod_le n _

theorem buildEar_carries_iff {uuid : UUIDv4} {priority : UInt8} {payload : Bytes}
    (hsize : target.length = type.size) : ∃ m, buildEar uuid priority target type payload = some m ∧
      (Carries ulid uninit 2 type target m ↔ type ≠ .mac ∧ type ≠ .ipv4) := by
  obtain ⟨listener, hcopy, hlistener⟩ := copyTarget_eq hsize
  refine ⟨_, by rw [buildEar, hcopy, Option.map_some], ?_⟩
  exact carries_ear_iff rfl (toNat_ofNat_le _) hsize hlistener

/--
**The three builders put the target that they are asked for on the wire exactly if it is neither a
MAC nor an IPv4 address.**
-/
theorem target_carried_iff (lib : Libraries) (parse : Bytes → Json) (ulid : Ulid)
    (uninit : ListenerArray) (type : IdentifierType) (target : Bytes)
    (hsize : target.length = type.size) :
    (∀ request : AdmissionRequest, request.targetType = type → request.target = target →
      ∃ m, buildMessageFromAdmissionRequest lib parse request = some m ∧
        (Carries ulid uninit 2 type target m ↔ type ≠ .mac ∧ type ≠ .ipv4)) ∧
    (∀ generated json priority,
      ∃ m, buildMessageFromArguments lib parse generated json priority target type = some m ∧
        (Carries ulid uninit 2 type target m ↔ type ≠ .mac ∧ type ≠ .ipv4)) ∧
    ∀ reserved uuid, ∃ m, buildRepFromArguments reserved uuid target type = some m ∧
      (Carries ulid uninit 5 type target m ↔ type ≠ .mac ∧ type ≠ .ipv4) := by
  refine ⟨?_, fun _ _ _ => buildEar_carries_iff hsize, ?_⟩
  · rintro request rfl rfl
    exact buildEar_carries_iff hsize
  · intro reserved uuid
    obtain ⟨listener, hcopy, hlistener⟩ := copyTarget_eq hsize
    refine ⟨_, by rw [buildRepFromArguments, hcopy, Option.map_some], ?_⟩
    exact carries_rep_iff hsize hlistener

/-- An IPv6 address. -/
theorem target_carried_iff_ipv6 : List.length (List.replicate 16 (0xFE : UInt8)) = 16 ∧
    ∃ m, buildRepFromArguments 0 0 (List.replicate 16 0xFE) .ipv6 = some m ∧
      (Carries .bigEndian (Vector.replicate 16 0) 5 .ipv6 (List.replicate 16 0xFE) m ↔
        IdentifierType.ipv6 ≠ .mac ∧ IdentifierType.ipv6 ≠ .ipv4) :=
  ⟨by decide, (target_carried_iff .sample (fun _ => .null) .bigEndian (Vector.replicate 16 0) .ipv6
    (List.replicate 16 0xFE) (by decide)).2.2 0 0⟩

/-- A MAC address goes out as an IPv4 address, without its last two bytes. -/
theorem target_swapped : ∃ m m' : Message,
    buildMessageFromAdmissionRequest .sample (fun _ => .null) ⟨[], 0, [1, 2, 3, 4, 5, 6], .mac, 7⟩ =
      some m ∧
    ¬Carries .bigEndian (Vector.replicate 16 0) 2 .mac [1, 2, 3, 4, 5, 6] m ∧
    parseMessageFromBytes .bigEndian (Vector.replicate 16 0) (m.rawPayload .bigEndian) false =
      .ok (some m') ∧ m'.target? = some (.ipv4, [1, 2, 3, 4]) := by
  obtain ⟨m, hm, hcarries⟩ : ∃ m, buildMessageFromAdmissionRequest .sample (fun _ => .null)
      ⟨[], 0, [1, 2, 3, 4, 5, 6], .mac, 7⟩ = some m ∧
      (Carries .bigEndian (Vector.replicate 16 0) 2 .mac [1, 2, 3, 4, 5, 6] m ↔
        IdentifierType.mac ≠ .mac ∧ IdentifierType.mac ≠ .ipv4) := buildEar_carries_iff rfl
  have hdecoded : (buildMessageFromAdmissionRequest .sample (fun _ => .null)
      ⟨[], 0, [1, 2, 3, 4, 5, 6], .mac, 7⟩).any (fun m =>
        (parseMessageFromBytes .bigEndian (Vector.replicate 16 0) (m.rawPayload .bigEndian)
          false).toOption.join.any fun m' => m'.target? = some (.ipv4, [1, 2, 3, 4])) = true := by
    decide +kernel
  rw [hm, Option.any_some] at hdecoded
  have hnot := fun h => (hcarries.mp h).1 rfl
  rcases hparse : parseMessageFromBytes .bigEndian (Vector.replicate 16 0) (m.rawPayload .bigEndian)
    false with e | (_ | m')
  · rw [hparse] at hdecoded
    cases hdecoded
  · rw [hparse] at hdecoded
    cases hdecoded
  · rw [hparse] at hdecoded
    exact ⟨m, m', hm, hnot, hparse, of_decide_eq_true hdecoded⟩

end Targets

/-! ## Sessions of requests -/

abbrev OriginSet := OrdMap UUIDv4 UInt8

/-- `mark_origin`. The pid is cut to a byte, and `insert` keeps an entry that is there. -/
def OriginSet.markOrigin (uuid : UUIDv4) (pid : BitVec 32) (set : OriginSet) : OriginSet :=
  set.insertNew uuid (UInt8.ofBitVec (pid.setWidth 8))

def OriginSet.removeAsOrigin (uuid : UUIDv4) (set : OriginSet) : Bool × OriginSet :=
  if set.contains uuid then (true, set.erase uuid) else (false, set)

/-- `get_pid_on_origin`, `none` where it reads the end of the map. -/
def OriginSet.getPidOnOrigin (uuid : UUIDv4) (set : OriginSet) : Option (BitVec 32) :=
  (set.find? uuid).map fun pid => pid.toBitVec.setWidth 32

/-- How a build of the API turns a request into an EAR, and the pid it marks the origin with. -/
structure Builder (ρ : Type) where
  message : ρ → Option Message
  pid : ρ → BitVec 32

/-- A round of `API::operator()`. -/
def Builder.daemon (lib : Libraries) (parse : Bytes → Json) : Builder AdmissionRequest where
  message := buildMessageFromAdmissionRequest lib parse
  pid := AdmissionRequest.pid

/-- A call of `deliver_request`, with the UUID that it generates. Its pid is that of its own
node. -/
structure Delivery where
  generated : UUIDv4
  jsonAdmissionRequest : Bytes
  priority : BitVec 32
  target : Bytes
  type : IdentifierType
  pid : BitVec 32

def Builder.simulation (lib : Libraries) (parse : Bytes → Json) : Builder Delivery where
  message d := buildMessageFromArguments lib parse d.generated d.jsonAdmissionRequest d.priority
    d.target d.type
  pid := Delivery.pid

inductive ApiEvent (ρ : Type)
  | request (r : ρ)
  | remove (uuid : UUIDv4)

/-- The EARs handed to the dispatcher, each with the pid of its request, and the origins. -/
structure ApiState where
  ears : List (Message × BitVec 32)
  originSet : OriginSet

def ApiState.initial : ApiState := ⟨[], ∅⟩

def ApiState.uuids (s : ApiState) : List UUIDv4 := s.ears.map (·.1.uuid)

/-- `none` where the EAR cannot be built. -/
def ApiEvent.step {ρ : Type} (b : Builder ρ) (s : ApiState) : ApiEvent ρ → Option ApiState
  | .request r => (b.message r).map fun ear => {
      ears := s.ears ++ [(ear, b.pid r)]
      originSet := OriginSet.markOrigin ear.uuid (b.pid r) s.originSet }
  | .remove uuid => some { s with originSet := (OriginSet.removeAsOrigin uuid s.originSet).2 }

def runApi {ρ : Type} (b : Builder ρ) : List (ApiEvent ρ) → ApiState → Option ApiState
  | [], s => some s
  | event :: rest, s => (event.step b s).bind (runApi b rest)

def requestsOf {ρ : Type} (events : List (ApiEvent ρ)) : List ρ :=
  events.filterMap fun
    | .request r => some r
    | .remove _ => none

/-- Each request has a session of its own, under which its pid is found until it is removed. -/
structure OwnSessions {ρ : Type} (events : List (ApiEvent ρ)) (s : ApiState) : Prop where
  distinct : s.uuids.Nodup
  pids : ∀ e ∈ s.ears, .remove e.1.uuid ∉ events →
    OriginSet.getPidOnOrigin e.1.uuid s.originSet = some e.2

/-- What a node does with its origins. -/
theorem perform_markOrigin (env : Env) (uuid : UUIDv4) (pid : BitVec 32) (n : Node) :
    (perform env (.markOrigin uuid (UInt8.ofBitVec (pid.setWidth 8)))).run n =
      (.ok (), { n with originSet := OriginSet.markOrigin uuid pid n.originSet }) := rfl

theorem run_removeAsOrigin (uuid : UUIDv4) (t : Thread) : (removeAsOrigin uuid).run t =
    (.ok (), { t with originSet := (OriginSet.removeAsOrigin uuid t.originSet).2 }) := by
  unfold removeAsOrigin OriginSet.removeAsOrigin
  by_cases h : t.originSet.contains uuid = true
  · simp [h, Prog.modify]
  · simp [h, Prog.modify]

section Sessions

variable {ρ : Type} {b : Builder ρ} {events : List (ApiEvent ρ)} {s s' : ApiState}

@[simp] theorem find?_removeAsOrigin (uuid : UUIDv4) (set : OriginSet) (u : UUIDv4) :
    (OriginSet.removeAsOrigin uuid set).2.find? u = if u = uuid then none else set.find? u := by
  unfold OriginSet.removeAsOrigin
  split
  · simp
  next h =>
    split
    next heq =>
      subst heq
      exact OrdMap.contains_eq_false.mp (Bool.eq_false_iff.mpr h)
    next => rfl

/-- A byte holds the pids up to 255. -/
theorem setWidth_pid {pid : BitVec 32} : (pid.setWidth 8).setWidth 32 = pid ↔ pid.toNat < 256 := by
  rw [← BitVec.toNat_inj]
  simp only [BitVec.toNat_setWidth]
  omega

/-- All origins are sessions of EARs, and the sessions that nobody removes are origins. -/
structure ApiState.Marked (removed : UUIDv4 → Prop) (s : ApiState) : Prop where
  known : ∀ u ∈ s.originSet.keys, u ∈ s.uuids
  kept : ∀ e ∈ s.ears, ¬removed e.1.uuid →
    s.originSet.find? e.1.uuid = some (UInt8.ofBitVec (e.2.setWidth 8))

theorem ApiEvent.step_ears {event : ApiEvent ρ} (h : event.step b s = some s') :
    ∃ added, s'.ears = s.ears ++ added := by
  cases event with
  | request r =>
    obtain ⟨ear, -, rfl⟩ := Option.map_eq_some_iff.mp h
    exact ⟨_, rfl⟩
  | remove uuid =>
    cases h
    exact ⟨[], by simp⟩

theorem ApiState.Marked.step {removed : UUIDv4 → Prop} {event : ApiEvent ρ} (hs : s.Marked removed)
    (h : event.step b s = some s') (hremoved : ∀ u, event = .remove u → removed u)
    (hdistinct : s'.uuids.Nodup) : s'.Marked removed := by
  cases event with
  | request r =>
    obtain ⟨ear, hear, rfl⟩ := Option.map_eq_some_iff.mp h
    have huuids : (s.uuids ++ [ear.uuid]).Nodup := by simpa [ApiState.uuids] using hdistinct
    have hnew : ear.uuid ∉ s.uuids := fun hmem =>
      (List.nodup_append.mp huuids).2.2 _ hmem _ List.mem_cons_self rfl
    have hfree : s.originSet.find? ear.uuid = none := by
      rw [← OrdMap.contains_eq_false, Bool.eq_false_iff, Ne, OrdMap.contains_iff_mem]
      exact mt (hs.known _) hnew
    constructor
    · intro u hu
      obtain ⟨pid, hpid⟩ := OrdMap.mem_keys.mp hu
      rw [OriginSet.markOrigin, OrdMap.find?_insertNew] at hpid
      simp only [ApiState.uuids, List.map_append, List.mem_append, List.map_singleton,
        List.mem_singleton]
      by_cases heq : u = ear.uuid
      · exact Or.inr heq
      · rw [if_neg heq] at hpid
        exact Or.inl (hs.known u (OrdMap.mem_keys.mpr ⟨pid, hpid⟩))
    · intro e he hkept
      rw [OriginSet.markOrigin, OrdMap.find?_insertNew]
      rcases List.mem_append.mp he with he | he
      · have hne : e.1.uuid ≠ ear.uuid := fun heq =>
          hnew (heq ▸ List.mem_map_of_mem (f := fun e => e.1.uuid) he)
        rw [if_neg hne, hs.kept e he hkept]
      · rw [List.mem_singleton.mp he, if_pos rfl, hfree, Option.getD_none]
  | remove uuid =>
    cases h
    constructor
    · intro u hu
      obtain ⟨pid, hpid⟩ := OrdMap.mem_keys.mp hu
      rw [find?_removeAsOrigin] at hpid
      split at hpid
      · cases hpid
      · exact hs.known u (OrdMap.mem_keys.mpr ⟨pid, hpid⟩)
    · intro e he hkept
      rw [find?_removeAsOrigin, if_neg, hs.kept e he hkept]
      rintro rfl
      exact hkept (hremoved _ rfl)

theorem runApi_ears (h : runApi b events s = some s') : ∃ added, s'.ears = s.ears ++ added := by
  induction events generalizing s with
  | nil =>
    cases h
    exact ⟨[], by simp⟩
  | cons event rest ih =>
    obtain ⟨s₁, hstep, hrest⟩ := Option.bind_eq_some_iff.mp h
    obtain ⟨first, hfirst⟩ := event.step_ears hstep
    obtain ⟨added, hadded⟩ := ih hrest
    exact ⟨first ++ added, by rw [hadded, hfirst, List.append_assoc]⟩

theorem ApiState.Marked.run {removed : UUIDv4 → Prop} (hs : s.Marked removed)
    (h : runApi b events s = some s') (hremoved : ∀ u, .remove u ∈ events → removed u)
    (hdistinct : s'.uuids.Nodup) : s'.Marked removed := by
  induction events generalizing s with
  | nil =>
    cases h
    exact hs
  | cons event rest ih =>
    obtain ⟨s₁, hstep, hrest⟩ := Option.bind_eq_some_iff.mp h
    obtain ⟨added, hadded⟩ := runApi_ears hrest
    have hfirst : s₁.uuids.Nodup := by
      rw [ApiState.uuids, hadded, List.map_append] at hdistinct
      exact (List.nodup_append.mp hdistinct).1
    refine ih (hs.step hstep ?_ hfirst) hrest fun u hu => hremoved u (List.mem_cons_of_mem _ hu)
    rintro u rfl
    exact hremoved u List.mem_cons_self

/-- The EARs are those of the requests, in their order. -/
theorem runApi_requests {uuid : ρ → UUIDv4} (hb : ∀ r m, b.message r = some m → m.uuid = uuid r)
    (h : runApi b events s = some s') : s'.ears.map (fun e => (e.1.uuid, e.2)) =
      s.ears.map (fun e => (e.1.uuid, e.2)) ++ (requestsOf events).map fun r =>
      (uuid r, b.pid r) := by
  induction events generalizing s with
  | nil =>
    cases h
    simp [requestsOf]
  | cons event rest ih =>
    obtain ⟨s₁, hstep, hrest⟩ := Option.bind_eq_some_iff.mp h
    rw [ih hrest]
    cases event with
    | request r =>
      obtain ⟨ear, hear, rfl⟩ := Option.map_eq_some_iff.mp hstep
      simp [requestsOf, hb r ear hear]
    | remove uuid =>
      cases hstep
      simp [requestsOf]

/-- Requests have sessions of their own if their UUIDs differ and their pids fit in a byte. -/
theorem own_sessions_of_uuid {uuid : ρ → UUIDv4}
    (hb : ∀ r m, b.message r = some m → m.uuid = uuid r)
    (h : runApi b events .initial = some s) : OwnSessions events s ↔
      ((requestsOf events).map uuid).Nodup ∧
        ∀ r ∈ requestsOf events, .remove (uuid r) ∉ events → (b.pid r).toNat < 256 := by
  have hears := runApi_requests hb h
  simp only [ApiState.initial, List.map_nil, List.nil_append] at hears
  have huuids : s.uuids = (requestsOf events).map uuid := by
    have := congrArg (List.map Prod.fst) hears
    simpa [ApiState.uuids, Function.comp_def] using this
  have hinitial : ApiState.initial.Marked fun u => .remove u ∈ events := by
    constructor <;> simp [ApiState.initial]
  have hmarked : s.uuids.Nodup → s.Marked fun u => .remove u ∈ events := fun hdistinct =>
    hinitial.run h (fun _ hu => hu) hdistinct
  constructor
  · intro hown
    refine ⟨huuids ▸ hown.distinct, fun r hr hkept => ?_⟩
    obtain ⟨e, he, heq⟩ := List.mem_map.mp (hears.symm ▸ List.mem_map_of_mem hr)
    obtain ⟨hu, hp⟩ := Prod.mk.inj heq
    have hpid := hown.pids e he (hu.symm ▸ hkept)
    rw [OriginSet.getPidOnOrigin, (hmarked hown.distinct).kept e he (hu.symm ▸ hkept),
      Option.map_some] at hpid
    rw [← hp]
    exact setWidth_pid.mp (Option.some.inj hpid)
  · rintro ⟨hdistinct, hpids⟩
    rw [← huuids] at hdistinct
    refine ⟨hdistinct, fun e he hkept => ?_⟩
    obtain ⟨r, hr, heq⟩ := List.mem_map.mp (hears ▸ List.mem_map_of_mem he)
    obtain ⟨hu, hp⟩ := Prod.mk.inj heq
    rw [OriginSet.getPidOnOrigin, (hmarked hdistinct).kept e he hkept, Option.map_some]
    refine congrArg some (setWidth_pid.mpr ?_)
    rw [← hp]
    exact hpids r hr (hu.symm ▸ hkept)

theorem buildEar_uuid {uuid : UUIDv4} {priority : UInt8} {target payload : Bytes}
    {type : IdentifierType} {m : Message}
    (h : buildEar uuid priority target type payload = some m) :
    m.uuid = uuid := by
  obtain ⟨listener, -, rfl⟩ := Option.map_eq_some_iff.mp h
  rfl

/--
**Requests have sessions of their own** in the daemon exactly if there is at most one of them, and
in both builds exactly if the pids fit in a byte, but for those of sessions that are removed.
-/
theorem own_sessions_iff (lib : Libraries) (parse : Bytes → Json) :
    (∀ events s, runApi (.daemon lib parse) events .initial = some s → (OwnSessions events s ↔
      (requestsOf events).length ≤ 1 ∧
        ∀ r ∈ requestsOf events, .remove 0 ∉ events → r.pid.toNat < 256)) ∧
    ∀ events s, runApi (.simulation lib parse) events .initial = some s →
      ((requestsOf events).map fun d => timestamp d.generated).Nodup → (OwnSessions events s ↔
        ∀ d ∈ requestsOf events, .remove d.generated ∉ events → d.pid.toNat < 256) := by
  constructor
  · intro events s h
    have huuid : ∀ r m, (Builder.daemon lib parse).message r = some m →
        m.uuid = Function.const AdmissionRequest 0 r := fun _ _ hm => buildEar_uuid hm
    rw [own_sessions_of_uuid huuid h]
    refine and_congr_left fun _ => ?_
    rw [List.map_const, List.nodup_replicate]
  · intro events s h hgenerated
    have hdistinct : ((requestsOf events).map Delivery.generated).Nodup := by
      refine List.Nodup.of_map timestamp ?_
      rwa [List.map_map]
    have huuid : ∀ d m, (Builder.simulation lib parse).message d = some m →
        m.uuid = Delivery.generated d := fun _ _ hm => buildEar_uuid hm
    rw [own_sessions_of_uuid huuid h]
    exact and_iff_right hdistinct

/-- Two requests of the simulation, and the end of a session that it does not know. -/
def sampleDeliveries : List (ApiEvent Delivery) :=
  [.request ⟨generateNewUuidWith .bigEndian 7 0, [], 1, [9], .simulation, 105⟩,
    .remove (generateNewUuidWith .bigEndian 8 0),
    .request ⟨generateNewUuidWith .bigEndian 9 0, [], 1, [9], .simulation, 106⟩]

theorem own_sessions_iff_two : ∃ s,
    runApi (.simulation .sample fun _ => .null) sampleDeliveries .initial = some s ∧
    (OwnSessions sampleDeliveries s ↔ ∀ d ∈ requestsOf sampleDeliveries,
      .remove d.generated ∉ sampleDeliveries → d.pid.toNat < 256) := by
  refine ⟨_, rfl, (own_sessions_iff .sample fun _ => .null).2 sampleDeliveries _ rfl ?_⟩
  decide +kernel

/-- Two requests of the daemon. -/
theorem own_sessions_shared : ∃ s, runApi (.daemon .sample fun _ => .null)
      [.request ⟨[], 1, [9], .simulation, 7⟩, .request ⟨[], 1, [9], .simulation, 8⟩] .initial =
        some s ∧
    ¬OwnSessions (ρ := AdmissionRequest)
      [.request ⟨[], 1, [9], .simulation, 7⟩, .request ⟨[], 1, [9], .simulation, 8⟩] s := by
  refine ⟨_, rfl, fun h => ?_⟩
  exact absurd h.distinct (by decide +kernel)

end Sessions

/-! ## Priority and payload -/

/-- An EAR that brings its priority and its payload to the other side. -/
def Survives (ulid : Ulid) (uninit : ListenerArray) (priority : Int) (payload : Bytes)
    (m : Message) : Prop :=
  ∃ version uuid r, parseMessageFromBytes ulid uninit (m.rawPayload ulid) false =
      .ok (some (.ear version uuid r)) ∧
    (r.priority.toNat : Int) = priority ∧ r.payload = payload

section Survives

variable {ulid : Ulid} {uninit : ListenerArray} {uuid : UUIDv4} {priority : UInt8}
  {target payload : Bytes} {type : IdentifierType}

theorem toNat_and_seven (p : UInt8) : (p &&& 0x07).toNat = p.toNat % 8 :=
  forall_byte (p := fun p => (p &&& 0x07).toNat = p.toNat % 8) (by decide +kernel) p

/-- Of a payload as many bytes arrive as the lower 16 bits of its length say. -/
theorem take_ofNat_length : payload.take (UInt16.ofNat payload.length).toNat = payload ↔
    payload.length < 2 ^ 16 := by
  rw [List.take_eq_self_iff, UInt16.toNat_ofNat']
  omega

/-- An EAR is built for a target that fits in the array, and keeps three bits of the priority. -/
theorem buildEar_survives_iff {n : Int} :
    (∃ m, buildEar uuid priority target type payload = some m ∧
      Survives ulid uninit n payload m) ↔
    target.length ≤ 16 ∧ n = priority.toNat % 8 ∧ payload.length < 2 ^ 16 := by
  unfold buildEar copyTarget
  by_cases hsize : target.length ≤ 16
  swap
  · simp [hsize]
  rw [dif_pos hsize, Option.map_some, and_iff_right hsize]
  obtain ⟨len, hlen⟩ := addrLen?_code type
  have hversion : headerVersion < 4 := by decide
  let sent : Request := {
    priority := priority
    listenerLength := type.code
    reserved := 0
    listener := ⟨(target ++ List.replicate (16 - target.length) 0).toArray, by simp; omega⟩
    payloadLength := UInt16.ofNat payload.length
    payload := payload }
  -- The EAR is decoded in the same way whatever is in it.
  obtain ⟨r, hparse, hpriority, -, -, -, hpayload⟩ :=
    parse_ear ulid uninit hversion uuid (r := sent) hlen (toNat_ofNat_le _)
  have hbits : (r.priority.toNat : Int) = priority.toNat % 8 := by
    rw [hpriority, toNat_and_seven]
    rfl
  constructor
  · rintro ⟨m, hm, version, u, r', hparse', hn, hp⟩
    cases hm
    rw [hparse] at hparse'
    cases hparse'
    refine ⟨hn.symm.trans hbits, take_ofNat_length.mp ?_⟩
    rw [← hpayload, hp]
  · rintro ⟨hn, hlength⟩
    refine ⟨_, rfl, headerVersion, uuid, r, hparse, hbits.trans hn.symm, ?_⟩
    rw [hpayload]
    exact take_ofNat_length.mpr hlength

/--
**The priority and the payload of a request arrive at the next hop** exactly if the priority
is one of 0 to 7 and the payload is shorter than 2^16 bytes (and the target fits in the
array of the listener).
-/
theorem request_survives_iff (lib : Libraries) (parse : Bytes → Json) (ulid : Ulid)
    (uninit : ListenerArray) :
    (∀ request : AdmissionRequest,
      (∃ m, buildMessageFromAdmissionRequest lib parse request = some m ∧
        Survives ulid uninit request.priority.toNat (marshall lib parse request.requirements) m) ↔
      request.target.length ≤ 16 ∧ request.priority.toNat ≤ 7 ∧
        (marshall lib parse request.requirements).length < 2 ^ 16) ∧
    ∀ generated json (priority : BitVec 32) target type,
      (∃ m, buildMessageFromArguments lib parse generated json priority target type = some m ∧
        Survives ulid uninit priority.toInt (marshall lib parse json) m) ↔
      target.length ≤ 16 ∧ (0 ≤ priority.toInt ∧ priority.toInt ≤ 7) ∧
        (marshall lib parse json).length < 2 ^ 16 := by
  constructor
  · intro request
    refine buildEar_survives_iff.trans (and_congr_right fun _ => and_congr_left fun _ => ?_)
    omega
  · intro generated json priority target type
    refine buildEar_survives_iff.trans (and_congr_right fun _ => and_congr_left fun _ => ?_)
    have hbyte : (UInt8.ofBitVec (priority.setWidth 8)).toNat = priority.toNat % 256 :=
      BitVec.toNat_setWidth ..
    have hint := BitVec.toInt_eq_toNat_cond priority
    have hlt := priority.isLt
    rw [hbyte]
    split_ifs at hint
    · omega
    · omega

/-- A request of the simulation with priority 8 arrives with priority 0. -/
theorem request_survives_eight : ¬∀ (lib : Libraries) (parse : Bytes → Json) (ulid : Ulid)
    (uninit : ListenerArray) (generated : UUIDv4) (json : Bytes) (priority : BitVec 32)
    (target : Bytes) (type : IdentifierType), target.length = type.size →
    ∃ m, buildMessageFromArguments lib parse generated json priority target type = some m ∧
      Survives ulid uninit priority.toInt (marshall lib parse json) m := by
  intro hall
  have hbuilt := buildEar_survives_iff.mp (hall .sample (fun _ => .null) .bigEndian
    (Vector.replicate 16 0) 0 [] 8 [9] .simulation rfl)
  exact absurd hbuilt.2.1 (by decide)

end Survives

end Rankd

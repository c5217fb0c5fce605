import Rankd.Infra.Prog
import Rankd.Wire.Identifier

/-!
# Requests of clients

`include/rankd-api.h` and the receive loop of `structs/dispatchers/api.cpp`, outside of the
simulation build: clients serialise a request and write it to the FIFO of the server, followed by a
delimiter.

* `deserialize_serializeToRank_iff`: when a request comes back as it was. Both sides shift the bytes
  of an integer by 3, 2, 1 and 0 bits, so that its lower eleven bits survive, and the two tables of
  identifier types have MAC and IPv4 the other way round
* `handed_eq_iff`: the server looks for the delimiter only in front of all other bytes
  (`foundDelimiter`), so it hands no request that was written to `deserialize`
-/

namespace Rankd

open Infra Prog

structure AdmissionRequest where
  requirements : Bytes
  priority : UInt8
  target : Bytes
  targetType : IdentifierType
  pid : BitVec 32
  deriving DecidableEq, Repr

/-! ## The codec -/

/-- `static_cast<uint8_t>(type)`. -/
def IdentifierType.code : IdentifierType → UInt8
  | .simulation => 0
  | .mac => 2
  | .ipv4 => 3
  | .ipv6 => 4
  | .dds => 5

/-- The `switch` over `target_type_code`, `none` where it throws. -/
def typeOfCode (code : UInt8) : Option IdentifierType :=
  if code = 0 then some .simulation
  else if code = 2 then some .ipv4
  else if code = 3 then some .mac
  else if code = 4 then some .ipv6
  else if code = 5 then some .dds
  else none

/-- The values of `i` in the loops over the bytes of an integer. -/
def shifts : List Nat := [3, 2, 1, 0]

/-- `(value >> i) & 0xFF` for every `i`. -/
def writeShifted (value : BitVec 32) : Bytes :=
  shifts.map fun i => UInt8.ofBitVec (((value >>> i) &&& 0xFF).setWidth 8)

/-- `serialize_to_rank`. -/
def serializeToRank (request : AdmissionRequest) : Bytes :=
  writeShifted (BitVec.ofNat 32 request.requirements.length) ++ request.requirements ++
    [request.priority, request.targetType.code, UInt8.ofNat request.target.length] ++
    request.target ++ writeShifted request.pid

inductive ReadFault
  /-- `serialized[pointer]` behind the end. -/
  | pastEnd
  | exception
  deriving DecidableEq, Repr

/-- A reader of `serialized`. Its state is what `pointer` has not passed yet. -/
abbrev ReadM := Prog Bytes ReadFault

/-- `serialized[pointer++]`. -/
def nextByte : ReadM UInt8 where
  run
    | [] => (.error .pastEnd, [])
    | byte :: rest => (.ok byte, rest)

/-- A loop that reads the given number of bytes. -/
def nextBytes : Nat → ReadM Bytes
  | 0 => pure []
  | length + 1 => do
    let byte ← nextByte
    let rest ← nextBytes length
    return byte :: rest

/-- `value |= serialized[pointer++] << i` for every `i`. -/
def readShifted (value : BitVec 32) : List Nat → ReadM (BitVec 32)
  | [] => pure value
  | i :: rest => do
    let byte ← nextByte
    readShifted (value ||| (byte.toBitVec.setWidth 32 <<< i)) rest

/-- The body of `deserialize`. -/
def readRequest : ReadM AdmissionRequest := do
  let requirementsLength ← readShifted 0 shifts
  let requirements ← nextBytes requirementsLength.toNat
  let priority ← nextByte
  let targetTypeCode ← nextByte
  let targetType ← Prog.require (typeOfCode targetTypeCode) .exception
  let targetLength ← nextByte
  let target ← nextBytes targetLength.toNat
  let pid ← readShifted 0 shifts
  return ⟨requirements, priority, target, targetType, pid⟩

def deserialize (serialized : Bytes) : Except ReadFault AdmissionRequest :=
  (readRequest.run serialized).1

section Codec

theorem run_nextBytes (l rest : Bytes) : (nextBytes l.length).run (l ++ rest) = (.ok l, rest) := by
  induction l with
  | nil => rfl
  | cons byte l ih =>
    have hbyte : nextByte.run (byte :: (l ++ rest)) = (.ok byte, l ++ rest) := rfl
    rw [List.length_cons, nextBytes, List.cons_append, bind_ok hbyte, bind_ok ih, run_pure]

theorem length_nextBytes {n : Nat} {s s' l : Bytes} (h : (nextBytes n).run s = (.ok l, s')) :
    l.length = n := by
  induction n generalizing s l with
  | zero =>
    cases h
    rfl
  | succ n ih =>
    rw [nextBytes] at h
    obtain ⟨byte, s₁, -, hrest⟩ := bind_eq_ok.mp h
    obtain ⟨rest, s₂, hbytes, hpure⟩ := bind_eq_ok.mp hrest
    cases hpure
    rw [List.length_cons, ih hbytes]

/-- The lower eleven bits of an integer come back. -/
theorem run_readShifted (value : BitVec 32) (rest : Bytes) :
    (readShifted 0 shifts).run (writeShifted value ++ rest) = (.ok (value &&& 0x7FF), rest) := by
  have hbits : (0 : BitVec 32) ||| ((((value >>> 3) &&& 0xFF).setWidth 8).setWidth 32 <<< 3) |||
      ((((value >>> 2) &&& 0xFF).setWidth 8).setWidth 32 <<< 2) |||
      ((((value >>> 1) &&& 0xFF).setWidth 8).setWidth 32 <<< 1) |||
      ((((value >>> 0) &&& 0xFF).setWidth 8).setWidth 32 <<< 0) = value &&& 0x7FF := by
    refine BitVec.eq_of_getLsbD_eq ?_
    intro i hi
    interval_cases i <;> simp
  rw [← hbits]
  rfl

theorem toNat_and_mask (value : BitVec 32) : (value &&& 0x7FF).toNat = value.toNat % 2048 := by
  rw [BitVec.toNat_and]
  exact Nat.and_two_pow_sub_one_eq_mod value.toNat 11

theorem length_writeShifted (value : BitVec 32) : (writeShifted value).length = 4 := by
  rw [writeShifted, List.length_map]
  rfl

/-- The types that both tables agree on. -/
theorem typeOfCode_code {type : IdentifierType} :
    typeOfCode type.code = some type ↔ type ≠ .mac ∧ type ≠ .ipv4 := by
  cases type <;> decide

theorem typeOfCode_code_isSome (type : IdentifierType) : ∃ type', typeOfCode type.code =
    some type' := by
  cases type <;> exact ⟨_, rfl⟩

/-- A request with short requirements is read field by field. -/
theorem deserialize_short {request : AdmissionRequest} {type : IdentifierType}
    (hlength : request.requirements.length < 2048) (htarget : request.target.length ≤ 255)
    (htype : typeOfCode request.targetType.code = some type) :
    deserialize (serializeToRank request) = .ok { request with
      targetType := type
      pid := request.pid &&& 0x7FF } := by
  have hreq : (BitVec.ofNat 32 request.requirements.length &&& 0x7FF).toNat =
      request.requirements.length := by
    rw [toNat_and_mask, BitVec.toNat_ofNat, Nat.mod_eq_of_lt (a := request.requirements.length)]
    · exact Nat.mod_eq_of_lt hlength
    · omega
  have hlen : (UInt8.ofNat request.target.length).toNat = request.target.length := by
    rw [UInt8.toNat_ofNat']
    omega
  have hpid : (readShifted 0 shifts).run (writeShifted request.pid) =
      (.ok (request.pid &&& 0x7FF), []) := by
    have h := run_readShifted request.pid []
    rw [List.append_nil] at h
    exact h
  have hnext : ∀ (byte : UInt8) (rest : Bytes),
      nextByte.run (byte :: rest) = (.ok byte, rest) := fun _ _ => rfl
  have hbytes := run_nextBytes request.target (writeShifted request.pid)
  rw [← hlen] at hbytes
  have hrequirements := run_nextBytes request.requirements ([request.priority,
    request.targetType.code, UInt8.ofNat request.target.length] ++
    (request.target ++ writeShifted request.pid))
  rw [← hreq] at hrequirements
  simp only [deserialize, readRequest, serializeToRank, List.append_assoc]
  rw [bind_ok (run_readShifted _ _), bind_ok hrequirements]
  simp only [List.cons_append, List.nil_append]
  rw [bind_ok (hnext _ _), bind_ok (hnext _ _), htype, require_some, pure_bind, bind_ok (hnext _ _),
    bind_ok hbytes, bind_ok hpid, run_pure]

/-- What is read has as many bytes of requirements as the lower eleven bits say. -/
theorem length_requirements {request read : AdmissionRequest}
    (h : deserialize (serializeToRank request) = .ok read) :
    read.requirements.length = request.requirements.length % 2048 := by
  rcases hr : readRequest.run (serializeToRank request) with ⟨r, s⟩
  rw [deserialize, hr] at h
  cases h
  simp only [readRequest, serializeToRank, List.append_assoc] at hr
  rw [bind_ok (run_readShifted _ _)] at hr
  obtain ⟨requirements, s₁, hbytes, hrest⟩ := bind_eq_ok.mp hr
  obtain ⟨_, s₂, -, hrest⟩ := bind_eq_ok.mp hrest
  obtain ⟨_, s₃, -, hrest⟩ := bind_eq_ok.mp hrest
  obtain ⟨_, s₄, -, hrest⟩ := bind_eq_ok.mp hrest
  obtain ⟨_, s₅, -, hrest⟩ := bind_eq_ok.mp hrest
  obtain ⟨_, s₆, -, hrest⟩ := bind_eq_ok.mp hrest
  obtain ⟨_, s₇, -, hrest⟩ := bind_eq_ok.mp hrest
  cases hrest
  rw [length_nextBytes hbytes, toNat_and_mask, BitVec.toNat_ofNat]
  omega

/--
**When a request comes back as it was**, without reading past its end: its requirements have less
than 2048 bytes, its pid is less than 2048, and its target is neither a MAC nor an IPv4 address.
-/
theorem deserialize_serializeToRank_iff (request : AdmissionRequest)
    (htarget : request.target.length ≤ 255) :
    deserialize (serializeToRank request) = .ok request ↔
      request.requirements.length < 2048 ∧ request.pid.toNat < 2048 ∧
        request.targetType ≠ .mac ∧ request.targetType ≠ .ipv4 := by
  constructor
  · intro h
    have hlength : request.requirements.length < 2048 := by
      have := length_requirements h
      omega
    obtain ⟨type, htype⟩ := typeOfCode_code_isSome request.targetType
    rw [deserialize_short hlength htarget htype] at h
    have heq := Except.ok.inj h
    have htype' : type = request.targetType := congrArg AdmissionRequest.targetType heq
    have hpid : request.pid &&& 0x7FF = request.pid := congrArg AdmissionRequest.pid heq
    have hpid' := congrArg BitVec.toNat hpid
    rw [toNat_and_mask] at hpid'
    rw [htype'] at htype
    exact ⟨hlength, by omega, typeOfCode_code.mp htype⟩
  · rintro ⟨hlength, hpid, htype⟩
    rw [deserialize_short hlength htarget (typeOfCode_code.mpr htype)]
    have hmask : request.pid &&& 0x7FF = request.pid := by
      refine BitVec.eq_of_toNat_eq ?_
      rw [toNat_and_mask, Nat.mod_eq_of_lt hpid]
    rw [hmask]

theorem deserialize_serializeToRank_sim :
    deserialize (serializeToRank ⟨[0x7B, 0x7D], 1, [9], .simulation, 2047⟩) =
      .ok ⟨[0x7B, 0x7D], 1, [9], .simulation, 2047⟩ :=
  (deserialize_serializeToRank_iff ⟨[0x7B, 0x7D], 1, [9], .simulation, 2047⟩ (by decide)).mpr
    (by decide)

/-- A pid of 2048 comes back as 0. -/
theorem deserialize_serializeToRank_pid : ¬∀ request :
    AdmissionRequest, request.target.length ≤ 255 →
    deserialize (serializeToRank request) = .ok request := by
  intro h
  exact absurd (h ⟨[], 1, [9], .simulation, 2048⟩ (by decide)) (by decide)

end Codec

/-! ## The FIFO -/

/-- `RANK_FIFO_DELIMITER`. -/
def fifoDelimiter : Bytes := [0x23, 0x52, 0x41, 0x4e, 0x4b, 0x23]

/-- What the clients write. -/
def written (requests : List AdmissionRequest) : Bytes :=
  requests.flatMap fun request => serializeToRank request ++ fifoDelimiter

/-- `found_delimiter`. -/
def foundDelimiter (bytestream : Bytes) : Bool :=
  if bytestream.length ≠ fifoDelimiter.length then false else fifoDelimiter == bytestream

/-- The variables of `API::operator()`, and whether a read of the FIFO has failed. -/
structure Server where
  tester : Bytes
  bytestream : Bytes
  failed : Bool

def Server.initial : Server := ⟨[], [], false⟩

/-- One byte of the read loop. A vector is empty after it was moved from. -/
def Server.readByte (s : Server) (byte : UInt8) : Server :=
  let tester := s.tester ++ [byte]
  if foundDelimiter tester then
    { s with
      tester := []
      bytestream := tester.take (tester.length - fifoDelimiter.length) }
  else { s with tester := tester }

/--
The read loop of one iteration, with the bytes that come until a read fails. A stream whose read has
failed stays so.
-/
def Server.readAll (available : Bytes) (s : Server) : Server :=
  if s.failed then s else { available.foldl Server.readByte s with failed := true }

/-- What `API::operator()` hands to `deserialize`, one iteration for each burst. -/
def Server.handed : List Bytes → Server → List Bytes
  | [], _ => []
  | burst :: rest, s =>
    let s' := s.readAll burst
    s'.bytestream :: match deserialize s'.bytestream with
      | .ok _ => Server.handed rest s'
      | .error _ => []

/-- A delimiter is found only where nothing was read before it. -/
theorem Server.bytestream_readByte {s : Server} (h : s.bytestream = []) (byte : UInt8) :
    (s.readByte byte).bytestream = [] := by
  unfold Server.readByte
  by_cases hfound : foundDelimiter (s.tester ++ [byte]) = true
  · have hlength : (s.tester ++ [byte]).length = fifoDelimiter.length := by
      by_contra hne
      rw [foundDelimiter, if_pos hne] at hfound
      cases hfound
    simp only [hfound, if_true, hlength, Nat.sub_self, List.take_zero]
  · simp only [hfound]
    exact h

theorem Server.bytestream_readAll {s : Server} (h : s.bytestream = []) (available : Bytes) :
    (s.readAll available).bytestream = [] := by
  have hfold : (available.foldl Server.readByte s).bytestream = [] := by
    induction available generalizing s with
    | nil => exact h
    | cons byte rest ih => exact ih (Server.bytestream_readByte h byte)
  unfold Server.readAll
  split
  · exact h
  · exact hfold

/-- The server hands over an empty vector, whatever was written. -/
theorem Server.handed_eq_nil {s : Server} (h : s.bytestream = []) :
    ∀ bursts, ∀ record ∈ Server.handed bursts s, record = []
  | [], record, hr => by cases hr
  | burst :: rest, record, hr => by
    have hempty := Server.bytestream_readAll h burst
    unfold Server.handed at hr
    rcases List.mem_cons.mp hr with rfl | hrest
    · exact hempty
    · have hfault : deserialize (s.readAll burst).bytestream = .error .pastEnd := by
        rw [hempty]
        rfl
      rw [hfault] at hrest
      cases hrest

theorem serializeToRank_ne_nil (request : AdmissionRequest) : serializeToRank request ≠ [] := by
  intro h
  have hlength := congrArg List.length h
  simp only [serializeToRank, List.length_append, length_writeShifted, List.length_nil] at hlength
  omega

/--
**The server hands over exactly the requests that were written only if there are none**, and it has
not been through its loop yet. `bursts` is what it reads in each iteration.
-/
theorem handed_eq_iff (requests : List AdmissionRequest) (bursts : List Bytes)
    (hbursts : bursts.flatten = written requests) :
    Server.handed bursts .initial = requests.map serializeToRank ↔ requests = [] ∧ bursts = [] := by
  constructor
  · intro h
    have hrequests : requests = [] := by
      rcases requests with _ | ⟨request, rest⟩
      · rfl
      · have hmem : serializeToRank request ∈ Server.handed bursts .initial := by
          rw [h]
          exact List.mem_cons_self
        exact absurd (Server.handed_eq_nil rfl bursts _ hmem) (serializeToRank_ne_nil request)
    refine ⟨hrequests, ?_⟩
    rcases bursts with _ | ⟨burst, rest⟩
    · rfl
    · rw [hrequests] at h
      cases h
  · rintro ⟨rfl, rfl⟩
    rfl

/-- Nothing is handed over where nothing was written, and a request that was written is not
either. -/
theorem handed_eq_iff_none : Server.handed [] .initial = [] ∧
    Server.handed [written [⟨[0x7B, 0x7D], 1, [9], .simulation, 7⟩]] .initial ≠
      [serializeToRank ⟨[0x7B, 0x7D], 1, [9], .simulation, 7⟩] := by
  refine ⟨(handed_eq_iff [] [] rfl).mpr ⟨rfl, rfl⟩, fun h => ?_⟩
  have hnone := (handed_eq_iff [⟨[0x7B, 0x7D], 1, [9], .simulation, 7⟩]
    [written [⟨[0x7B, 0x7D], 1, [9], .simulation, 7⟩]] (by simp)).mp h
  cases hnone.1

/-- A record with its delimiter contains the delimiter only at its end. -/
def Delimited (record : Bytes) : Prop :=
  ∀ i < record.length, ((record ++ fifoDelimiter).drop i).take fifoDelimiter.length ≠ fifoDelimiter

instance (record : Bytes) : Decidable (Delimited record) :=
  inferInstanceAs (Decidable (∀ i < record.length, _))

/-- One request in one burst is not handed over. -/
theorem handed_single : ¬∀ (requests : List AdmissionRequest) (bursts : List Bytes),
    (∀ request ∈ requests, Delimited (serializeToRank request)) →
    bursts.flatten = written requests →
    Server.handed bursts .initial = requests.map serializeToRank := by
  intro h
  refine absurd (h [⟨[0x7B, 0x7D], 1, [9], .simulation, 7⟩]
    [written [⟨[0x7B, 0x7D], 1, [9], .simulation, 7⟩]] ?_ ?_) ?_
  · decide +kernel
  · decide +kernel
  · decide +kernel

end Rankd

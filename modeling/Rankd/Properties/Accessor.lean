import Rankd.Node.Handler
import Rankd.Wire.Ethernet

/-!
# The listener of a message

`listener()` of EAR, MAR and REP copies as many bytes as the listener *code* says, and the three
branches of the handler that index its result read as many as the *address* of that code has. Past
the end of a vector `operator[]` gives `Env.overread`. The two agree for code 0 only
(`listener_accessor_iff`).
-/

namespace Rankd

open Infra

/-- The listener code and the listener of a message that has one. -/
def Message.listener? : Message → Option (UInt8 × ListenerArray)
  | .ear _ _ r | .mar _ _ r => some (r.listenerLength, r.listener)
  | .rep _ _ code _ listener => some (code, listener)
  | .bid .. | .acc .. | .ref .. => none

/-- The codes that both the messages and the handler know. -/
def listenerCodes : List UInt8 := [0, 2, 3, 4]

/-- The bytes behind the header that are the address for a code. -/
def sentAddress (bytes : Bytes) (code : UInt8) : Bytes :=
  ((bytes.drop headerLen).drop 1).take ((addrLen? code).getD 0)

/-- `listener()` is the address, and so is what the loops of the handler read of it. -/
structure Accessible (code : UInt8) (listener : ListenerArray) (sent : Bytes) : Prop where
  accessor : listenerField code listener = .ok sent
  loops : ∀ env, listenerAddress env code listener = .ok sent

section Accessor

variable {code : UInt8} {listener : ListenerArray}

/-- The codes with the number of bytes that their loops read. -/
theorem listenerCodes_cases (h : code ∈ listenerCodes) :
    code = 0 ∨ code ≠ 0 ∧ ∃ n, addrLen? code = some n ∧ code.toNat < n ∧ n ≤ 16 ∧
      ∀ env listener, listenerAddress env code listener =
        .ok ((List.range n).map fun i =>
          (listener.toList.take code.toNat).getD i (env.overread i)) := by
  have hfield : ∀ {c : UInt8} (listener : ListenerArray), c ≠ 0 → c.toNat ≤ 16 →
      listenerField c listener = .ok (listener.toList.take c.toNat) := by
    intro c listener hc hle
    have hlength : listener.toList.length = 16 := by simp
    unfold listenerField
    rw [if_neg hc, readRun_of_le (by omega)]
    rfl
  unfold listenerCodes at h
  simp only [List.mem_cons, List.not_mem_nil, or_false] at h
  rcases h with rfl | rfl | rfl | rfl
  · exact Or.inl rfl
  · refine Or.inr ⟨by decide, 4, rfl, by decide, by decide, fun env listener => ?_⟩
    rw [listenerAddress, hfield listener (by decide) (by decide)]
    rfl
  · refine Or.inr ⟨by decide, 6, rfl, by decide, by decide, fun env listener => ?_⟩
    rw [listenerAddress, hfield listener (by decide) (by decide)]
    rfl
  · refine Or.inr ⟨by decide, 16, rfl, by decide, by decide, fun env listener => ?_⟩
    rw [listenerAddress, hfield listener (by decide) (by decide)]
    rfl

theorem listenerField_zero (listener : ListenerArray) :
    listenerField 0 listener = .ok (address 0 listener) := by
  have hlength : listener.toList.length = 16 := by simp
  unfold listenerField
  rw [if_pos rfl, readRun_of_le (by omega)]
  rfl

theorem length_address_of {n : Nat} (hlen : addrLen? code = some n) :
    (address code listener).length = n := by
  rw [address, hlen, Option.getD_some]
  exact length_address hlen listener

/-- **The accessor returns the address** for code 0 only. -/
theorem listenerField_eq_address_iff (h : code ∈ listenerCodes) :
    listenerField code listener = .ok (address code listener) ↔ code = 0 := by
  constructor
  · intro hfield
    rcases listenerCodes_cases h with h0 | ⟨h0, n, hlen, hlt, hn, -⟩
    · exact h0
    · -- There are fewer bytes in the vector than in the address.
      have hlength : listener.toList.length = 16 := by simp
      unfold listenerField at hfield
      rw [if_neg h0, readRun_of_le (by omega), Except.ok.injEq] at hfield
      have := congrArg List.length hfield
      rw [length_address_of hlen, List.drop_zero, List.nil_append, List.length_take] at this
      omega
  · rintro rfl
    exact listenerField_zero listener

/-- **The loops read the address, whatever lies behind the vector,** for code 0 only. -/
theorem listenerAddress_eq_address_iff (h : code ∈ listenerCodes) :
    (∀ env, listenerAddress env code listener = .ok (address code listener)) ↔ code = 0 := by
  have hlength : listener.toList.length = 16 := by simp
  constructor
  · intro hread
    rcases listenerCodes_cases h with h0 | ⟨h0, n, hlen, hlt, hn, hloops⟩
    · exact h0
    · -- The first byte that is not in the vector can be any other byte.
      have hbytes := hread { Env.sample with overread := fun i => listener.toList.getD i 0 + 1 }
      rw [hloops, address, hlen, Option.getD_some, Except.ok.injEq] at hbytes
      have hbyte := congrArg (·[code.toNat]?) hbytes
      simp [hlt, Nat.lt_of_lt_of_le hlt hn] at hbyte
  · rintro rfl env
    unfold listenerAddress
    rw [listenerField_zero]
    rcases hl : listener.toList with _ | ⟨b, rest⟩
    · rw [hl] at hlength
      cases hlength
    · unfold address
      rw [hl]
      rfl

/-- What the accessor and the loops agree on can only be the address, for code 0. -/
theorem accessible_iff (h : code ∈ listenerCodes) {sent : Bytes} :
    Accessible code listener sent ↔ code = 0 ∧ sent = address code listener := by
  constructor
  · intro hread
    rcases listenerCodes_cases h with rfl | ⟨h0, n, hlen, hlt, hn, hloops⟩
    · refine ⟨rfl, ?_⟩
      have hsent := hread.accessor
      rw [listenerField_zero, Except.ok.injEq] at hsent
      exact hsent.symm
    · -- The loops read more bytes than the accessor returns.
      have hlength : listener.toList.length = 16 := by simp
      have hsent := hread.accessor
      have hread := hread.loops Env.sample
      unfold listenerField at hsent
      rw [if_neg h0, readRun_of_le (by omega), List.drop_zero, List.nil_append,
        Except.ok.injEq] at hsent
      rw [hloops, ← hsent, Except.ok.injEq] at hread
      have := congrArg List.length hread
      rw [List.length_map, List.length_range, List.length_take] at this
      omega
  · rintro ⟨h0, rfl⟩
    exact ⟨(listenerField_eq_address_iff h).mpr h0, (listenerAddress_eq_address_iff h).mpr h0⟩

/-- A message that is decoded has the address that was sent. -/
theorem address_of_parse {ulid : Ulid} {uninit : ListenerArray} {bytes : Bytes} {m : Message}
    (hm : parseMessageFromBytes ulid uninit bytes false = .ok (some m))
    (hl : m.listener? = some (code, listener)) :
    sentAddress bytes code = address code listener := by
  symm
  unfold parseMessageFromBytes at hm
  unfold sentAddress
  by_cases hshort : bytes.length < headerLen
  · rw [if_pos hshort] at hm
    cases hm
  rw [if_neg hshort, if_neg Bool.false_ne_true] at hm
  dsimp only at hm
  generalize unmarshalHeader ulid (bytes.take headerLen) = header at hm
  generalize bytes.drop headerLen = content at hm ⊢
  -- An EAR or a MAR.
  have hrequest : ∀ r, Request.decode uninit content = .ok r →
      address r.listenerLength r.listener =
        (content.drop 1).take ((addrLen? r.listenerLength).getD 0) := by
    intro r hr
    rcases hlen : requestLength? content with _ | n
    · obtain ⟨e, he⟩ := Request.decode_error uninit hlen
      rw [he] at hr
      cases hr
    · obtain ⟨len, r', ha, hn, hle, hr', hs⟩ := Request.decode_ok uninit hlen
      rw [hr'] at hr
      cases hr
      rw [address, hs.listener, hs.code, ha, Option.getD_some]
      refine List.take_left' ?_
      rw [List.length_take, List.length_drop]
      omega
  unfold parseContent at hm
  cases htype : header.type with
  | ear | mar =>
    rw [htype] at hm
    rcases hr : Request.decode uninit content with _ | r
    · rw [hr] at hm
      cases hm
    · rw [hr] at hm
      cases hm
      cases hl
      exact hrequest r hr
  | rep =>
    rw [htype] at hm
    rcases hlen : repLength? content with _ | n
    · obtain ⟨e, he⟩ := decodeRep_error header.version header.uuid hlen
      rw [he] at hm
      cases hm
    · obtain ⟨len, listener', ha, hn, hle, hr, hs⟩ := decodeRep_ok header.version header.uuid hlen
      rw [hr] at hm
      cases hm
      cases hl
      rw [address, hs, ha, Option.getD_some]
      refine List.take_left' ?_
      rw [List.length_take, List.length_drop]
      omega
  | bid =>
    rw [htype] at hm
    rcases hv : decodeBid content with _ | value
    · rw [hv] at hm
      cases hm
    · rw [hv] at hm
      cases hm
      cases hl
  | acc | ref =>
    rw [htype] at hm
    cases hm
    cases hl
  | notype | unnamed =>
    rw [htype] at hm
    cases hm

/-- A message from the network has the address 0, whatever was sent. -/
theorem address_of_parse_fromNetwork {ulid : Ulid} {uninit : ListenerArray} {bytes : Bytes}
    {m : Message} (hm : parseMessageFromBytes ulid uninit bytes true = .ok (some m))
    (hl : m.listener? = some (code, listener)) : code = 0 ∧ address code listener = [0] := by
  have hzero : m = decodedZeroEar uninit := by
    rw [parse_fromNetwork] at hm
    split_ifs at hm
    · cases hm
    · cases hm
      rfl
  have hcontents := contents_decodedZeroEar uninit
  rw [hzero, decodedZeroEar, Message.listener?, Option.some.injEq] at hl
  cases hl
  exact ⟨rfl, (Contents.ear.inj hcontents).2.2.2.2.1⟩

end Accessor

/--
**`listener()` is as long as its readers assume, and they see the address that was sent, exactly for
the listener code 0**: for any message that is built, and for any that is decoded from bytes. The
bytes from the network are lost on the way, so there the address sent must be 0 too.
-/
theorem listener_accessor_iff (ulid : Ulid) (uninit : ListenerArray) {code : UInt8}
    (hcode : code ∈ listenerCodes) (listener : ListenerArray) :
    (∀ m : Message, m.listener? = some (code, listener) →
      (Accessible code listener (address code listener) ↔ code = 0)) ∧
    ∀ bytes fromNetwork m, parseMessageFromBytes ulid uninit bytes fromNetwork = .ok (some m) →
      m.listener? = some (code, listener) →
      (Accessible code listener (sentAddress bytes code) ↔
        code = 0 ∧ (fromNetwork = true → sentAddress bytes code = [0])) := by
  constructor
  · intro m _
    rw [accessible_iff hcode, and_iff_left rfl]
  · intro bytes fromNetwork m hm hl
    rw [accessible_iff hcode]
    cases fromNetwork with
    | false => simp only [address_of_parse hm hl, Bool.false_eq_true, false_implies]
    | true => simp only [(address_of_parse_fromNetwork hm hl).2, true_implies]

/-- A message of a simulation. -/
def simulationEar : Message :=
  .ear headerVersion 7 ⟨1, 0, 0, Vector.replicate 16 9, 0, []⟩

/-- The codes of a simulation are read as they are sent. -/
theorem listener_accessor_iff_simulation :
    Accessible 0 (Vector.replicate 16 9) (address 0 (Vector.replicate 16 9)) ∧
    Accessible 0 (Vector.replicate 16 9) (sentAddress (simulationEar.rawPayload .bigEndian) 0) := by
  have hcode : (0 : UInt8) ∈ listenerCodes := by decide
  have hparse : parseMessageFromBytes .bigEndian (Vector.replicate 16 9)
      (simulationEar.rawPayload .bigEndian) false = .ok (some simulationEar) := by
    decide +kernel
  obtain ⟨hbuilt, hdecoded⟩ :=
    listener_accessor_iff .bigEndian (Vector.replicate 16 9) hcode (Vector.replicate 16 9)
  constructor
  · exact (hbuilt simulationEar rfl).mpr rfl
  · exact (hdecoded _ false simulationEar hparse rfl).mpr ⟨rfl, fun h =>
      absurd h Bool.false_ne_true⟩

/-- The bytes of an EAR for the IPv4 address 5.1.1.1. -/
def ipv4Ear : Bytes :=
  (Message.ear headerVersion 7 ⟨1, 2, 0,
    #v[5, 1, 1, 1, 0, 0, 0, 0, 0, 0, 0, 0, 0, 0, 0, 0], 0, []⟩).rawPayload .bigEndian

/-- Of an IPv4 address two bytes are accessible. -/
theorem listener_accessor_ipv4 : ¬∀ (ulid : Ulid) (uninit : ListenerArray) (bytes : Bytes)
    (fromNetwork : Bool) (m : Message) (code : UInt8) (listener : ListenerArray),
    parseMessageFromBytes ulid uninit bytes fromNetwork = .ok (some m) →
      m.listener? = some (code, listener) → code ∈ listenerCodes →
      Accessible code listener (sentAddress bytes code) := by
  intro hall
  have hparse : parseMessageFromBytes .bigEndian (Vector.replicate 16 0) ipv4Ear false =
      .ok (some (.ear headerVersion 7 ⟨1, 2, 0,
        #v[5, 1, 1, 1, 0, 0, 0, 0, 0, 0, 0, 0, 0, 0, 0, 0], 0, []⟩)) := by
    decide +kernel
  have hread := hall _ _ _ _ _ 2 _ hparse rfl (by decide)
  exact absurd ((accessible_iff (by decide)).mp hread).1 (by decide)

end Rankd

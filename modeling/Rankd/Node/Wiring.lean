import Rankd.Infra.Pipeline
import Rankd.Node.Chain
import Rankd.Node.Log
import Rankd.Wire.Reading

/-!
# Nodes and the bytes between them

`structs/dispatchers/sender.cpp`, `structs/dispatchers/receiver_simulation.cpp` and the queues of
`structs/dispatcher.cpp`, as a simulation runs them.

What a node sends waits in `_sending_messages` for the sender, which encodes it. The bytes that the
simulator delivers wait for the receiver, which decodes them and puts the message into
`_received_messages`, from which the process takes it. `Wiring.coding` says that the nodes exchange
messages by this, as `Chain` has them.
-/

namespace Rankd

open Infra

/-! ## The sender -/

/-- An item of `_sending_messages`. -/
abbrev SendingItem := Message × Bytes × IdentifierType

/-- `Sender::make_and_send_frame` reads six bytes of the target. The frame leaves on a
network device. -/
def makeAndSendFrame (target : Bytes) : Except Thrown Unit := do
  let _ ← readRun .outOfRange target 6 0 []

/-- `Sender::make_and_send_bytes`: the port and the bytes for the send function of the simulator. -/
def makeAndSendBytes (ulid : Ulid) (message : Message) (target : Bytes) :
    Except Thrown (UInt8 × Bytes) := do
  let portToTarget ← readAt .outOfRange target 0
  return (portToTarget, message.rawPayload ulid)

/-- The log line of the sender for an EAR or MAR reads the first byte of the listener. -/
def logListener : Message → Except Thrown Unit
  | .ear _ _ r | .mar _ _ r => do
    let listener ← listenerField r.listenerLength r.listener
    let _ ← readAt .outOfRange listener 0
  | .bid .. | .acc .. | .ref .. | .rep .. => .ok ()

/--
A round of `Sender::operator()`, and what it passes on to the simulator. The bodies of
`make_and_send_packet` and `make_and_send_message` are empty.
-/
def Sender.operatorCall (ulid : Ulid) (item : SendingItem) :
    Except Thrown (Option (UInt8 × Bytes)) :=
  match item.2.2 with
  | .mac => do
    makeAndSendFrame item.2.1
    return none
  | .ipv4 | .ipv6 | .dds => .ok none
  | .simulation => do
    let _ ← readAt .outOfRange item.2.1 0
    logListener item.1
    return some (← makeAndSendBytes ulid item.1 item.2.1)

/-! ## The receivers -/

/-- A source and the bytes that come from it. -/
abbrev Letter := UInt8 × Bytes

/-- `RawReceiverSimulation::operator()` ignores what comes from `UINT8_MAX`. -/
def RawReceiverSimulation.keeps (letter : Letter) : Prop := letter.1 ≠ 255

/-- A round of `ReceiverSimulation::operator()`. A `nullptr` is ignored. -/
def ReceiverSimulation.operatorCall (ulid : Ulid) (uninit : ListenerArray) (letter : Letter) :
    Except Thrown (Option Parcel) := do
  let message ← parseMessageFromBytes ulid uninit letter.2 false
  return message.map fun m => (([letter.1], .simulation), m)

/-! ## The simulation -/

/-- The nodes `0` to `k` as the simulator connects them. -/
structure Wiring (k : Nat) where
  ulid : Ulid
  /-- The environments that a node may have in a step. -/
  site : Fin (k + 1) → Env → Prop
  /-- Where the simulator delivers what a node sends to a port, and the source under
  which it comes. -/
  link : Fin (k + 1) → UInt8 → Option (Fin (k + 1) × UInt8)

variable {k : Nat}

/-- The chain whose messages the bytes are. -/
def Wiring.chain (w : Wiring k) : Chain k where
  site := w.site
  route i target type := if type = .simulation then
    (target.head?.bind (w.link i)).map fun hop => (hop.1, [hop.2], .simulation) else none

/--
The threads of a node. Its timers and the API are steps of its own. Messages of the sessions in
`foreign` may be submitted by the API, and the bytes in `noise` that are not read as a message of
another session may come over the wire.
-/
def Wiring.pipeline (w : Wiring k) (foreign : UUIDv4 → Prop) (noise : Letter → Prop) :
    Pipeline (Fin (k + 1)) Node SendingItem Letter Parcel where
  handles i m n n' sent := ∃ env, w.site i env ∧
    (perform env (.receive m.2 m.1)).run n = (.ok (), n') ∧ sent = n.sentUntil n'
  acts i n n' sent := ∃ env action, w.site i env ∧ action.Internal foreign ∧ action.enabled n ∧
    (perform env action).run n = (.ok (), n') ∧ sent = n.sentUntil n'
  emits i item letter := ∃ out, Sender.operatorCall w.ulid item = .ok out ∧
    letter = out.bind fun e => (w.link i e.1).map fun hop => (hop.1, hop.2, e.2)
  keeps := RawReceiverSimulation.keeps
  reads _ letter m := ∃ uninit, ReceiverSimulation.operatorCall w.ulid uninit letter = .ok m
  submits _ m := foreign m.2.uuid
  injects _ letter := noise letter ∧ ∀ uninit m,
    ReceiverSimulation.operatorCall w.ulid uninit letter = .ok (some m) → foreign m.2.uuid

/-- A message may be read as the one that its bytes are decoded to. -/
def Wiring.ReadsAs (w : Wiring k) (m m' : Parcel) : Prop :=
  m' = m ∨ m'.1 = m.1 ∧ ∃ uninit,
    parseMessageFromBytes w.ulid uninit (m.2.rawPayload w.ulid) false = .ok (some m'.2)

section Coding

variable {w : Wiring k} {foreign : UUIDv4 → Prop} {noise : Letter → Prop} {i : Fin (k + 1)}

theorem Wiring.route_simulation (port : UInt8) (rest : Bytes) :
    w.chain.route i (port :: rest) .simulation =
      (w.link i port).map fun hop => (hop.1, [hop.2], .simulation) := rfl

/-- **What the sender passes on** are the bytes of the message, for the node behind the port. -/
theorem Wiring.emitted {item : SendingItem} {e : Fin (k + 1) × Letter}
    (h : (w.pipeline foreign noise).emits i item (some e)) :
    w.chain.route i item.2.1 item.2.2 = some (e.1, [e.2.1], .simulation) ∧
      e.2.2 = item.1.rawPayload w.ulid := by
  obtain ⟨out, hcall, hout⟩ := h
  obtain ⟨message, target, type⟩ := item
  rw [Sender.operatorCall] at hcall
  cases type with
  | mac =>
    obtain ⟨_, -, hnone⟩ := except_bind_ok hcall
    cases hnone
    cases hout
  | ipv4 | ipv6 | dds =>
    cases hcall
    cases hout
  | simulation =>
    obtain ⟨port, hport, hlog⟩ := except_bind_ok hcall
    obtain ⟨_, -, hsend⟩ := except_bind_ok hlog
    obtain ⟨sent, hsent, hsome⟩ := except_bind_ok hsend
    cases hsome
    obtain ⟨port', hport', hbytes⟩ := except_bind_ok hsent
    cases hbytes
    obtain rfl := Except.ok.inj (hport.symm.trans hport')
    rcases target with _ | ⟨first, rest⟩
    · cases hport
    · cases hport
      obtain ⟨hop, hhop, rfl⟩ := Option.map_eq_some_iff.mp hout.symm
      refine ⟨(Wiring.route_simulation port rest).trans ?_, rfl⟩
      rw [hhop]
      rfl

/-- What the receiver reads of bytes. -/
theorem ReceiverSimulation.operatorCall_some {ulid : Ulid} {uninit : ListenerArray}
    {letter : Letter}
    {m : Parcel} (h : ReceiverSimulation.operatorCall ulid uninit letter = .ok (some m)) :
    m.1 = ([letter.1], .simulation) ∧
      parseMessageFromBytes ulid uninit letter.2 false = .ok (some m.2) := by
  obtain ⟨message, hparse, hsome⟩ := except_bind_ok h
  obtain ⟨message', rfl, rfl⟩ := Option.map_eq_some_iff.mp (Except.ok.inj hsome)
  exact ⟨rfl, hparse⟩

/-- The bytes between the nodes are their messages. -/
def Wiring.coding (w : Wiring k) (foreign : UUIDv4 → Prop) (noise : Letter → Prop) :
    Coding (w.pipeline foreign noise) where
  route i item := (w.chain.route i item.2.1 item.2.2).map fun hop => (hop.1, hop.2, item.1)
  carries letter m := m.1 = ([letter.1], .simulation) ∧ letter.2 = m.2.rawPayload w.ulid
  readsAs := w.ReadsAs
  outside e := foreign e.2.2.uuid
  refl _ := Or.inl rfl
  emitted h := by
    obtain ⟨hroute, hbytes⟩ := Wiring.emitted h
    exact ⟨_, by rw [hroute, Option.map_some], rfl, hbytes⟩
  read hcarries hreads := by
    obtain ⟨uninit, hcall⟩ := hreads
    obtain ⟨hsource, hparse⟩ := ReceiverSimulation.operatorCall_some hcall
    rw [hcarries.2] at hparse
    exact Or.inr ⟨hsource.trans hcarries.1.symm, uninit, hparse⟩
  submitted h := h
  injected h hreads := by
    obtain ⟨uninit, hcall⟩ := hreads
    exact h.2 uninit _ hcall

end Coding

/-- **A message that is read is of the session of the one that was sent.** -/
theorem Wiring.ReadsAs.uuid {w : Wiring k} {m m' : Parcel} (h : w.ReadsAs m m') :
    m'.2.uuid = m.2.uuid := by
  rcases h with rfl | ⟨-, uninit, hparse⟩
  · rfl
  · exact parse_rawPayload_uuid hparse

end Rankd

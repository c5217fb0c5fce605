import Rankd.Infra.OrdMap
import Rankd.Node.Bids
import Rankd.Node.Resources

/-!
# The state of a node

The process of one node: `structs/process.h`, `structs/handler.h`, `structs/store.h`,
`structs/translation_table.h` and the queue of `structs/dispatcher.h`.

Handlers live in a heap and are never deleted; the `Store` maps UUIDs to their addresses. What a
handler's thread can reach is a `Thread`: its own fields and what it shares with the process. The
fields of other handlers it can only read.
-/

namespace Rankd

open Infra

/-- The order of an unsigned 128-bit integer, by which the maps are sorted. -/
instance : LinearOrder UUIDv4 where
  le_refl _ := BitVec.le_def.mpr le_rfl
  le_trans _ _ _ hab hbc :=
    BitVec.le_def.mpr (le_trans (BitVec.le_def.mp hab) (BitVec.le_def.mp hbc))
  lt_iff_le_not_ge a b := by
    rw [BitVec.lt_def, BitVec.le_def, BitVec.le_def]
    omega
  le_antisymm _ _ hab hba :=
    BitVec.eq_of_toNat_eq (le_antisymm (BitVec.le_def.mp hab) (BitVec.le_def.mp hba))
  le_total a b := le_total a.toNat b.toNat
  toDecidableLE _ _ := inferInstance
  toDecidableEq _ _ := inferInstance

inductive HandlerState
  | ready | presenting | auctionBidding | auctionWaiting | assessing | preReserved | reserved
  | replenishing | closed
  deriving DecidableEq, Repr

inductive TimeoutType
  | ear | mar | bid | auct | rep
  deriving DecidableEq, Repr

inductive ApiResult
  | ok | fail
  deriving DecidableEq, Repr

/-- The address of a handler in the heap. -/
abbrev HandlerId := Nat

structure Handler where
  uuid : UUIDv4
  sourceIdentifier : NodeIdentifier
  acceptingNodes : List NodeIdentifier
  /-- `none` is `nullptr`. -/
  message : Option Message
  state : HandlerState
  waitingBids : UInt8
  arrivingBids : UInt8
  bids : BidSet
  reservation : ReservationPtr
  running : Bool
  /-- The thread is blocked in `_auction_wait.wait`. -/
  auctionWait : Bool
  deriving DecidableEq

/-- `Handler(resources, .., uuid, ..)`. -/
def Handler.new (uuid : UUIDv4) : Handler where
  uuid := uuid
  sourceIdentifier := ([], .simulation)
  acceptingNodes := []
  message := none
  state := .ready
  waitingBids := 0
  arrivingBids := 0
  bids := []
  reservation := .null
  running := false
  auctionWait := false

instance : Inhabited Handler := ⟨Handler.new 0⟩

/-- `_sending_messages` of the dispatcher. -/
abbrev SendingQueue := List (Message × Bytes × IdentifierType)

/-- `std::map<UUIDv4, Handler *>`. -/
abbrev Store := OrdMap UUIDv4 HandlerId

/-- What the handlers of a node share. -/
structure Shared where
  store : Store
  translationTable : OrdMap UUIDv4 UUIDv4
  originSet : OrdMap UUIDv4 UInt8
  resources : Resources
  /-- The timers that were started and have not fired. -/
  timeouts : List (HandlerId × TimeoutType)
  sendingMessages : SendingQueue
  /-- The calls of `communicate_result`. -/
  results : List (ApiResult × UUIDv4)

structure Node extends Shared where
  handlers : List Handler

/-- A node that has just been started. -/
def Node.initial : Node where
  store := ∅
  translationTable := ∅
  originSet := ∅
  resources := ⟨[], 0⟩
  timeouts := []
  sendingMessages := []
  results := []
  handlers := []

/-- What a handler's thread works on. -/
structure Thread extends Shared where
  self : Handler

def Node.handler (n : Node) (h : HandlerId) : Handler := n.handlers.getD h default

def Node.thread (n : Node) (h : HandlerId) : Thread := { n.toShared with self := n.handler h }

/-- Writes back what a thread did. -/
def Node.putThread (t : Thread) (h : HandlerId) (n : Node) : Node :=
  { t.toShared with handlers := n.handlers.set h t.self }

/-! ## The environment -/

/-- How `unmarshal` fails: the handler catches only `std::invalid_argument`. -/
inductive UnmarshalError
  | invalidArgument
  | other
  deriving DecidableEq, Repr

/--
What a step of a node takes from outside. It may be different at every step.

`overread` is what reading past the end of a vector with `operator[]` gives, and `uninitialised` the
content of an uninitialised accumulator.
-/
structure Env where
  ulid : Ulid
  assessment : Assessment
  /-- `_get_connections_to`: pairs of depth and port. -/
  connections : UInt8 → List (UInt8 × UInt8)
  /-- `_is_me` of the handlers and `_simulated_identity` of the process. -/
  identity : UInt8 → Bool
  /-- `is_me` for IPv4, MAC and IPv6 addresses. -/
  isMe : Bytes → Bool
  /-- `_topology`: pairs of neighbour and port. -/
  topology : List (UInt8 × UInt8)
  unmarshal : Bytes → Except UnmarshalError RequestingCapabilities
  /-- `serialize_json_as_vector(transform_to_json(requirements))`. -/
  serialize : RequestingCapabilities → Bytes
  /-- Conversions between `double` and `float`. -/
  toFloat : BitVec 64 → BitVec 32
  toDouble : BitVec 32 → BitVec 64
  overread : Nat → UInt8
  uninitialised : Nat → BitVec 64
  entropy : Nat → BitVec 80
  /-- `_reserved` of a `REP`, which its constructor does not set. -/
  repReserved : UInt8

/--
A node with the neighbours 5, 6 and 7 that admits every request, for evaluation. Two connections
lead to the listener 9.
-/
def Env.sample : Env where
  ulid := .bigEndian
  assessment := ⟨fun _ => 1, fun _ => 1⟩
  connections := fun target => if target = 9 then [(1, 1), (1, 2)] else [(1, target)]
  identity := fun _ => false
  isMe := fun _ => false
  topology := [(5, 0), (6, 1), (7, 2)]
  unmarshal := fun _ => .ok default
  serialize := fun _ => []
  toFloat := fun _ => 0
  toDouble := fun _ => 0
  overread := fun _ => 0
  uninitialised := fun _ => 0
  entropy := fun i => BitVec.ofNat 80 (i + 1)
  repReserved := 0

/-- The node 5. -/
def Env.sampleListener : Env := { Env.sample with identity := fun b => b = 5 }

end Rankd

import Rankd.Wire.Message
import Rankd.Infra.Prog

/-!
# Reservations

`structs/reservation.cpp`, `structs/capabilities.cpp` and `structs/requesting_capabilities.h`.

A reservation is compared by UUID, state and the kinds of its requirements (`Reservation.equals`),
and copying one always gives a reservation in state `CREATED` (`Reservation.copy`).
-/

namespace Rankd

open Infra

/-! ## What stops the program -/

/--
What ends the processing of a message or of a timeout. The first two are C++ exceptions, the others
end the process in any thread: a failed assertion (the default build type is Debug), a null or
dangling pointer, an iterator that goes on from an erased entry, `front` of an empty vector, and the
key of an empty node handle.
-/
inductive Fault
  | exception
  | outOfRange
  | assertion
  | nullPointer
  | danglingPointer
  | danglingIterator
  | emptyFront
  | emptyNode
  deriving DecidableEq, Repr

/-- The faults that are C++ exceptions. -/
def Fault.isException : Fault → Bool
  | .exception | .outOfRange => true
  | .assertion | .nullPointer | .danglingPointer | .danglingIterator | .emptyFront | .emptyNode =>
    false

/-! ## Capabilities -/

inductive CapabilityItemType
  | unspecified | time | timeTas | timeCbs | net | netBandwidth | netDds | comp | compCpu
  | compMemory
  deriving DecidableEq, Repr

/-- `std::any` as the program uses it: empty, or an `unsigned int`. -/
abbrev Any := Option UInt32

/-- `RequestingCapabilities`: the items by kind, and in the order of the request. -/
structure RequestingCapabilities where
  items : List (CapabilityItemType × Any)
  orderedItems : List (UInt8 × CapabilityItemType × Any)
  deriving DecidableEq, Repr

instance : Inhabited RequestingCapabilities := ⟨⟨[], []⟩⟩

/-- The kinds that have a `case` in `Capabilities::operator==`. -/
def CapabilityItemType.compared : CapabilityItemType → Bool
  | .unspecified | .timeTas | .timeCbs | .netBandwidth | .netDds | .compCpu | .compMemory => true
  | .time | .net | .comp => false

/-- `Capabilities::operator==`: as many items, and the kinds of the left side among the right. -/
def RequestingCapabilities.equals (c d : RequestingCapabilities) : Bool :=
  c.items.length == d.items.length &&
    c.items.all fun item => !item.1.compared || d.items.any (·.1 == item.1)

@[simp] theorem RequestingCapabilities.equals_refl (c : RequestingCapabilities) :
    c.equals c = true := by
  simp only [equals, BEq.rfl, Bool.true_and, List.all_eq_true, Bool.or_eq_true, List.any_eq_true]
  intro item hitem
  exact Or.inr ⟨item, hitem, by simp⟩

/-! ## Reservations -/

inductive ReservationState
  | created | virtuallyPreReserved | preReserved | reserved | cleared
  deriving DecidableEq, Repr

/-- An address of a node and its kind, `std::pair<std::vector<uint8_t>, IdentifierType>`. -/
abbrev NodeIdentifier := Bytes × IdentifierType

structure Reservation where
  state : ReservationState
  priority : UInt8
  requirements : RequestingCapabilities
  uuid : UUIDv4
  listenerLength : UInt8
  /-- The bit pattern of the `double` `_estimated_bid`. -/
  lastBid : BitVec 64
  nextNodes : List NodeIdentifier
  pastNode : NodeIdentifier
  listener : ListenerArray
  deriving DecidableEq, Repr

namespace Reservation

/-- The bit pattern of the `double` `-1`. -/
def minusOne : BitVec 64 := 0xBFF0000000000000

/-- `Reservation(capabilities, priority, logger_name)`. -/
def new (capabilities : RequestingCapabilities) (priority : UInt8) : Reservation where
  state := .created
  priority := priority
  requirements := capabilities
  uuid := 0
  listenerLength := 0
  lastBid := minusOne
  nextNodes := []
  pastNode := ([], .simulation)
  listener := Vector.replicate 16 0

/-- `Reservation(const Reservation&)`: everything but the state. -/
def copy (r : Reservation) : Reservation := { r with state := .created }

/-- `operator==`. -/
def equals (r s : Reservation) : Bool :=
  r.uuid == s.uuid && r.state == s.state && r.requirements.equals s.requirements

/-- `std::copy_n(listener.begin(), length, _listener.begin())`. `_listener_length` is not set. -/
def markListener (r : Reservation) (listener : Bytes) : Reservation :=
  { r with
    listener := listener.zipIdx.foldl (fun v bi => v.setIfInBounds bi.2 bi.1) r.listener }

def setUuid (r : Reservation) (uuid : UUIDv4) : Reservation := { r with uuid := uuid }

def setPriority (r : Reservation) (priority : UInt8) : Reservation :=
    { r with priority := priority }

def updateLastBid (r : Reservation) (value : BitVec 64) : Reservation := { r with lastBid := value }

def addNextNode (r : Reservation) (node : NodeIdentifier) : Reservation :=
  { r with nextNodes := r.nextNodes ++ [node] }

def setPastNode (r : Reservation) (node : NodeIdentifier) : Reservation :=
  { r with pastNode := node }

/-! ### State changers, `none` where their assertion fails -/

def reserve (r : Reservation) : Option Reservation :=
  if r.state = .created ∨ r.state = .virtuallyPreReserved then some { r with state := .reserved }
  else none

def preReserve (r : Reservation) : Option Reservation :=
  if r.state = .created then some { r with state := .preReserved } else none

def replenish (r : Reservation) : Option Reservation :=
  if r.state = .reserved ∨ r.state = .preReserved ∨ r.state = .virtuallyPreReserved then
    some { r with state := .cleared }
  else none

def markReserved (r : Reservation) : Option Reservation :=
  if r.state = .preReserved then some { r with state := .reserved } else none

/-! ### Logging that can throw

`add_next_node` and `set_past_node` print the nodes of the reservation, and the printers read the
bytes of an address with `at`.
-/

/-- Bytes the printers read, by kind of address. -/
def printedBytes : IdentifierType → Nat
  | .simulation => 1
  | .ipv4 => 4
  | .mac => 6
  | .ipv6 | .dds => 16

/-- `past_node_as_string` and `next_nodes_as_string` do not throw. -/
def printable (r : Reservation) : Bool :=
  (r.pastNode.1.isEmpty || decide (printedBytes r.pastNode.2 ≤ r.pastNode.1.length)) &&
    r.nextNodes.all fun node => decide (printedBytes node.2 ≤ node.1.length)

theorem equals_iff {r s : Reservation} : r.equals s = true ↔
    r.uuid = s.uuid ∧ r.state = s.state ∧ r.requirements.equals s.requirements = true := by
  simp [equals, and_assoc]

@[simp] theorem equals_refl (r : Reservation) : r.equals r = true := by
  simp [equals]

theorem equals_copy {r : Reservation} (h : r.state = .created) : r.equals r.copy = true := by
  rw [equals_iff]
  exact ⟨rfl, h, RequestingCapabilities.equals_refl _⟩

end Reservation

end Rankd

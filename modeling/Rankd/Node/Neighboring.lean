import Rankd.Infra.Attribute
import Rankd.Infra.Bits
import Rankd.Node.Reservation

/-!
# Neighbours and next hops

`utils/neighboring.cpp`.

The answers of the kernel are lists of messages (`Netlink`), each with its attributes in a
well-formed frame; the sockets are expected to work. An assertion that fails ends the process.
-/

namespace Rankd

open Infra

/-! ## Prefixes -/

def checkAssertion (c : Prop) [Decidable c] : Except Fault Unit :=
  if c then .ok () else .error .assertion

/-- The scan over both bit sets, from index 0. -/
def equalBits (n : Nat) (x y : BitVec 128) : Bool :=
  (List.range n).all fun i => x.getLsbD i == y.getLsbD i

/-- The bytes go to a `std::bitset<128>` with the last one in its lowest bits. -/
def isWithinRange (tester tested : Bytes) (numberOfEqualBits : UInt8) : Except Fault Bool := do
  checkAssertion (tester.length = 4 ∨ tester.length = 16)
  checkAssertion (tested.length = 4 ∨ tester.length = 16)
  checkAssertion (tester.length = tested.length)
  checkAssertion (tester.length = 4 ∧ numberOfEqualBits ≤ 32)
  checkAssertion (tester.length = 16 ∧ numberOfEqualBits ≤ 128)
  return equalBits numberOfEqualBits.toNat (packBE 128 tester 0) (packBE 128 tested 0)

/-! ## Messages of the kernel -/

def rtaDst : UInt16 := 1
def rtaGateway : UInt16 := 5
def ndaDst : UInt16 := 1
def ndaLladdr : UInt16 := 2
def afInet : UInt8 := 2
def afBridge : UInt8 := 7
def afInet6 : UInt8 := 10
def nudReachable : UInt16 := 2
def nudStale : UInt16 := 4

/-- `struct rtmsg` and its attributes. -/
structure Route where
  dstLen : UInt8
  attributes : List Attribute

/--
`struct ndmsg` and its attributes. The length of the whole message is taken for the length of the
attributes, so the loop can read on behind them (`beyond`).
-/
structure Neighbour where
  family : UInt8
  state : UInt16
  attributes : List Attribute
  beyond : List Attribute

/-- The answers to `RTM_GETROUTE` for an address family and to `RTM_GETNEIGH`. -/
structure Netlink where
  routes : UInt8 → List Route
  neighbours : List Neighbour

/-! ## `get_connections_to` -/

/-- The loop over the routes, for addresses of a family. -/
def routeConnections (size : Nat) (type : IdentifierType) :
    List Route → Except Fault (List NodeIdentifier)
  | [] => .ok []
  | route :: rest =>
    match Attribute.lookup 0 route.attributes rtaGateway with
    | none => routeConnections size type rest
    | some gateway =>
      match Attribute.lookup 0 route.attributes rtaDst with
      | none => routeConnections size type rest
      | some destination => do
        let possibleDestination := gateway.bytes size
        if ← isWithinRange possibleDestination (destination.bytes size) route.dstLen then
          return (possibleDestination, type) :: (← routeConnections size type rest)
        else
          routeConnections size type rest

/-- One attribute: the new `possible_destination` and `possible_mac_address`. -/
def readNeighbourAttribute (target : Bytes) (family : UInt8) (a : Attribute)
    (found : Bytes × Bytes) : Bytes × Bytes :=
  if a.type = ndaDst then
    let family :=
      if family = afBridge then (if a.length = 16 then afInet6 else afInet) else family
    if family = afInet then (a.bytes 4, found.2)
    else if family = afInet6 then (a.bytes 16, found.2)
    else found
  else if a.type = ndaLladdr then
    if target ≠ a.bytes 6 then ([], []) else (found.1, a.bytes 6)
  else found

/-- The loop over the attributes of an entry. It goes on while both variables are empty. -/
def readNeighbour (target : Bytes) (family : UInt8) :
    List Attribute → Bytes × Bytes → Bytes × Bytes
  | [], found => found
  | a :: rest, found =>
    if found.2.isEmpty && found.1.isEmpty then
      readNeighbour target family rest (readNeighbourAttribute target family a found)
    else found

/-- The loop over the entries, up to the first one with both. -/
def neighbourConnections (target : Bytes) : List Neighbour → List NodeIdentifier
  | [] => []
  | entry :: rest =>
    if entry.family = afInet ∧ (entry.state = nudReachable ∨ entry.state = nudStale) then
      let found := readNeighbour target entry.family (entry.attributes ++ entry.beyond) ([], [])
      if !found.2.isEmpty && !found.1.isEmpty then [(found.1, .mac)]
      else neighbourConnections target rest
    else neighbourConnections target rest

def Netlink.getConnectionsTo (netlink : Netlink) (target : Bytes) (isDds : Bool) :
    Except Fault (List NodeIdentifier) :=
  match target.length with
  | 4 => if isDds then .ok [] else routeConnections 4 .ipv4 (netlink.routes afInet)
  | 16 => if isDds then .ok [] else routeConnections 16 .ipv6 (netlink.routes afInet6)
  | 6 => .ok (neighbourConnections target netlink.neighbours)
  | _ => .ok []

end Rankd

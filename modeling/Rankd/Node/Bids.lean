import Rankd.Infra.OrdSet
import Rankd.Node.Reservation

/-!
# Bids

`structs/bidset.h` and `Handler::max_bids`: the ordered set of bids of an auction.

A bid's value is the bit pattern of a `float`. `floatLt` and `floatEq` are the IEEE comparisons, so
they are false on NaN. Bids are ordered by value, then by the bytes of the address, then by its
kind. A bid that is NaN is neither before nor after any other.
-/

namespace Rankd

open Infra

/-! ## `float` comparisons -/

def isNaNFloat (x : BitVec 32) : Bool := decide (0x7F800000 < x.toNat % 2 ^ 31)

/-- The magnitude with its sign. Both zeros are 0. -/
def floatKey (x : BitVec 32) : Int :=
  if x.msb then -(x.toNat % 2 ^ 31 : Nat) else (x.toNat % 2 ^ 31 : Nat)

def floatLt (x y : BitVec 32) : Bool :=
  !isNaNFloat x && !isNaNFloat y && decide (floatKey x < floatKey y)

def floatEq (x y : BitVec 32) : Bool :=
  !isNaNFloat x && !isNaNFloat y && decide (floatKey x = floatKey y)

/-! ## Orders of `std::pair` and `std::vector` -/

/-- The lexicographic order of `std::vector<uint8_t>`. -/
def bytesLt : Bytes → Bytes → Bool
  | _, [] => false
  | [], _ :: _ => true
  | a :: as, b :: bs => decide (a < b) || (!decide (b < a) && bytesLt as bs)

/-- The value of an `IdentifierType`. -/
def IdentifierType.value : IdentifierType → Nat
  | .simulation => 0
  | .mac => 2
  | .ipv4 => 3
  | .ipv6 => 4
  | .dds => 5

def identifierLt (x y : NodeIdentifier) : Bool :=
  bytesLt x.1 y.1 || (!bytesLt y.1 x.1 && decide (x.2.value < y.2.value))

abbrev Bid := BitVec 32 × NodeIdentifier

/-- `operator<` of C++20 for pairs: values that are unordered leave the sources alone. -/
def bidLt (x y : Bid) : Bool :=
  floatLt x.1 y.1 || (floatEq x.1 y.1 && identifierLt x.2 y.2)

/-! ## The set of bids -/

/-- `BidSet`, in its order. -/
abbrev BidSet := List Bid

def BidSet.insert (bids : BidSet) (bid : Bid) : BidSet := setInsert bidLt bid bids

/--
`max_bids`: the sources of the bids that are equal to the last, as a set. There is a last bid, the
caller checks it.
-/
def maxBids (bids : BidSet) : List NodeIdentifier :=
  match bids.getLast? with
  | none => []
  | some maximum =>
    (bids.filter fun bid => floatEq maximum.1 bid.1).foldl
      (fun set bid => setInsert identifierLt bid.2 set) []

def isMaxBidUnique (targets : List NodeIdentifier) : Bool := targets.length == 1

end Rankd

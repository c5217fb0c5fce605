import Rankd.Node.Reservation

/-!
# The reservation list

The reservation operations of `structs/resources.cpp`.

The elements of `std::list<Reservation>` keep their addresses, so the list holds each reservation
with its address. The operations take a `Reservation*`; it is part of their state (`Held`), because
they write through it also when it points outside the list. The assessment of resources, which is
floating-point arithmetic over measurements, is a parameter.
-/

namespace Rankd

open Infra

/-- `std::list<Reservation>` and the next free address. -/
structure Resources where
  reservations : List (Nat × Reservation)
  nextAddress : Nat
  deriving DecidableEq, Repr

/-- A `Reservation*`: null, an element of the list, or a reservation that is not in the list. -/
inductive ReservationPtr
  | null
  | listed (address : Nat)
  | own (reservation : Reservation)
  deriving DecidableEq, Repr

/-- What the operations work on: the list and the pointer they are given. -/
structure Held where
  resources : Resources
  pointer : ReservationPtr

/-- The results of `bare_metal_resource_assessment` and `estimate_bid`, as bit patterns. -/
structure Assessment where
  bareMetalResourceAssessment : RequestingCapabilities → BitVec 64
  estimateBid : Reservation → BitVec 64

/-- Comparing a `double` with 0, which also holds for `-0.0`. -/
def isZeroDouble (x : BitVec 64) : Bool := x == 0 || x == 0x8000000000000000

/-! ## Lists of addressed reservations -/

abbrev ReservationList := List (Nat × Reservation)

namespace ReservationList

def lookup (l : ReservationList) (address : Nat) : Option Reservation :=
  (l.find? (·.1 = address)).map (·.2)

def update (l : ReservationList) (address : Nat) (f : Reservation → Reservation) :
    ReservationList :=
  l.map fun e => if e.1 = address then (e.1, f e.2) else e

def eraseAt (l : ReservationList) (address : Nat) : ReservationList := l.filter (·.1 ≠ address)

/-- The reservations of the sessions with timestamp `T`. -/
def session (T : Nat) (l : ReservationList) : ReservationList := l.filter (timestamp ·.2.uuid = T)

/-- The reservations of all other sessions. -/
def others (T : Nat) (l : ReservationList) : ReservationList := l.filter (timestamp ·.2.uuid ≠ T)

def addresses (l : ReservationList) : List Nat := l.map (·.1)

end ReservationList

/-! ## Access through pointers -/

abbrev HeldM := Prog Held Fault

/-- Reads an element of the list. -/
def itemAt (address : Nat) : HeldM Reservation := do
  let s ← Prog.get
  Prog.require (ReservationList.lookup s.resources.reservations address) .danglingPointer

/-- Writes an element of the list. -/
def writeAt (address : Nat) (r : Reservation) : HeldM Unit :=
  Prog.modify fun s => { s with
    resources := { s.resources with
      reservations := ReservationList.update s.resources.reservations address fun _ => r } }

/-- What the pointer points to. -/
def Held.read (s : Held) : Except Fault Reservation :=
  match s.pointer with
  | .null => .error .nullPointer
  | .listed address =>
    match ReservationList.lookup s.resources.reservations address with
    | some r => .ok r
    | none => .error .danglingPointer
  | .own r => .ok r

/-- Replaces what the pointer points to. -/
def Held.write (r : Reservation) (s : Held) : Held :=
  match s.pointer with
  | .null => s
  | .listed address => { s with
      resources := { s.resources with
        reservations := ReservationList.update s.resources.reservations address fun _ => r } }
  | .own _ => { s with pointer := .own r }

/-- `*reservation`. -/
def deref : HeldM Reservation := ⟨fun s => (s.read, s)⟩

/-- Calls a setter through the pointer. -/
def writeThrough (f : Reservation → Reservation) : HeldM Unit := do
  let r ← deref
  Prog.modify (Held.write (f r))

/-- Calls a state changer through the pointer. -/
def changeThrough (f : Reservation → Option Reservation) : HeldM Unit := do
  let r ← deref
  let r' ← Prog.require (f r) .assertion
  writeThrough fun _ => r'

/-- Calls a state changer on an element of the list. -/
def changeAt (address : Nat) (f : Reservation → Option Reservation) : HeldM Unit := do
  let r ← itemAt address
  let r' ← Prog.require (f r) .assertion
  writeAt address r'

/-- `_reservations.push_back(r)`, which copies: the address of the new element. -/
def pushBack (r : Reservation) : HeldM Nat := do
  let s ← Prog.get
  Prog.modify fun s => { s with
    resources :=
      { reservations := s.resources.reservations ++ [(s.resources.nextAddress, r.copy)]
        nextAddress := s.resources.nextAddress + 1 } }
  return s.resources.nextAddress

/-! ## The operations -/

/-- `available_for_performance`: `none` is `nullptr`. -/
def availableForPerformance (assessment : Assessment) (priority : UInt8) : HeldM (Option Nat) := do
  let statement ← deref
  if isZeroDouble (assessment.bareMetalResourceAssessment statement.requirements) then
    return none
  else
    writeThrough (·.setPriority priority)
    let statement ← deref
    let bid := assessment.estimateBid statement
    writeThrough (·.updateLastBid bid)
    if isZeroDouble bid then
      return none
    else
      let statement ← deref
      let address ← pushBack statement
      return some address

/-- `std::find(begin, end, *reservation)`: the comparison has the element on its left. -/
def findEqual (l : ReservationList) (r : Reservation) : Option Nat :=
  (l.find? (·.2.equals r)).map (·.1)

/--
`replenish_reservation`. With an empty list the pointer is never read, and a reservation that is not
found throws.
-/
def replenishReservation : HeldM Unit := do
  let s ← Prog.get
  if s.resources.reservations.isEmpty then
    Prog.fault .exception
  else
    let r ← deref
    match findEqual s.resources.reservations r with
    | none => Prog.fault .exception
    | some found =>
      changeThrough Reservation.replenish
      Prog.modify fun s => { s with
        resources := { s.resources with
          reservations := ReservationList.eraseAt s.resources.reservations found } }

/-- The state changer that `mark_reservation` calls on an equal element. -/
def markItem (item : Reservation) : Option Reservation :=
  if item.state ≠ .created then item.markReserved else item.reserve

/--
The loop of `mark_reservation` over the elements. `*reservation` is read again for every element, so
after the element it points to was marked the comparisons use the new state.
-/
def markLoop : List Nat → Bool → HeldM Bool
  | [], found => pure found
  | address :: rest, found => do
    let r ← deref
    let item ← itemAt address
    if r.equals item then
      changeAt address markItem
      markLoop rest true
    else
      markLoop rest found

def markReservation : HeldM Unit := do
  let s ← Prog.get
  let found ← markLoop (s.resources.reservations.map (·.1)) false
  if found then
    pure ()
  else
    changeThrough Reservation.reserve

/-- The loop of `mark_pre_reservation`, up to the first equal element. -/
def markPreLoop : List Nat → HeldM (Option Nat)
  | [] => pure none
  | address :: rest => do
    let r ← deref
    let item ← itemAt address
    if r.equals item then
      changeAt address Reservation.preReserve
      return some address
    else
      markPreLoop rest

def markPreReservation : HeldM Nat := do
  let s ← Prog.get
  let found ← markPreLoop (s.resources.reservations.map (·.1))
  match found with
  | some address => return address
  | none =>
    changeThrough Reservation.preReserve
    let r ← deref
    pushBack r

/-- `get_reservation_for`: the first reservation of the same timestamp, which gets the UUID. -/
def getReservationFor (ulid : Ulid) (uuid : UUIDv4) : HeldM ReservationPtr := do
  let s ← Prog.get
  match s.resources.reservations.find? fun e => isSameTimestamp ulid e.2.uuid uuid with
  | none => return .null
  | some (address, r) =>
    if r.uuid = uuid then
      return .listed address
    else
      writeAt address (r.setUuid uuid)
      return .listed address

end Rankd

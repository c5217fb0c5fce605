import Rankd.Node.State

/-!
# Handlers

`structs/handler.cpp` in the simulation build (`FROM_SIMUZILLA`).

`operatorCall` is one round of `Handler::operator()` for the message that `handle` left. A branch
that ends with `break` drops the message (`Exit.breaks`), one that ends with `return` keeps it
(`Exit.returns`), and the first BID of an auction leaves the thread blocked (`Exit.waits`) until
`wake` runs the rest of its branch.

Log statements are left out where they cannot fail. Their arguments are evaluated at any log level,
so where one can throw the read is kept.
-/

namespace Rankd

open Infra

abbrev ThreadM := Prog Thread Fault

/-- How a branch of the message switch ends. -/
inductive Exit
  | breaks
  | returns
  | waits
  deriving DecidableEq, Repr

/-! ## Access to the state -/

def modifySelf (f : Handler → Handler) : ThreadM Unit :=
  Prog.modify fun t => { t with self := f t.self }

def setState (state : HandlerState) : ThreadM Unit := modifySelf fun s => { s with state := state }

def setReservation (pointer : ReservationPtr) : ThreadM Unit :=
  modifySelf fun s => { s with reservation := pointer }

def stop : ThreadM Unit := modifySelf fun s => { s with running := false }

/-- An operation of `Resources` on `_reservation`. -/
def onReservation {α : Type} (p : HeldM α) : ThreadM α :=
  Prog.zoom (fun t => ⟨t.resources, t.self.reservation⟩)
    (fun held t => { t with
      resources := held.resources
      self := { t.self with reservation := held.pointer } }) p

/-- `_dispatcher->send_message`, whose log statement reads the first byte of the target. -/
def sendMessage (message : Message) (target : Bytes) (type : IdentifierType) : ThreadM Unit := do
  Prog.ensure (!target.isEmpty) .outOfRange
  Prog.modify fun t => { t with sendingMessages := t.sendingMessages ++ [(message, target, type)] }

/-- `_timeout_handler->initiate_timeout(this, type)`. -/
def initiateTimeout (me : HandlerId) (type : TimeoutType) : ThreadM Unit :=
  Prog.modify fun t => { t with timeouts := t.timeouts ++ [(me, type)] }

/-- `_dispatcher->api()->communicate_result`. -/
def communicateResult (code : ApiResult) (uuid : UUIDv4) : ThreadM Unit :=
  Prog.modify fun t => { t with results := t.results ++ [(code, uuid)] }

/-- `at(0)`. -/
def firstByte (bytes : Bytes) : ThreadM UInt8 := Prog.require bytes.head? .outOfRange

/-- `_source_identifier.first.at(0)`. -/
def sourceFirst : ThreadM UInt8 := do
  let t ← Prog.get
  firstByte t.self.sourceIdentifier.1

/-- A value, or the exception that was thrown in its place. -/
def liftExcept {α : Type} : Except Fault α → ThreadM α
  | .ok a => pure a
  | .error e => Prog.fault e

/-- The handler at an address of the heap, as a thread sees it. -/
def handlerAt (me : HandlerId) (peers : List Handler) (t : Thread) (h : HandlerId) : Handler :=
  if h = me then t.self else peers.getD h default

/-! ## Connections -/

/-- `get_connections_to`, which wraps every pair of depth and port. -/
def getConnectionsTo (env : Env) (target : UInt8) :
    List (List (UInt8 × UInt8) × IdentifierType) :=
  (env.connections target).map fun connection => ([connection], .simulation)

/-- One iteration of the loop that looks for the nearest connections. -/
def nearestStep (type : IdentifierType) (acc : UInt8 × List NodeIdentifier)
    (locator : UInt8 × UInt8) : UInt8 × List NodeIdentifier :=
  let minDepth := if locator.1 < acc.1 then locator.1 else acc.1
  (minDepth, if locator.1 = minDepth then acc.2 ++ [([locator.2], type)] else acc.2)

/-- `connections_to_target`, collected from `connections_to_target_raw`. -/
def nearestConnections (raw : List (List (UInt8 × UInt8) × IdentifierType)) :
    List NodeIdentifier :=
  (raw.foldl (fun acc c => c.1.foldl (nearestStep c.2) acc) ((255 : UInt8), [])).2

/-- `connections_to_target.front().first`, for the source of the message. -/
def nearestToSource (env : Env) : ThreadM Bytes := do
  let source ← sourceFirst
  let front ← Prog.require (nearestConnections (getConnectionsTo env source)).head? .emptyFront
  return front.1

/-- `connections_to_target_raw.at(0).first.at(0).second`. -/
def portTo (env : Env) (target : UInt8) : ThreadM Bytes := do
  let connection ← Prog.require (getConnectionsTo env target).head? .outOfRange
  let locator ← Prog.require connection.1.head? .outOfRange
  return [locator.2]

/--
`Dispatcher::get_topology`: 255 entries that hold the size of the topology, overwritten by the
neighbours from the first on.
-/
def getTopology (env : Env) : Bytes :=
  (env.topology.map (·.1) ++
    List.replicate (255 - env.topology.length) (UInt8.ofNat env.topology.length)).take 255

/-- `std::find` in the topology and the distance from its start, `none` at the end. -/
def portInTopology (env : Env) (id : UInt8) : Option Bytes :=
  ((getTopology env).idxOf? id).map fun port => [UInt8.ofNat port]

/-! ## Reservations, translations and the store -/

/-- `produce_reservation`. -/
def produceReservation (capabilities : RequestingCapabilities) (priority : UInt8)
    (listener : Bytes) : ThreadM Unit :=
  setReservation (.own ((Reservation.new capabilities priority).markListener listener))

/-- `_reservation = _resources->get_reservation_for(_uuid)`. -/
def loadReservation (env : Env) : ThreadM Unit := do
  let t ← Prog.get
  let pointer ← onReservation (getReservationFor env.ulid t.self.uuid)
  setReservation pointer

/-- `_reservation->set_uuid(_uuid)`. -/
def setReservationUuid : ThreadM Unit := do
  let t ← Prog.get
  onReservation (writeThrough (·.setUuid t.self.uuid))

/-- The accumulator of `create_translation`: it starts uninitialised and takes six bytes. -/
def translationTime (env : Env) (index : Nat) (original : UUIDv4) : BitVec 64 :=
  ((marshallIntoVector env.ulid original).take 6).foldl
    (fun timestamp byte => (timestamp <<< 8) ||| (byte.toBitVec.setWidth 64))
    (env.uninitialised index)

def translation (env : Env) (index : Nat) (original : UUIDv4) : UUIDv4 :=
  generateNewUuidWith env.ulid (translationTime env index original) (env.entropy index)

/-- `create_translation`. -/
def createTranslation (env : Env) (index : Nat) (original : UUIDv4) : ThreadM UUIDv4 := do
  let newUuid := translation env index original
  Prog.modify fun t => { t with
    translationTable := t.translationTable.insertNew newUuid original }
  return newUuid

/-- `is_bid_in_store`. -/
def isBidInStore (me : HandlerId) (peers : List Handler) (t : Thread) (id : UUIDv4) : Bool :=
  match t.store.find? id with
  | none => false
  | some h => (handlerAt me peers t h).state = .preReserved

/-- `associated_reservation() != nullptr and associated_reservation()->state() == PRE_RESERVED`. -/
def isPreReserving (t : Thread) (handler : Handler) : ThreadM Bool :=
  match handler.reservation with
  | .null => pure false
  | .own r => pure (r.state = .preReserved)
  | .listed address => do
    let r ← Prog.require (ReservationList.lookup t.resources.reservations address)
      .danglingPointer
    return r.state = .preReserved

/-! ## Listeners -/

/-- The address of the listener of a message, by its code. The other codes throw. -/
def listenerAddress (env : Env) (code : UInt8) (listener : ListenerArray) : Except Fault Bytes :=
  match listenerField code listener with
  | .error .outOfRange => .error .outOfRange
  | .error .exception => .error .exception
  | .ok field =>
    let bytes (n : Nat) : Bytes := (List.range n).map fun i => field.getD i (env.overread i)
    if code = 0 then
      match field with
      | [] => .error .outOfRange
      | address :: _ => .ok [address]
    else if code = 2 then .ok (bytes 4)
    else if code = 3 then .ok (bytes 6)
    else if code = 4 then .ok (bytes 16)
    else .error .exception

/-- `simulated_is_me` for code 0, `is_me` for the others. -/
def iAmListener (env : Env) (code : UInt8) (address : Bytes) : Bool :=
  if code = 0 then env.identity (address.headD 0) else env.isMe address

/-! ## Messages of a handler -/

def newAcc (uuid : UUIDv4) : Message := .acc headerVersion uuid

def newRef (uuid : UUIDv4) : Message := .ref headerVersion uuid

def newBid (uuid : UUIDv4) (value : BitVec 32) : Message := .bid headerVersion uuid value

/-- `std::array<uint8_t, 16> listener{}` with its first byte set. -/
def firstListenerByte (r : Reservation) : ListenerArray :=
  (Vector.replicate 16 0).setIfInBounds 0 (r.listener.toList.headD 0)

/-- The fields of `EAR(uuid, priority, listener_length, listener, requirements)` and of
`MAR(..)`. -/
def relayedRequest (env : Env) (r : Reservation) : Request :=
  let payload := env.serialize r.requirements
  { priority := r.priority
    listenerLength := r.listenerLength
    reserved := 0
    listener := firstListenerByte r
    payloadLength := UInt16.ofNat payload.length
    payload := payload }

/-- The EAR that ends an auction: `make_payload` and `make_payload_length` are empty. -/
def auctionRequest (r : Reservation) : Request where
  priority := r.priority
  listenerLength := r.listenerLength
  reserved := 0
  listener := firstListenerByte r
  payloadLength := 0
  payload := []

/-! ## EAR -/

/-- Builds `_reservation` from a request. `false`: `std::invalid_argument` was caught. -/
def buildReservation (env : Env) (r : Request) (address : Bytes) : ThreadM Bool :=
  match env.unmarshal r.payload with
  | .ok capabilities => do
    produceReservation capabilities r.priority address
    return true
  | .error .invalidArgument =>
    if r.listenerLength = 0 then pure false else Prog.fault .exception
  | .error .other => Prog.fault .exception

/-- Sends a REF to the source of the message, over its nearest connection. -/
def refuseToSource (env : Env) : ThreadM Unit := do
  let t ← Prog.get
  let target ← nearestToSource env
  sendMessage (newRef t.self.uuid) target t.self.sourceIdentifier.2

/-- (B.1.1) The node is the listener. -/
def earListener (env : Env) (r : Request) : ThreadM Exit := do
  let position ← onReservation (availableForPerformance env.assessment r.priority)
  match position with
  | some address =>
    setReservation (.listed address)
    onReservation markReservation
    let t ← Prog.get
    let target ← nearestToSource env
    sendMessage (newAcc t.self.uuid) target t.self.sourceIdentifier.2
    setState .reserved
    stop
    return .breaks
  | none =>
    refuseToSource env
    setState .closed
    stop
    return .returns

/-- `_reservation->set_past_node` and its log statement. -/
def setPastNode (node : NodeIdentifier) : ThreadM Unit := do
  onReservation (writeThrough (·.setPastNode node))
  let reservation ← onReservation deref
  Prog.ensure reservation.printable .outOfRange

/-- `_reservation->add_next_node` and its log statement. -/
def addNextNode (node : NodeIdentifier) : ThreadM Unit := do
  onReservation (writeThrough (·.addNextNode node))
  let reservation ← onReservation deref
  Prog.ensure reservation.printable .outOfRange

/-- (B.1.2.2) Goes on toward the listener, depending on the number of connections. -/
def earForward (env : Env) (me : HandlerId) (address : Bytes) : ThreadM Exit := do
  let target ← firstByte address
  let t ← Prog.get
  match nearestConnections (getConnectionsTo env target) with
  | [] =>
    sendMessage (newRef t.self.uuid) t.self.sourceIdentifier.1 t.self.sourceIdentifier.2
    setState .closed
    stop
    return .returns
  | [connection] =>
    let reservation ← onReservation deref
    sendMessage (.ear headerVersion t.self.uuid (relayedRequest env reservation))
      connection.1 connection.2
    setState .preReserved
    setPastNode t.self.sourceIdentifier
    initiateTimeout me .ear
    stop
    return .breaks
  | connections =>
    modifySelf fun s => { s with
      waitingBids := UInt8.ofNat connections.length
      arrivingBids := 0 }
    Prog.forEach connections fun intermediate => do
      let reservation ← onReservation deref
      sendMessage (.mar headerVersion t.self.uuid (relayedRequest env reservation))
        intermediate.1 intermediate.2
    setState .auctionWaiting
    setPastNode t.self.sourceIdentifier
    initiateTimeout me .mar
    stop
    return .breaks

/-- The loop that makes `_reservation` the last reservation of the list with the handler's UUID. -/
def lastWithUuid (t : Thread) : ReservationPtr :=
  match (t.resources.reservations.filter (·.2.uuid = t.self.uuid)).getLast? with
  | some e => .listed e.1
  | none => t.self.reservation

/-- (B.1.2) The node is not the listener. `uuid` is the UUID of the message. -/
def earRelay (env : Env) (me : HandlerId) (peers : List Handler) (uuid : UUIDv4) (r : Request)
    (address : Bytes) : ThreadM Exit := do
  let t ← Prog.get
  if isBidInStore me peers t uuid then
    setReservation (lastWithUuid t)
    earForward env me address
  else
    let position ← onReservation (availableForPerformance env.assessment r.priority)
    match position with
    | none =>
      setReservation .null
      refuseToSource env
      setState .closed
      stop
      return .returns
    | some _ =>
      let reservation ← onReservation markPreReservation
      setReservation (.listed reservation)
      earForward env me address

/-- A new EAR is assessed, unless the handler holds a pre-reservation. -/
def startAssessing : ThreadM Unit := do
  let t ← Prog.get
  if t.self.state = .preReserved then pure () else setState .assessing

/-- A handler that holds a pre-reservation keeps it. -/
def earReservation (env : Env) (r : Request) (address : Bytes) : ThreadM Bool := do
  let t ← Prog.get
  if t.self.state = .preReserved then pure true else buildReservation env r address

/-- `if (_reservation != nullptr) _reservation->set_uuid(_uuid)`. -/
def identifyReservation : ThreadM Unit := do
  let t ← Prog.get
  if t.self.reservation = .null then pure () else setReservationUuid

def earBranch (env : Env) (me : HandlerId) (peers : List Handler) (uuid : UUIDv4) (r : Request) :
    ThreadM Exit := do
  startAssessing
  let address ← liftExcept (listenerAddress env r.listenerLength r.listener)
  let built ← earReservation env r address
  if built then
    identifyReservation
    if iAmListener env r.listenerLength address then
      earListener env r
    else
      earRelay env me peers uuid r address
  else
    setState .closed
    stop
    return .returns

/-! ## MAR -/

/-- (C.1) Bids, or sends a zeroed bid. -/
def marBid (env : Env) (me : HandlerId) (r : Request) : ThreadM Exit := do
  let position ← onReservation (availableForPerformance env.assessment r.priority)
  match position with
  | some address =>
    setReservation (.listed address)
    let reservation ← onReservation deref
    let bidValue := env.toFloat reservation.lastBid
    let t ← Prog.get
    let source ← sourceFirst
    let target ← portTo env source
    sendMessage (newBid t.self.uuid bidValue) target t.self.sourceIdentifier.2
    setState .preReserved
    onReservation (writeThrough (·.updateLastBid (env.toDouble bidValue)))
    let reservation ← onReservation markPreReservation
    setReservation (.listed reservation)
    initiateTimeout me .bid
    stop
    return .breaks
  | none =>
    let t ← Prog.get
    let source ← sourceFirst
    let _ ← portTo env source
    sendMessage (newBid t.self.uuid 0) t.self.sourceIdentifier.1 t.self.sourceIdentifier.2
    setState .closed
    stop
    return .breaks

def marBranch (env : Env) (me : HandlerId) (r : Request) : ThreadM Exit := do
  setState .auctionBidding
  let address ← liftExcept (listenerAddress env r.listenerLength r.listener)
  let built ← buildReservation env r address
  if built then
    setReservationUuid
    marBid env me r
  else
    setState .closed
    stop
    return .returns

/-! ## BID -/

/-- The BID branch up to its wait. -/
def bidBranch (me : HandlerId) (value : BitVec 32) : ThreadM Exit := do
  let t ← Prog.get
  if t.self.state = .auctionWaiting then
    modifySelf fun s => { s with
      bids := BidSet.insert s.bids (value, s.sourceIdentifier)
      arrivingBids := s.arrivingBids + 1 }
    initiateTimeout me .auct
    modifySelf fun s => { s with auctionWait := true }
    return .waits
  else
    setState .closed
    stop
    return .returns

/-- An EAR to one winner of the auction, under the given UUID. -/
def sendAuctionEar (env : Env) (uuid : UUIDv4) (winner : NodeIdentifier) : ThreadM Unit := do
  let reservation ← onReservation deref
  let first ← firstByte winner.1
  let _ ← sourceFirst
  let target ← portTo env first
  sendMessage (.ear headerVersion uuid (auctionRequest reservation)) target winner.2

/-- One winner of a tie: a translation of the UUID and an EAR with it. -/
def tieRound (env : Env) (me : HandlerId) (winner : NodeIdentifier × Nat) : ThreadM Unit := do
  let t ← Prog.get
  let newUuid ← createTranslation env winner.2 t.self.uuid
  sendAuctionEar env newUuid winner.1
  setState .preReserved
  initiateTimeout me .ear

/-- (D.1.1.3) The BID branch after its wait. -/
def auctionEnd (env : Env) (me : HandlerId) : ThreadM Exit := do
  let t ← Prog.get
  if t.self.bids.isEmpty then
    sendMessage (newRef t.self.uuid) t.self.sourceIdentifier.1 t.self.sourceIdentifier.2
    setState .closed
    stop
    return .breaks
  else
    match maxBids t.self.bids with
    | [winner] =>
      sendAuctionEar env t.self.uuid winner
      setState .preReserved
      initiateTimeout me .ear
      stop
      return .breaks
    | winners =>
      Prog.forEach winners.zipIdx (tieRound env me)
      stop
      return .breaks

/-! ## ACC -/

/--
The port to the past node of the reservation. `none`: it is not a neighbour. A past node that is not
of the simulation leaves the target empty.
-/
def pastNodePort (env : Env) : ThreadM (Option Bytes) := do
  let reservation ← onReservation deref
  if reservation.pastNode.2 = .simulation then
    let id ← firstByte reservation.pastNode.1
    return portInTopology env id
  else
    return some []

/-- Sends an ACC to the past node and takes the reservation as granted. -/
def accRelay (env : Env) : ThreadM Exit := do
  let t ← Prog.get
  let port ← pastNodePort env
  match port with
  | none =>
    stop
    return .breaks
  | some target =>
    sendMessage (newAcc t.self.uuid) target .simulation
    setState .reserved
    addNextNode t.self.sourceIdentifier
    stop
    return .breaks

/-- (E.2.1) Files the handler under the original of its UUID again. -/
def rekeyToOriginal (original : UUIDv4) : ThreadM Unit := do
  let t ← Prog.get
  Prog.ensure (t.store.contains t.self.uuid) .emptyNode
  Prog.modify fun t => { t with
    store := t.store.rename t.self.uuid original
    self := { t.self with uuid := original } }

def accBranch (env : Env) : ThreadM Exit := do
  let t ← Prog.get
  if t.self.state = .reserved then
    stop
    return .breaks
  else
    onReservation markReservation
    match t.translationTable.find? t.self.uuid with
    | some original =>
      rekeyToOriginal original
      accRelay env
    | none =>
      if t.originSet.contains t.self.uuid then
        communicateResult .ok t.self.uuid
        addNextNode t.self.sourceIdentifier
        setState .reserved
        stop
        return .breaks
      else
        accRelay env

/-! ## REF -/

/-- The port to the source of the handler, as `pastNodePort`. -/
def sourcePort (env : Env) : ThreadM (Option Bytes) := do
  let t ← Prog.get
  if t.self.sourceIdentifier.2 = .simulation then
    let id ← sourceFirst
    return portInTopology env id
  else
    return some []

/-- Sends a REF to the source of the handler and closes it. -/
def refRelay (env : Env) : ThreadM Exit := do
  let t ← Prog.get
  let port ← sourcePort env
  match port with
  | none =>
    stop
    return .breaks
  | some target =>
    sendMessage (newRef t.self.uuid) target .simulation
    setState .closed
    stop
    return .breaks

/--
(F.1) Erases the store entry of the handler's UUID if it holds a pre-reservation. The loop over the
store then goes on from the entry that it has erased, which is undefined.
-/
def refErase (me : HandlerId) (peers : List Handler) : ThreadM Unit := do
  let t ← Prog.get
  match t.store.find? t.self.uuid with
  | none => pure ()
  | some h =>
    let preReserving ← isPreReserving t (handlerAt me peers t h)
    if preReserving then do
      Prog.modify fun t => { t with store := t.store.erase t.self.uuid }
      Prog.fault .danglingIterator
    else
      pure ()

/-- `_remove_as_origin`. -/
def removeAsOrigin (uuid : UUIDv4) : ThreadM Unit :=
  Prog.modify fun t => { t with
    originSet := if t.originSet.contains uuid then t.originSet.erase uuid else t.originSet }

/-- (F.2) Answers the REF, depending on the translations and on the origin. -/
def refReply (env : Env) : ThreadM Exit := do
  let t ← Prog.get
  match t.translationTable.find? t.self.uuid with
  | some original =>
    -- (F.2.1.1) The handler takes the original UUID; the store keeps the key it has.
    Prog.modify fun t => { t with
      translationTable := t.translationTable.erase t.self.uuid
      self := { t.self with uuid := original } }
    let t ← Prog.get
    if t.translationTable.contains t.self.uuid then
      refRelay env
    else
      setState .closed
      stop
      return .breaks
  | none =>
    if t.originSet.contains t.self.uuid then
      communicateResult .fail t.self.uuid
      removeAsOrigin t.self.uuid
      setState .closed
      stop
      return .breaks
    else
      refRelay env

def refBranch (env : Env) (me : HandlerId) (peers : List Handler) : ThreadM Exit := do
  refErase me peers
  refReply env

/-! ## REP -/

/-- (G.1.2.1.1) Sends the REP on to every accepting node. -/
def repForward (env : Env) (me : HandlerId) : ThreadM Exit := do
  let t ← Prog.get
  let reservation ← onReservation deref
  let message := Message.rep headerVersion t.self.uuid reservation.listenerLength env.repReserved
    reservation.listener
  Prog.forEach reservation.nextNodes fun direction => do
    let first ← firstByte direction.1
    let _ ← sourceFirst
    let target ← portTo env first
    sendMessage message target direction.2
  initiateTimeout me .rep
  stop
  return .breaks

def repBranch (env : Env) (me : HandlerId) (listenerLength : UInt8) (listener : ListenerArray) :
    ThreadM Exit := do
  setState .replenishing
  let address ← liftExcept (listenerAddress env listenerLength listener)
  let t ← Prog.get
  if iAmListener env listenerLength address then
    -- (G.1.1) The reservation stays in the list.
    let source ← sourceFirst
    let target ← portTo env source
    sendMessage (newRef t.self.uuid) target t.self.sourceIdentifier.2
    setState .closed
    stop
    return .breaks
  else if t.store.contains t.self.uuid then
    repForward env me
  else
    setState .closed
    stop
    return .breaks

/-! ## The message switch -/

/-- The check of the loaded reservation. -/
def checkReservation : ThreadM Unit := do
  let t ← Prog.get
  if t.self.reservation = .null then
    pure ()
  else
    let reservation ← onReservation deref
    Prog.ensure (decide (reservation.listenerLength ≤ 7)) .exception

def messageSwitch (env : Env) (me : HandlerId) (peers : List Handler) : Message → ThreadM Exit
  | .ear _ uuid r => earBranch env me peers uuid r
  | .mar _ _ r => marBranch env me r
  | .bid _ _ value => bidBranch me value
  | .acc _ _ => accBranch env
  | .ref _ _ => refBranch env me peers
  | .rep _ _ listenerLength _ listener => repBranch env me listenerLength listener

/-- `delete _message; _message = nullptr`, reached by `break` only. -/
def leaveSwitch (exit : Exit) : ThreadM Unit :=
  match exit with
  | .breaks => modifySelf fun s => { s with message := none }
  | .returns | .waits => pure ()

/-- One round of `Handler::operator()`. -/
def operatorCall (env : Env) (me : HandlerId) (peers : List Handler) (message : Message) :
    ThreadM Unit := do
  loadReservation env
  checkReservation
  let exit ← messageSwitch env me peers message
  leaveSwitch exit

/-- The rest of the round of a thread that was blocked in its auction. -/
def wake (env : Env) (me : HandlerId) : ThreadM Unit := do
  modifySelf fun s => { s with auctionWait := false }
  let exit ← auctionEnd env me
  leaveSwitch exit

/-! ## Timeouts -/

/-- The condition of the EAR, MAR and BID timeouts. -/
def rollbackNeeded (s : Handler) : Bool :=
  (s.state ≠ .closed && s.state ≠ .reserved) || (s.message.isNone && s.state = .preReserved)

/-- The body of `on_ear_timeout`, `on_mar_timeout` and `on_bid_timeout`. -/
def rollback : ThreadM Unit := do
  let t ← Prog.get
  if rollbackNeeded t.self then
    modifySelf fun s => { s with bids := [] }
    onReservation replenishReservation
    setState .closed
  else
    pure ()

def onEarTimeout : ThreadM Unit := rollback

def onMarTimeout : ThreadM Unit := rollback

def onBidTimeout : ThreadM Unit := rollback

/-- `on_rep_timeout`. -/
def onRepTimeout : ThreadM Unit := do
  let t ← Prog.get
  if t.self.state ≠ .closed || (t.self.message.isNone && t.self.state = .replenishing) then
    onReservation replenishReservation
    setState .closed
  else
    pure ()

/-- `on_auct_timeout` only unblocks the thread that waits, which is `wake`. -/
def onAuctTimeout : ThreadM Unit := pure ()

def onTimeout : TimeoutType → ThreadM Unit
  | .ear => onEarTimeout
  | .mar => onMarTimeout
  | .bid => onBidTimeout
  | .auct => onAuctTimeout
  | .rep => onRepTimeout

end Rankd

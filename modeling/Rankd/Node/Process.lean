import Rankd.Node.Handler

/-!
# The process

`structs/process.cpp` in the simulation build, and the steps of a node.

A step is a message that `Process::operator()` takes from the queue and hands to a handler, which
runs to its end or to its auction wait; a blocked auction that goes on; the callback of a timer; or
a call of `mark_origin` by the API. A step that ends in a fault ends the process, except that the
future of a timer keeps the exceptions of its callback.
-/

namespace Rankd

open Infra

abbrev NodeM := Prog Node Fault

/-! ## The store -/

/-- The keys of the store with the timestamp of an UUID, in the order of the map. -/
def relatedKeys (env : Env) (n : Node) (id : UUIDv4) : List UUIDv4 :=
  n.store.keys.filter fun key => isSameTimestamp env.ulid key id

/-- The initial value of `old`, `-1` as an unsigned integer. -/
def noUuid : UUIDv4 := BitVec.allOnes 128

/-- `_store[old]->new_id(id); _store[id] = _store[old]; _store.erase(old)`. -/
def Node.rekey (old id : UUIDv4) (n : Node) : Node :=
  match n.store.find? old with
  | none => n
  | some h => { n with
      store := (n.store.assign id h).erase old
      handlers := n.handlers.modify h fun handler => { handler with uuid := id } }

/-- `is_uuid_in_store(id, tester)`. -/
def isUuidInStore (env : Env) (id : UUIDv4) (tester : Bool) : NodeM Bool := do
  let n ← Prog.get
  let uuids := relatedKeys env n id
  if uuids.isEmpty then
    return false
  else if tester then
    return true
  else
    let old := (uuids.find? (· ≠ id)).getD noUuid
    if old = noUuid then
      return true
    else
      Prog.modify (Node.rekey old id)
      return true

/-- `_store.at(id)`. -/
def storeAt (id : UUIDv4) : NodeM HandlerId := do
  let n ← Prog.get
  Prog.require (n.store.find? id) .outOfRange

/-- `get_handler(id)`, and the fault that its caller makes of a `nullptr`. -/
def getHandler (env : Env) (id : UUIDv4) (missing : Fault) : NodeM HandlerId := do
  let found ← isUuidInStore env id false
  if found then storeAt id else Prog.fault missing

/-- `store_contains_uuids_related_to`. -/
def storeContainsUuidsRelatedTo (env : Env) (n : Node) (uuid : UUIDv4) : Bool :=
  n.store.keys.any fun key => isSameTimestamp env.ulid key uuid

def Node.modifyHandler (h : HandlerId) (f : Handler → Handler) (n : Node) : Node :=
  { n with handlers := n.handlers.modify h f }

/-- `create_handler`: a new handler of the heap, filed under its UUID. -/
def createHandler (id : UUIDv4) : NodeM HandlerId := do
  let n ← Prog.get
  Prog.modify fun n => { n with
    store := n.store.assign id n.handlers.length
    handlers := n.handlers ++ [Handler.new id] }
  return n.handlers.length

/-! ## Handing a message to a handler -/

/-- The `mark_source`, `mark_accepting_node` and `handle` calls of (A.4), by message type. -/
def acceptMessage (message : Message) (source : NodeIdentifier) (handler : Handler) : Handler :=
  match message with
  | .ear .. | .mar .. | .bid .. | .rep .. =>
    { handler with sourceIdentifier := source, message := some message }
  | .acc .. =>
    { handler with
      acceptingNodes := handler.acceptingNodes ++ [source]
      sourceIdentifier := source
      message := some message }
  | .ref .. => { handler with message := some message }

/-- Runs a thread of a handler. -/
def runThread (h : HandlerId) (p : ThreadM Unit) : NodeM Unit :=
  Prog.zoom (fun n => n.thread h) (fun t n => Node.putThread t h n) p

/-- Starts the handler's thread and gives it the message. -/
def deliver (env : Env) (h : HandlerId) (message : Message) (source : NodeIdentifier) :
    NodeM Unit := do
  Prog.modify (Node.modifyHandler h fun handler =>
    acceptMessage message source { handler with running := true })
  let n ← Prog.get
  runThread h (operatorCall env h n.handlers message)

/-- The address of a bidder, by its type. -/
def bidAddress (env : Env) (source : NodeIdentifier) : NodeM Bytes :=
  let bytes (n : Nat) : Bytes := (List.range n).map fun i => source.1.getD i (env.overread i)
  match source.2 with
  | .simulation => do
    let first ← Prog.require source.1.head? .outOfRange
    return [first]
  | .mac => pure (bytes 6)
  | .ipv4 => pure (bytes 4)
  | .ipv6 => pure (bytes 16)
  -- The bytes are copied to the begin of an empty string, which stays empty.
  | .dds => pure []

/-- `new_bid` on the handler. -/
def addBid (env : Env) (h : HandlerId) (value : BitVec 32) (source : NodeIdentifier) :
    NodeM Unit := do
  let address ← bidAddress env source
  Prog.modify (Node.modifyHandler h fun handler => { handler with
    bids := BidSet.insert handler.bids (value, address, source.2)
    arrivingBids := handler.arrivingBids + 1 })

/-! ## `Process::operator()` -/

/-- `requesting_message`. -/
def requestingMessage : Message → Bool
  | .ear _ _ r => r.payloadLength ≠ 0
  | .mar .. => true
  | .bid .. | .acc .. | .ref .. | .rep .. => false

/-- `ear_message->listener()`. -/
def requestListener (r : Request) : NodeM Bytes :=
  match listenerField r.listenerLength r.listener with
  | .ok field => pure field
  | .error .outOfRange => Prog.fault .outOfRange
  | .error .exception => Prog.fault .exception

/-- `listener_of_message`. -/
def listenerOfMessage (env : Env) (message : Message) : NodeM Bool :=
  match message with
  | .ear _ uuid r => do
    let n ← Prog.get
    let field ← requestListener r
    let first ← Prog.require field.head? .outOfRange
    return env.identity first && storeContainsUuidsRelatedTo env n uuid
  | _ => return false

/-- `i_am_origin`. -/
def iAmOrigin (env : Env) (n : Node) (uuid : UUIDv4) : Bool :=
  n.originSet.keys.any fun originated => isSameTimestamp env.ulid originated uuid

/-- (A.3.1.1) A message for a session of the store. -/
def receiveKnown (env : Env) (uuid : UUIDv4) (message : Message) (source : NodeIdentifier) :
    NodeM Unit := do
  let stored ← storeAt uuid
  let n ← Prog.get
  let uuidState := (n.handler stored).state
  let h ← getHandler env uuid .nullPointer
  let n ← Prog.get
  if (n.handler h).running then
    let h ← getHandler env uuid .nullPointer
    let n ← Prog.get
    match (n.handler h).state, message with
    | .auctionWaiting, .bid _ _ value => addBid env h value source
    | _, _ => pure ()
  else
    match uuidState with
    | .assessing | .presenting | .auctionBidding | .closed => pure ()
    | .replenishing | .preReserved | .auctionWaiting | .reserved | .ready =>
      -- `resume_handler`
      let h ← getHandler env uuid .exception
      deliver env h message source

/-- The condition of (A.3.1), whose last operand is evaluated only when the others are false. -/
def knownSession (env : Env) (uuid : UUIDv4) (atOrigin : Bool) : NodeM Bool :=
  if atOrigin then pure true else isUuidInStore env uuid false

/-- One message of `Process::operator()`. -/
def receive (env : Env) (message : Message) (source : NodeIdentifier) : NodeM Unit := do
  let n ← Prog.get
  let origin := iAmOrigin env n message.uuid
  let listener ← listenerOfMessage env message
  let inStore ← isUuidInStore env message.uuid true
  if inStore && requestingMessage message then
    pure ()
  else
    let known ← knownSession env message.uuid ((origin && inStore) || listener)
    if known then
      let n ← Prog.get
      if listener && !n.store.contains message.uuid then
        pure ()
      else
        let uuid := if origin then (n.translationTable.find? message.uuid).getD message.uuid
          else message.uuid
        receiveKnown env uuid message source
    else
      let h ← createHandler message.uuid
      deliver env h message source

/-! ## Steps -/

inductive Action
  | receive (message : Message) (source : NodeIdentifier)
  | wake (h : HandlerId)
  | timeout (h : HandlerId) (type : TimeoutType)
  | markOrigin (uuid : UUIDv4) (pid : UInt8)

def Action.enabled (n : Node) : Action → Prop
  | .receive .. => True
  | .wake h => h < n.handlers.length ∧ (n.handler h).auctionWait = true
  | .timeout h type => (h, type) ∈ n.timeouts
  | .markOrigin .. => True

/-- Takes a timer that fires from the list. -/
def Node.expire (h : HandlerId) (type : TimeoutType) (n : Node) : Node :=
  { n with timeouts := n.timeouts.erase (h, type) }

/-- The callback of a timer. Its future keeps an exception, and any other fault ends the process. -/
def fireTimeout (h : HandlerId) (type : TimeoutType) : NodeM Unit where
  run n :=
    match (runThread h (onTimeout type)).run (n.expire h type) with
    | (.ok (), n') => (.ok (), n')
    | (.error fault, n') => if fault.isException then (.ok (), n') else (.error fault, n')

def perform (env : Env) : Action → NodeM Unit
  | .receive message source => receive env message source
  | .wake h => runThread h (wake env h)
  | .timeout h type => fireTimeout h type
  | .markOrigin uuid pid => Prog.modify fun n => { n with
      originSet := n.originSet.insertNew uuid pid }

instance (n : Node) : (action : Action) → Decidable (action.enabled n)
  | .receive _ _ => inferInstanceAs (Decidable True)
  | .wake h => inferInstanceAs (Decidable (h < n.handlers.length ∧ _ = true))
  | .timeout h type => inferInstanceAs (Decidable ((h, type) ∈ n.timeouts))
  | .markOrigin _ _ => inferInstanceAs (Decidable True)

/-- One step of a node that goes on afterwards. -/
def Node.Step (n n' : Node) : Prop :=
  ∃ env action, action.enabled n ∧ (perform env action).run n = (.ok (), n')

/-- The nodes of all runs: any messages, timers and waits, in any order and any environment. -/
def Node.Reachable (n : Node) : Prop := Relation.ReflTransGen Node.Step Node.initial n

/-- A run of a node in one environment, `none` where a step is not enabled or faults. -/
def performAll (env : Env) : List Action → Node → Option Node
  | [], n => some n
  | action :: rest, n =>
    if action.enabled n then
      match (perform env action).run n with
      | (.ok (), n') => performAll env rest n'
      | (.error _, _) => none
    else none

theorem performAll_cons {env : Env} {action : Action} {rest : List Action} {n n' : Node}
    (h : performAll env (action :: rest) n = some n') :
    ∃ n₁, action.enabled n ∧ (perform env action).run n = (.ok (), n₁) ∧
      performAll env rest n₁ = some n' := by
  rw [performAll] at h
  split_ifs at h with hen
  rcases hrun : (perform env action).run n with ⟨_ | _, n₁⟩
  · simp only [hrun] at h
    cases h
  · simp only [hrun] at h
    exact ⟨n₁, hen, rfl, h⟩

theorem performAll_steps {env : Env} {actions : List Action} {n n' : Node}
    (h : performAll env actions n = some n') : Relation.ReflTransGen Node.Step n n' := by
  induction actions generalizing n with
  | nil =>
    cases h
    exact .refl
  | cons action rest ih =>
    obtain ⟨n₁, hen, hrun, hrest⟩ := performAll_cons h
    exact .head ⟨env, action, hen, hrun⟩ (ih hrest)

theorem performAll_single {env : Env} {action : Action} {n n' : Node}
    (h : performAll env [action] n = some n') : (perform env action).run n = (.ok (), n') := by
  obtain ⟨n₁, -, hrun, hend⟩ := performAll_cons h
  cases hend
  exact hrun

/-! ## Messages for evaluation -/

/-- A request for the simulated listener with the given identity. -/
def Request.sample (listener : UInt8) : Request where
  priority := 1
  listenerLength := 0
  reserved := 0
  listener := (Vector.replicate 16 0).setIfInBounds 0 listener
  payloadLength := 1
  payload := [0]

/-- The UUID with the given timestamp and entropy. -/
def sampleUuid (time : BitVec 48) (entropy : BitVec 80) : UUIDv4 := time ++ entropy

/-- An auction for a session that ends in a tie of the neighbours 6 and 7. -/
def sampleTie (u : UUIDv4) : List Action :=
  [.receive (.ear 1 u (.sample 9)) ([5], .simulation),
    .receive (.bid 1 u 0x3F800000) ([6], .simulation),
    .receive (.bid 1 u 0x3F800000) ([7], .simulation), .wake 0]

end Rankd

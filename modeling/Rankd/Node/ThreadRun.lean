import Rankd.Node.ResourceRun
import Rankd.Node.ThreadSpec

/-!
# What a round of a handler does

Rounds on sessions with at most one reservation, as equations between the state before and after.

The statements of `handler.cpp` have names as changes of a `Thread` (`sent`, `inState`, `timed`,
..), and a lemma for each says what it did if it did not fault (`sendMessage_ok`, ..). From them
follow the branches: what an EAR does to a new session (`EarTaken`) and on the way to the listener
(`Forwarded`), a MAR, the end of an auction, ACC, REF, REP and the timeouts.
-/

namespace Rankd

open Infra Prog

/-! ## Changes of a thread -/

namespace Thread

def sentAll (sends : SendingQueue) (t : Thread) : Thread :=
  { t with sendingMessages := t.sendingMessages ++ sends }

def sent (message : Message) (target : Bytes) (type : IdentifierType) (t : Thread) : Thread :=
  t.sentAll [(message, target, type)]

def inState (state : HandlerState) (t : Thread) : Thread :=
  { t with self := { t.self with state := state } }

def timed (me : HandlerId) (type : TimeoutType) (t : Thread) : Thread :=
  { t with timeouts := t.timeouts ++ [(me, type)] }

/-- The counters of an auction. -/
def awaiting (bids : UInt8) (t : Thread) : Thread :=
  { t with self := { t.self with
    waitingBids := bids
    arrivingBids := 0 } }

def stopped (t : Thread) : Thread := { t with self := { t.self with running := false } }

section Normal

/-! Changes of different parts commute: `loaded` goes first, then `sentAll`, `inState`, `timed`. -/

variable {t : Thread} {R R' : Resources} {p p' : ReservationPtr} {sends : SendingQueue}
  {s s' : HandlerState} {me : HandlerId} {type : TimeoutType}

@[simp] theorem loaded_loaded : (t.loaded R p).loaded R' p' = t.loaded R' p' := rfl

@[simp] theorem loaded_sentAll : (t.sentAll sends).loaded R p = (t.loaded R p).sentAll sends := rfl

@[simp] theorem loaded_inState : (t.inState s).loaded R p = (t.loaded R p).inState s := rfl

@[simp] theorem sentAll_inState : (t.inState s).sentAll sends = (t.sentAll sends).inState s := rfl

@[simp] theorem inState_inState : (t.inState s).inState s' = t.inState s' := rfl

@[simp] theorem inState_timed : (t.timed me type).inState s = (t.inState s).timed me type := rfl

@[simp] theorem resources_loaded : (t.loaded R p).resources = R := rfl

@[simp] theorem resources_sentAll : (t.sentAll sends).resources = t.resources := rfl

@[simp] theorem resources_inState : (t.inState s).resources = t.resources := rfl

@[simp] theorem uuid_loaded : (t.loaded R p).self.uuid = t.self.uuid := rfl

@[simp] theorem uuid_sentAll : (t.sentAll sends).self.uuid = t.self.uuid := rfl

@[simp] theorem uuid_inState : (t.inState s).self.uuid = t.self.uuid := rfl

@[simp] theorem source_loaded :
    (t.loaded R p).self.sourceIdentifier = t.self.sourceIdentifier := rfl

@[simp] theorem source_sentAll :
    (t.sentAll sends).self.sourceIdentifier = t.self.sourceIdentifier := rfl

@[simp] theorem source_inState :
    (t.inState s).self.sourceIdentifier = t.self.sourceIdentifier := rfl

end Normal

theorem sentAll_nil (t : Thread) : t.sentAll [] = t := by
  simp [sentAll]

theorem sentAll_sent {message : Message} {target : Bytes} {type : IdentifierType}
    {sends : SendingQueue} {t : Thread} :
    (t.sent message target type).sentAll sends = t.sentAll ((message, target, type) :: sends) := by
  simp [sent, sentAll]

end Thread

/-! ## Statements -/

section Statements

variable {t t' : Thread} {env : Env} {a : Nat} {x : Reservation} {T : Nat}

theorem run_setState (state : HandlerState) : (setState state).run t =
    (.ok (), t.inState state) := rfl

theorem run_stop : stop.run t = (.ok (), t.stopped) := rfl

theorem run_initiateTimeout (me : HandlerId) (type : TimeoutType) :
    (initiateTimeout me type).run t = (.ok (), t.timed me type) := rfl

theorem run_setReservation (p : ReservationPtr) :
    (setReservation p).run t = (.ok (), t.loaded t.resources p) := rfl

theorem run_onReservation {α : Type} {p : HeldM α} {r : Except Fault α} {R : Resources}
    {q : ReservationPtr} (h : p.run ⟨t.resources, t.self.reservation⟩ = (r, ⟨R, q⟩)) :
    (onReservation p).run t = (r, t.loaded R q) := by
  simp only [onReservation, zoom, h, Thread.loaded]

theorem run_sendMessage {message : Message} {target : Bytes} {type : IdentifierType}
    (h : target ≠ []) : (sendMessage message target type).run t =
      (.ok (), t.sent message target type) := by
  have htarget : (!target.isEmpty) = true := by
    rw [Bool.not_eq_true', List.isEmpty_eq_false_iff]
    exact h
  rw [sendMessage, htarget]
  rfl

theorem sendMessage_ok {message : Message} {target : Bytes} {type : IdentifierType}
    (h : (sendMessage message target type).run t = (.ok (), t')) :
    target ≠ [] ∧ t' = t.sent message target type := by
  by_cases htarget : target = []
  · subst htarget
    cases h
  · rw [run_sendMessage htarget] at h
    cases h
    exact ⟨htarget, rfl⟩

theorem run_firstByte {b : UInt8} {rest : Bytes} : (firstByte (b :: rest)).run t = (.ok b, t) := rfl

theorem firstByte_ok {bytes : Bytes} {b : UInt8} (h : (firstByte bytes).run t = (.ok b, t')) :
    t' = t ∧ bytes.head? = some b := by
  cases bytes with
  | nil => cases h
  | cons c rest =>
    cases h
    exact ⟨rfl, rfl⟩

theorem sourceFirst_ok {b : UInt8} (h : sourceFirst.run t = (.ok b, t')) :
    t' = t ∧ t.self.sourceIdentifier.1.head? = some b := by
  rw [sourceFirst, bind_ok (run_get t)] at h
  exact firstByte_ok h

theorem require_ok {α : Type} {o : Option α} {e : Fault} {b : α}
    (h : (Prog.require o e : ThreadM α).run t = (.ok b, t')) : t' = t ∧ o = some b := by
  cases o with
  | none => cases h
  | some c =>
    cases h
    exact ⟨rfl, rfl⟩

theorem nearestToSource_ok {bytes : Bytes} (h : (nearestToSource env).run t = (.ok bytes, t')) :
    t' = t ∧ ∃ source front, t.self.sourceIdentifier.1.head? = some source ∧
      (nearestConnections (getConnectionsTo env source)).head? = some front ∧ bytes = front.1 := by
  rw [nearestToSource] at h
  obtain ⟨source, t₁, hfirst, hrest⟩ := bind_eq_ok.mp h
  obtain ⟨rfl, hsource⟩ := sourceFirst_ok hfirst
  obtain ⟨front, t₂, hhead, hpure⟩ := bind_eq_ok.mp hrest
  obtain ⟨rfl, hfront⟩ := require_ok hhead
  cases hpure
  exact ⟨rfl, source, front, hsource, hfront, rfl⟩

theorem portTo_ok {target : UInt8} {bytes : Bytes}
    (h : (portTo env target).run t = (.ok bytes, t')) :
    t' = t ∧ ∃ locator, (env.connections target).head? = some locator ∧ bytes = [locator.2] := by
  rw [portTo] at h
  obtain ⟨connection, t₁, hfirst, hrest⟩ := bind_eq_ok.mp h
  obtain ⟨rfl, hconnection⟩ := require_ok hfirst
  obtain ⟨locator, t₂, hhead, hpure⟩ := bind_eq_ok.mp hrest
  obtain ⟨rfl, hlocator⟩ := require_ok hhead
  cases hpure
  rw [getConnectionsTo, List.head?_map, Option.map_eq_some_iff] at hconnection
  obtain ⟨c, hc, rfl⟩ := hconnection
  rw [List.head?_cons, Option.some.injEq] at hlocator
  exact ⟨rfl, c, hc, by rw [hlocator]⟩

theorem liftExcept_ok {α : Type} {r : Except Fault α} {b : α}
    (h : (liftExcept r).run t = (.ok b, t')) : t' = t ∧ r = .ok b := by
  cases r with
  | error e => cases h
  | ok c =>
    cases h
    exact ⟨rfl, rfl⟩

theorem ensure_ok {c : Bool} {e : Fault}
    (h : (Prog.ensure c e : ThreadM Unit).run t = (.ok (), t')) :
    t' = t ∧ c = true := by
  cases c with
  | false => cases h
  | true =>
    cases h
    exact ⟨rfl, rfl⟩

theorem run_deref (h : t.resources.Sole T a x) (hp : t.self.reservation = .listed a) :
    (onReservation deref).run t = (.ok x, t) := by
  have hrun : deref.run ⟨t.resources, t.self.reservation⟩ = (.ok x, ⟨t.resources, .listed a⟩) := by
    rw [hp]
    exact deref_listed h
  rw [run_onReservation hrun, ← hp]
  rfl

theorem run_writeThrough (h : t.resources.Sole T a x) (hp : t.self.reservation = .listed a)
    (f : Reservation → Reservation) :
    (onReservation (writeThrough f)).run t =
      (.ok (), t.loaded (t.resources.put a (f x)) (.listed a)) := by
  refine run_onReservation ?_
  rw [hp]
  exact writeThrough_listed h f

/-- `set_past_node` and `add_next_node`, whose logging may throw. -/
theorem writeAndPrint_ok (h : t.resources.Sole T a x) (hp : t.self.reservation = .listed a)
    {f : Reservation → Reservation} (hf : timestamp (f x).uuid = T)
    (hrun : (do
      onReservation (writeThrough f)
      let reservation ← onReservation deref
      Prog.ensure reservation.printable .outOfRange : ThreadM Unit).run t = (.ok (), t')) :
    (f x).printable = true ∧ t' = t.loaded (t.resources.put a (f x)) (.listed a) := by
  rw [bind_ok (run_writeThrough h hp f), bind_ok (run_deref (h.put hf) rfl)] at hrun
  obtain ⟨rfl, hprint⟩ := ensure_ok hrun
  exact ⟨hprint, rfl⟩

theorem setPastNode_ok (h : t.resources.Sole T a x) (hp : t.self.reservation = .listed a)
    {node : NodeIdentifier} (hrun : (setPastNode node).run t = (.ok (), t')) :
    (x.setPastNode node).printable = true ∧
      t' = t.loaded (t.resources.put a (x.setPastNode node)) (.listed a) :=
  writeAndPrint_ok h hp h.mem.2 hrun

theorem addNextNode_ok (h : t.resources.Sole T a x) (hp : t.self.reservation = .listed a)
    {node : NodeIdentifier} (hrun : (addNextNode node).run t = (.ok (), t')) :
    (x.addNextNode node).printable = true ∧
      t' = t.loaded (t.resources.put a (x.addNextNode node)) (.listed a) :=
  writeAndPrint_ok h hp h.mem.2 hrun

end Statements

/-! ## EAR -/

/-- An EAR that goes on toward its listener. -/
inductive Forwarded (env : Env) (me : HandlerId) (target : UInt8) (a : Nat) (x : Reservation)
    (t : Thread) : Exit → Thread → Prop
  | stuck (hc : nearestConnections (getConnectionsTo env target) = []) :
    Forwarded env me target a x t .returns
      ((t.sent (newRef t.self.uuid) t.self.sourceIdentifier.1 t.self.sourceIdentifier.2).inState
        .closed).stopped
  | single {connection : NodeIdentifier}
    (hc : nearestConnections (getConnectionsTo env target) = [connection]) :
    Forwarded env me target a x t .breaks
      ((((t.loaded (t.resources.put a (x.setPastNode t.self.sourceIdentifier)) (.listed a)).sent
        (.ear headerVersion t.self.uuid (relayedRequest env x)) connection.1 connection.2).inState
        .preReserved).timed me .ear).stopped
  | auction {sends : SendingQueue} {bids : UInt8}
    (hc : 2 ≤ (nearestConnections (getConnectionsTo env target)).length) :
    Forwarded env me target a x t .breaks
      (((((t.awaiting bids).loaded (t.resources.put a (x.setPastNode t.self.sourceIdentifier))
        (.listed a)).sentAll sends).inState .auctionWaiting).timed me .mar).stopped

section Requests

variable {t t' : Thread} {env : Env} {me : HandlerId} {a : Nat} {x : Reservation} {T : Nat}
  {exit : Exit}

/-- The MARs of an auction. -/
theorem sendMars_ok {connections : List NodeIdentifier} {uuid : UUIDv4}
    (h : t.resources.Sole T a x) (hp : t.self.reservation = .listed a)
    (hrun : (Prog.forEach connections fun intermediate => do
      let reservation ← onReservation deref
      sendMessage (.mar headerVersion uuid (relayedRequest env reservation)) intermediate.1
        intermediate.2).run t = (.ok (), t')) :
    ∃ sends, t' = t.sentAll sends := by
  induction connections generalizing t with
  | nil =>
    cases hrun
    exact ⟨[], (Thread.sentAll_nil _).symm⟩
  | cons c rest ih =>
    rw [forEach_cons] at hrun
    obtain ⟨⟨⟩, t₁, hfirst, hrest⟩ := bind_eq_ok.mp hrun
    rw [bind_ok (run_deref h hp)] at hfirst
    obtain ⟨-, rfl⟩ := sendMessage_ok hfirst
    obtain ⟨sends, hsends⟩ := ih (t := t.sent _ c.1 c.2) h hp hrest
    exact ⟨_, hsends.trans Thread.sentAll_sent⟩

theorem earForward_ok {address : Bytes} (h : t.resources.Sole T a x)
    (hp : t.self.reservation = .listed a)
    (hrun : (earForward env me address).run t = (.ok exit, t')) :
    ∃ target, address.head? = some target ∧ Forwarded env me target a x t exit t' := by
  rw [earForward] at hrun
  obtain ⟨target, t₁, hfirst, hrest⟩ := bind_eq_ok.mp hrun
  obtain ⟨rfl, htarget⟩ := firstByte_ok hfirst
  refine ⟨target, htarget, ?_⟩
  rw [bind_ok (run_get _)] at hrest
  rcases hc : nearestConnections (getConnectionsTo env target) with _ | ⟨c, _ | ⟨d, cs⟩⟩
  · simp only [hc] at hrest
    obtain ⟨⟨⟩, t₂, hsend, hend⟩ := bind_eq_ok.mp hrest
    obtain ⟨-, rfl⟩ := sendMessage_ok hsend
    cases hend
    exact .stuck hc
  · simp only [hc] at hrest
    rw [bind_ok (run_deref h hp)] at hrest
    obtain ⟨⟨⟩, t₂, hsend, hpast⟩ := bind_eq_ok.mp hrest
    obtain ⟨-, rfl⟩ := sendMessage_ok hsend
    rw [bind_ok (run_setState _)] at hpast
    obtain ⟨⟨⟩, t₃, hset, hend⟩ := bind_eq_ok.mp hpast
    obtain ⟨-, rfl⟩ := setPastNode_ok (t := (t₁.sent _ c.1 c.2).inState .preReserved) h hp hset
    cases hend
    exact .single hc
  · simp only [hc] at hrest
    obtain ⟨⟨⟩, t₂, hbids, hmars⟩ := bind_eq_ok.mp hrest
    cases hbids
    obtain ⟨⟨⟩, t₃, hloop, hpast⟩ := bind_eq_ok.mp hmars
    obtain ⟨sends, rfl⟩ := sendMars_ok (t := t₁.awaiting _) h hp hloop
    rw [bind_ok (run_setState _)] at hpast
    obtain ⟨⟨⟩, t₄, hset, hend⟩ := bind_eq_ok.mp hpast
    obtain ⟨-, rfl⟩ :=
      setPastNode_ok (t := ((t₁.awaiting _).sentAll sends).inState .auctionWaiting) h hp hset
    cases hend
    exact .auction (by rw [hc]; simp)

/-- The reservation that is built from a request. -/
def builtReservation (uuid : UUIDv4) (r : Request) (address : Bytes)
    (capabilities : RequestingCapabilities) : Reservation :=
  ((Reservation.new capabilities r.priority).markListener address).setUuid uuid

/-- The same in the list, after its assessment. -/
def admittedReservation (env : Env) (uuid : UUIDv4) (r : Request) (address : Bytes)
    (capabilities : RequestingCapabilities) : Reservation :=
  (assessed env.assessment r.priority (builtReservation uuid r address capabilities)).copy

/-- The port of the nearest connection to the source of the message. -/
def NearestToSource (env : Env) (t : Thread) (target : Bytes) : Prop :=
  ∃ source front, t.self.sourceIdentifier.1.head? = some source ∧
    (nearestConnections (getConnectionsTo env source)).head? = some front ∧ target = front.1

/-- An EAR for a session without a reservation. -/
inductive EarTaken (env : Env) (me : HandlerId) (r : Request) (t : Thread) : Exit → Thread → Prop
  | unreadable : EarTaken env me r t .returns (t.inState .closed).stopped
  | refused {pointer : ReservationPtr} {target : Bytes} (ht : NearestToSource env t target) :
    EarTaken env me r t .returns
      (((t.loaded t.resources pointer).sent (newRef t.self.uuid) target
        t.self.sourceIdentifier.2).inState .closed).stopped
  | accepted {address target : Bytes} {capabilities : RequestingCapabilities}
    (hl : listenerAddress env r.listenerLength r.listener = .ok address)
    (hme : iAmListener env r.listenerLength address = true) (ht : NearestToSource env t target) :
    EarTaken env me r t .breaks
      (((t.loaded
      (t.resources.push { admittedReservation env t.self.uuid r address capabilities with
          state := .reserved }) (.listed t.resources.nextAddress)).sent (newAcc t.self.uuid) target
        t.self.sourceIdentifier.2).inState .reserved).stopped
  | forwarded {address : Bytes} {capabilities : RequestingCapabilities} {target : UInt8}
    {exit : Exit} {t' : Thread}
    (hl : listenerAddress env r.listenerLength r.listener = .ok address)
    (hme : iAmListener env r.listenerLength address = false)
    (hu : env.unmarshal r.payload = .ok capabilities)
    (ha : env.assessment.admits r.priority
      (builtReservation t.self.uuid r address capabilities) = true)
    (ht : address.head? = some target)
    (hf : Forwarded env me target t.resources.nextAddress
      { admittedReservation env t.self.uuid r address capabilities with state := .preReserved }
      ((t.inState .assessing).loaded (t.resources.push
        { admittedReservation env t.self.uuid r address capabilities with state := .preReserved })
        (.listed t.resources.nextAddress)) exit t') :
    EarTaken env me r t exit t'

theorem refuseToSource_ok (hrun : (refuseToSource env).run t = (.ok (), t')) :
    ∃ target, NearestToSource env t target ∧
      t' = t.sent (newRef t.self.uuid) target t.self.sourceIdentifier.2 := by
  rw [refuseToSource, bind_ok (run_get t)] at hrun
  obtain ⟨target, t₁, hnear, hsend⟩ := bind_eq_ok.mp hrun
  obtain ⟨rfl, hnearest⟩ := nearestToSource_ok hnear
  exact ⟨target, hnearest, (sendMessage_ok hsend).2⟩

/-- A thread that has built the reservation of a request. -/
def Thread.built (r : Request) (address : Bytes) (capabilities : RequestingCapabilities)
    (t : Thread) : Thread :=
  (t.inState .assessing).loaded t.resources
    (.own (builtReservation t.self.uuid r address capabilities))

/-- A listener refuses what it cannot perform. -/
theorem earListener_refused {r : Request} {address : Bytes} {capabilities : RequestingCapabilities}
    (ha : env.assessment.admits r.priority
      (builtReservation t.self.uuid r address capabilities) = false)
    (hrun : (earListener env r).run (t.built r address capabilities) = (.ok exit, t')) :
    exit = .returns ∧ ∃ pointer target, NearestToSource env t target ∧
      t' = (((t.loaded t.resources pointer).sent (newRef t.self.uuid) target
        t.self.sourceIdentifier.2).inState .closed).stopped := by
  obtain ⟨z, hz⟩ := availableForPerformance_refused (R := t.resources) ha
  rw [earListener, bind_ok (run_onReservation hz)] at hrun
  obtain ⟨⟨⟩, t₁, href, hend⟩ := bind_eq_ok.mp hrun
  obtain ⟨target, hnear, rfl⟩ := refuseToSource_ok href
  cases hend
  exact ⟨rfl, .own z, target, hnear, rfl⟩

theorem earListener_ok {r : Request} {address : Bytes} {capabilities : RequestingCapabilities}
    (hfree : t.resources.Free T) (hT : timestamp t.self.uuid = T)
    (hl : listenerAddress env r.listenerLength r.listener = .ok address)
    (hme : iAmListener env r.listenerLength address = true)
    (hrun : (earListener env r).run (t.built r address capabilities) = (.ok exit, t')) :
    EarTaken env me r t exit t' := by
  rcases ha : env.assessment.admits r.priority
    (builtReservation t.self.uuid r address capabilities) with _ | _
  · obtain ⟨rfl, pointer, target, hnear, rfl⟩ := earListener_refused ha hrun
    exact .refused hnear
  · have havail := availableForPerformance_admitted (R := t.resources) ha
    rw [earListener, bind_ok (run_onReservation havail)] at hrun
    have hsole : (t.resources.push
        (admittedReservation env t.self.uuid r address capabilities)).Sole T
        t.resources.nextAddress (admittedReservation env t.self.uuid r address capabilities) :=
      hfree.push hT
    have hmark := markReservation_run hsole (y :=
      { admittedReservation env t.self.uuid r address capabilities with state := .reserved }) rfl
    rw [hfree.put_push] at hmark
    dsimp only at hrun
    rw [bind_ok (run_setReservation _), bind_ok (run_onReservation hmark),
      bind_ok (run_get _)] at hrun
    obtain ⟨target, t₁, hnear, hsend⟩ := bind_eq_ok.mp hrun
    obtain ⟨rfl, hnearest⟩ := nearestToSource_ok hnear
    obtain ⟨⟨⟩, t₂, hacc, hend⟩ := bind_eq_ok.mp hsend
    obtain ⟨-, rfl⟩ := sendMessage_ok hacc
    cases hend
    have hnearest' : NearestToSource env t target := hnearest
    simp only [Thread.built, Thread.sent, Thread.loaded_loaded, Thread.loaded_inState,
      Thread.sentAll_inState, Thread.resources_loaded, Thread.resources_inState,
      Thread.uuid_loaded, Thread.uuid_inState, Thread.source_loaded, Thread.source_inState]
    exact EarTaken.accepted hl hme hnearest'

theorem isBidInStore_false {peers : List Handler} {uuid : UUIDv4}
    (hme : ∀ h, t.store.find? uuid = some h → h = me) (hs : t.self.state ≠ .preReserved) :
    isBidInStore me peers t uuid = false := by
  rw [isBidInStore]
  rcases hf : t.store.find? uuid with _ | h
  · rfl
  · simp only [hme h hf, handlerAt, if_true, hs, decide_false]

theorem earRelay_ok {r : Request} {address : Bytes} {capabilities : RequestingCapabilities}
    {peers : List Handler} {uuid : UUIDv4}
    (hfree : t.resources.Free T) (hT : timestamp t.self.uuid = T)
    (hstore : ∀ h, t.store.find? uuid = some h → h = me)
    (hl : listenerAddress env r.listenerLength r.listener = .ok address)
    (hme : iAmListener env r.listenerLength address = false)
    (hu : env.unmarshal r.payload = .ok capabilities)
    (hrun : (earRelay env me peers uuid r address).run (t.built r address capabilities) =
      (.ok exit, t')) : EarTaken env me r t exit t' := by
  have hbid : isBidInStore me peers (t.built r address capabilities) uuid = false :=
    isBidInStore_false hstore nofun
  rw [earRelay, bind_ok (run_get _), hbid, if_neg Bool.false_ne_true] at hrun
  rcases ha : env.assessment.admits r.priority
    (builtReservation t.self.uuid r address capabilities) with _ | _
  · obtain ⟨z, hz⟩ := availableForPerformance_refused (R := t.resources) ha
    rw [bind_ok (run_onReservation hz)] at hrun
    dsimp only at hrun
    rw [bind_ok (run_setReservation _)] at hrun
    obtain ⟨⟨⟩, t₁, href, hend⟩ := bind_eq_ok.mp hrun
    obtain ⟨target, hnear, rfl⟩ := refuseToSource_ok href
    cases hend
    have hnearest : NearestToSource env t target := hnear
    simp only [Thread.built, Thread.sent, Thread.loaded_loaded, Thread.loaded_inState,
      Thread.sentAll_inState, Thread.resources_loaded, Thread.resources_inState,
      Thread.uuid_loaded, Thread.uuid_inState, Thread.source_loaded, Thread.source_inState]
    exact EarTaken.refused hnearest
  · have havail := availableForPerformance_admitted (R := t.resources) ha
    rw [bind_ok (run_onReservation havail)] at hrun
    have hsole : (t.resources.push
        (admittedReservation env t.self.uuid r address capabilities)).Sole T
        t.resources.nextAddress (admittedReservation env t.self.uuid r address capabilities) :=
      hfree.push hT
    have hpre := markPreReservation_run hsole rfl (p := .own (assessed env.assessment r.priority
      (builtReservation t.self.uuid r address capabilities))) rfl (Reservation.equals_copy rfl)
    rw [hfree.put_push] at hpre
    dsimp only at hrun
    rw [bind_ok (run_onReservation hpre), bind_ok (run_setReservation _)] at hrun
    obtain ⟨target, htarget, hf⟩ := earForward_ok (T := T) (hfree.push hT) rfl hrun
    exact .forwarded hl hme hu ha htarget hf

theorem buildReservation_ok {r : Request} {address : Bytes} {built : Bool}
    (hrun : (buildReservation env r address).run t = (.ok built, t')) :
    (built = false ∧ t' = t) ∨ ∃ capabilities, built = true ∧
      env.unmarshal r.payload = .ok capabilities ∧ t' = t.loaded t.resources
        (.own ((Reservation.new capabilities r.priority).markListener address)) := by
  rw [buildReservation] at hrun
  rcases hu : env.unmarshal r.payload with (_ | _) | capabilities
  · simp only [hu] at hrun
    split_ifs at hrun
    · cases hrun
      exact Or.inl ⟨rfl, rfl⟩
    · cases hrun
  · simp only [hu] at hrun
    cases hrun
  · simp only [hu] at hrun
    cases hrun
    exact Or.inr ⟨capabilities, rfl, rfl, rfl⟩

theorem startAssessing_preReserved (hs : t.self.state = .preReserved) :
    startAssessing.run t = (.ok (), t) := by
  rw [startAssessing, bind_ok (run_get t), if_pos hs, run_pure]

theorem startAssessing_other (hs : t.self.state ≠ .preReserved) :
    startAssessing.run t = (.ok (), t.inState .assessing) := by
  rw [startAssessing, bind_ok (run_get t), if_neg hs, run_setState]

theorem earReservation_preReserved {r : Request} (hs : t.self.state = .preReserved)
    (address : Bytes) : (earReservation env r address).run t = (.ok true, t) := by
  rw [earReservation, bind_ok (run_get t), if_pos hs, run_pure]

theorem earReservation_assessing {r : Request} (env : Env) (address : Bytes) :
    (earReservation env r address).run (t.inState .assessing) =
      (buildReservation env r address).run (t.inState .assessing) := by
  have hassess : (t.inState .assessing).self.state ≠ .preReserved := by
    intro h
    cases h
  rw [earReservation, bind_ok (run_get _), if_neg hassess]

/-- An EAR at a handler without a pre-reservation: it is unreadable, or goes to one
of two branches. -/
theorem earBranch_new {r : Request} {peers : List Handler} {uuid : UUIDv4}
    (hs : t.self.state ≠ .preReserved)
    (hrun : (earBranch env me peers uuid r).run t = (.ok exit, t')) :
    ∃ address, listenerAddress env r.listenerLength r.listener = .ok address ∧
      (((∀ capabilities, env.unmarshal r.payload ≠ .ok capabilities) ∧ exit = .returns ∧
          t' = (t.inState .closed).stopped) ∨
        ∃ capabilities, env.unmarshal r.payload = .ok capabilities ∧
          (iAmListener env r.listenerLength address = true ∧
              (earListener env r).run (t.built r address capabilities) = (.ok exit, t') ∨
            iAmListener env r.listenerLength address = false ∧
              (earRelay env me peers uuid r address).run (t.built r address capabilities) =
                (.ok exit, t'))) := by
  rw [earBranch, bind_ok (startAssessing_other hs)] at hrun
  obtain ⟨address, t₁, haddress, hrest⟩ := bind_eq_ok.mp hrun
  obtain ⟨rfl, hl⟩ := liftExcept_ok haddress
  refine ⟨address, hl, ?_⟩
  obtain ⟨built, t₂, hbuild, hbranch⟩ := bind_eq_ok.mp hrest
  rw [earReservation_assessing] at hbuild
  rcases buildReservation_ok hbuild with ⟨rfl, rfl⟩ | ⟨capabilities, rfl, hu, rfl⟩
  · cases hbranch
    refine Or.inl ⟨?_, rfl, rfl⟩
    intro capabilities hu
    rw [buildReservation, hu] at hbuild
    cases hbuild
  · have hidentify : identifyReservation.run
        ((t.inState .assessing).loaded (t.inState .assessing).resources
        (.own ((Reservation.new capabilities r.priority).markListener address))) =
        (.ok (), t.built r address capabilities) := rfl
    rw [if_pos rfl, bind_ok hidentify] at hbranch
    refine Or.inr ⟨capabilities, hu, ?_⟩
    rcases hme : iAmListener env r.listenerLength address with _ | _
    · rw [hme, if_neg Bool.false_ne_true] at hbranch
      exact Or.inr ⟨rfl, hbranch⟩
    · rw [hme, if_pos rfl] at hbranch
      exact Or.inl ⟨rfl, hbranch⟩

/-- **An EAR for a session without a reservation**, if its processing does not fault. -/
theorem earBranch_ok {r : Request} {peers : List Handler} {uuid : UUIDv4}
    (hfree : t.resources.Free T) (hT : timestamp t.self.uuid = T)
    (hs : t.self.state ≠ .preReserved)
    (hstore : ∀ h, t.store.find? uuid = some h → h = me)
    (hrun : (earBranch env me peers uuid r).run t = (.ok exit, t')) :
    EarTaken env me r t exit t' := by
  obtain ⟨address, hl, ⟨-, rfl, rfl⟩ | ⟨capabilities, hu, ⟨hme, hbranch⟩ | ⟨hme, hbranch⟩⟩⟩ :=
    earBranch_new hs hrun
  · exact .unreadable
  · exact earListener_ok hfree hT hl hme hbranch
  · exact earRelay_ok hfree hT hstore hl hme hu hbranch

/-! ### At a handler that holds a pre-reservation -/

/-- The last reservation with the UUID of the handler is the only one. -/
theorem lastWithUuid_sole (h : t.resources.Sole T a x) (hu : x.uuid = t.self.uuid) :
    lastWithUuid t = .listed a := by
  obtain ⟨l₁, l₂, hl, h₁, h₂⟩ := h.split
  have hnone : ∀ l : ReservationList, (∀ e ∈ l, timestamp e.2.uuid ≠ T) →
      l.filter (fun e => decide (e.2.uuid = t.self.uuid)) = [] := by
    intro l hl
    rw [List.filter_eq_nil_iff]
    intro e he heq
    refine hl e he ?_
    rw [of_decide_eq_true heq, ← hu]
    exact h.mem.2
  have hfilter : t.resources.reservations.filter (fun e => decide (e.2.uuid = t.self.uuid)) =
      [(a, x)] := by
    rw [hl, List.filter_append, List.filter_cons, hnone l₁ h₁, hnone l₂ h₂]
    simp [hu]
  rw [lastWithUuid, hfilter]
  rfl

theorem identifyReservation_held (h : t.resources.Sole T a x) (hp : t.self.reservation = .listed a)
    (hu : x.uuid = t.self.uuid) : identifyReservation.run t = (.ok (), t) := by
  have hnull : ¬t.self.reservation = .null := by
    rw [hp]
    nofun
  have hx : x.setUuid t.self.uuid = x := by
    rw [← hu]
    rfl
  rw [identifyReservation, bind_ok (run_get t), if_neg hnull, setReservationUuid,
    bind_ok (run_get t), run_writeThrough h hp, hx, h.put_self, ← hp]
  rfl

/-- An EAR at a handler that holds a pre-reservation `x`. -/
inductive EarHeld (env : Env) (me : HandlerId) (uuid : UUIDv4) (r : Request) (a : Nat)
    (x : Reservation) (t : Thread) : Exit → Thread → Prop
  | granted {exit : Exit} {t' : Thread} (hs : t'.self.state = .reserved) :
    EarHeld env me uuid r a x t exit t'
  | refused {address target : Bytes} {pointer : ReservationPtr} {y : Reservation}
    (hl : listenerAddress env r.listenerLength r.listener = .ok address)
    (hme : iAmListener env r.listenerLength address = true ∨ t.store.contains uuid = false)
    (ha : env.assessment.admits r.priority x = false) (hy : y.state = x.state)
    (hu : y.uuid = x.uuid) :
    EarHeld env me uuid r a x t .returns
      (((t.loaded (t.resources.put a y) pointer).sent (newRef t.self.uuid) target
        t.self.sourceIdentifier.2).inState .closed).stopped
  | forwarded {address : Bytes} {target : UInt8} {exit : Exit} {t' : Thread}
    (hl : listenerAddress env r.listenerLength r.listener = .ok address)
    (hme : iAmListener env r.listenerLength address = false)
    (hstore : t.store.contains uuid = true) (ht : address.head? = some target)
    (hf : Forwarded env me target a x t exit t') :
    EarHeld env me uuid r a x t exit t'

/-- An operation on `_reservation` that did not fault. -/
theorem onReservation_ok {α : Type} {p : HeldM α} {b : α}
    (hrun : (onReservation p).run t = (.ok b, t')) :
    ∃ s, p.run ⟨t.resources, t.self.reservation⟩ = (.ok b, s) ∧
      t' = t.loaded s.resources s.pointer := by
  rcases hr : p.run ⟨t.resources, t.self.reservation⟩ with ⟨r, s⟩
  simp only [onReservation, zoom, hr] at hrun
  obtain ⟨rfl, rfl⟩ := Prod.mk.inj hrun
  exact ⟨s, rfl, rfl⟩

theorem setPastNode_loads {node : NodeIdentifier} (hrun : (setPastNode node).run t = (.ok (), t')) :
    ∃ R p, t' = t.loaded R p := by
  rw [setPastNode] at hrun
  obtain ⟨⟨⟩, t₁, hwrite, hrest⟩ := bind_eq_ok.mp hrun
  obtain ⟨s, -, rfl⟩ := onReservation_ok hwrite
  obtain ⟨x, t₂, hread, hprint⟩ := bind_eq_ok.mp hrest
  obtain ⟨s', -, rfl⟩ := onReservation_ok hread
  obtain ⟨rfl, -⟩ := ensure_ok hprint
  exact ⟨_, _, rfl⟩

/-- How the processing of a request ends that is sent on. -/
theorem forwarded_ok {state : HandlerState} {node : NodeIdentifier} {type : TimeoutType}
    (hrun : (do
      setState state
      setPastNode node
      initiateTimeout me type
      stop
      return Exit.breaks).run t = (.ok exit, t')) :
    ∃ R p, t' = (((t.inState state).loaded R p).timed me type).stopped := by
  rw [bind_ok (run_setState _)] at hrun
  obtain ⟨⟨⟩, t₁, hpast, hend⟩ := bind_eq_ok.mp hrun
  obtain ⟨R, p, rfl⟩ := setPastNode_loads hpast
  cases hend
  exact ⟨R, p, rfl⟩

theorem earListener_held {r : Request} {address : Bytes} {uuid : UUIDv4}
    (h : t.resources.Sole T a x) (hp : t.self.reservation = .listed a)
    (hl : listenerAddress env r.listenerLength r.listener = .ok address)
    (hme : iAmListener env r.listenerLength address = true)
    (hrun : (earListener env r).run t = (.ok exit, t')) :
    EarHeld env me uuid r a x t exit t' := by
  rw [earListener] at hrun
  obtain ⟨position, t₁, havail, hrest⟩ := bind_eq_ok.mp hrun
  obtain ⟨s, hs, rfl⟩ := onReservation_ok havail
  rw [hp] at hs
  obtain ⟨hsp, ⟨rfl, ha, y, hy, hu, hsr⟩ | ⟨y, rfl, -⟩⟩ := availableForPerformance_listed h hs
  · rw [hsp, hsr] at hrest
    obtain ⟨⟨⟩, t₂, href, hend⟩ := bind_eq_ok.mp hrest
    obtain ⟨target, -, rfl⟩ := refuseToSource_ok href
    cases hend
    exact .refused hl (Or.inl hme) ha hy hu
  · obtain ⟨⟨⟩, t₂, -, hrest⟩ := bind_eq_ok.mp hrest
    obtain ⟨⟨⟩, t₃, -, hrest⟩ := bind_eq_ok.mp hrest
    obtain ⟨_, t₄, -, hrest⟩ := bind_eq_ok.mp hrest
    obtain ⟨_, t₅, -, hrest⟩ := bind_eq_ok.mp hrest
    obtain ⟨⟨⟩, t₆, -, hend⟩ := bind_eq_ok.mp hrest
    cases hend
    exact .granted rfl

theorem isBidInStore_self {peers : List Handler} {uuid : UUIDv4}
    (hme : ∀ h, t.store.find? uuid = some h → h = me) (hs : t.self.state = .preReserved) :
    isBidInStore me peers t uuid = t.store.contains uuid := by
  rw [isBidInStore, OrdMap.contains]
  rcases hf : t.store.find? uuid with _ | h
  · rfl
  · simp only [hme h hf, handlerAt, if_true, hs, decide_true, Option.isSome_some]

theorem earRelay_held {r : Request} {address : Bytes} {peers : List Handler} {uuid : UUIDv4}
    (h : t.resources.Sole T a x) (hp : t.self.reservation = .listed a)
    (hu : x.uuid = t.self.uuid) (hx : x.state ≠ .created) (hs : t.self.state = .preReserved)
    (hstore : ∀ h, t.store.find? uuid = some h → h = me)
    (hl : listenerAddress env r.listenerLength r.listener = .ok address)
    (hme : iAmListener env r.listenerLength address = false)
    (hrun : (earRelay env me peers uuid r address).run t = (.ok exit, t')) :
    EarHeld env me uuid r a x t exit t' := by
  rw [earRelay, bind_ok (run_get t), isBidInStore_self hstore hs] at hrun
  rcases hc : t.store.contains uuid with _ | _
  · rw [hc, if_neg Bool.false_ne_true] at hrun
    obtain ⟨position, t₁, havail, hrest⟩ := bind_eq_ok.mp hrun
    obtain ⟨s, hrun', rfl⟩ := onReservation_ok havail
    rw [hp] at hrun'
    obtain ⟨hsp, ⟨rfl, ha, y, hy, hyu, hsr⟩ | ⟨y, rfl, hy, hyu, hsr⟩⟩ :=
      availableForPerformance_listed h hrun'
    · rw [hsp, hsr] at hrest
      dsimp only at hrest
      rw [bind_ok (run_setReservation _)] at hrest
      obtain ⟨⟨⟩, t₂, href, hend⟩ := bind_eq_ok.mp hrest
      obtain ⟨target, -, rfl⟩ := refuseToSource_ok href
      cases hend
      exact .refused hl (Or.inr hc) ha hy hyu
    · -- The copy is new, but the pointer is to the old reservation, which cannot be marked again.
      rw [hsp, hsr] at hrest
      obtain ⟨_, t₂, hmark, -⟩ := bind_eq_ok.mp hrest
      obtain ⟨s₂, hs₂, -⟩ := onReservation_ok hmark
      have hput : (t.resources.put a y).Sole T a y := h.put (by rw [hyu]; exact h.mem.2)
      refine absurd hs₂ (markPreReservation_listed (x := y) ?_ (by rw [hy]; exact hx))
      have hold := hput.lookup
      rw [ReservationList.lookup] at hold ⊢
      obtain ⟨e, he, hey⟩ := Option.map_eq_some_iff.mp hold
      rw [Thread.resources_loaded, Resources.push, List.find?_append, he]
      simp [hey]
  · rw [hc, if_pos rfl, bind_ok (run_setReservation _), lastWithUuid_sole h hu, ← hp] at hrun
    obtain ⟨target, htarget, hf⟩ := earForward_ok (t := t) h hp hrun
    exact .forwarded hl hme hc htarget hf

/-- **An EAR at a handler that holds a pre-reservation**, if its processing does not fault. -/
theorem earBranch_held {r : Request} {peers : List Handler} {uuid : UUIDv4}
    (h : t.resources.Sole T a x) (hp : t.self.reservation = .listed a)
    (hu : x.uuid = t.self.uuid) (hx : x.state ≠ .created) (hs : t.self.state = .preReserved)
    (hstore : ∀ h, t.store.find? uuid = some h → h = me)
    (hrun : (earBranch env me peers uuid r).run t = (.ok exit, t')) :
    EarHeld env me uuid r a x t exit t' := by
  rw [earBranch, bind_ok (startAssessing_preReserved hs)] at hrun
  obtain ⟨address, t₁, haddress, hrest⟩ := bind_eq_ok.mp hrun
  obtain ⟨rfl, hl⟩ := liftExcept_ok haddress
  rw [bind_ok (earReservation_preReserved hs address), if_pos rfl,
    bind_ok (identifyReservation_held h hp hu)] at hrest
  rcases hme : iAmListener env r.listenerLength address with _ | _
  · rw [hme, if_neg Bool.false_ne_true] at hrest
    exact earRelay_held h hp hu hx hs hstore hl hme hrest
  · rw [hme, if_pos rfl] at hrest
    exact earListener_held h hp hl hme hrest

/-- A MAR for a session without a reservation. -/
inductive MarTaken (me : HandlerId) (t : Thread) : Exit → Thread → Prop
  | unreadable : MarTaken me t .returns (t.inState .closed).stopped
  | refused {pointer : ReservationPtr} :
    MarTaken me t .breaks
      (((t.loaded t.resources pointer).sent (newBid t.self.uuid 0) t.self.sourceIdentifier.1
        t.self.sourceIdentifier.2).inState .closed).stopped
  | bid {y : Reservation} {value : BitVec 32} {target : Bytes} (hy : y.state = .preReserved)
    (hu : y.uuid = t.self.uuid) :
    MarTaken me t .breaks
      ((((t.loaded (t.resources.push y) (.listed t.resources.nextAddress)).sent
        (newBid t.self.uuid value) target t.self.sourceIdentifier.2).inState .preReserved).timed
        me .bid).stopped

/-- In an auction the UUID is written to the reservation that was built. -/
theorem setReservationUuid_bidding (r : Request) (address : Bytes)
    (capabilities : RequestingCapabilities) :
    setReservationUuid.run ((t.inState .auctionBidding).loaded (t.inState .auctionBidding).resources
      (.own ((Reservation.new capabilities r.priority).markListener address))) =
    (.ok (), (t.inState .auctionBidding).loaded t.resources
      (.own (builtReservation t.self.uuid r address capabilities))) := rfl

/-- A reservation that is not admitted is answered with a bid of 0. -/
theorem marBid_refused {r : Request} {z : Reservation}
    (ha : env.assessment.admits r.priority z = false)
    (hrun : (marBid env me r).run (t.loaded R (.own z)) = (.ok exit, t')) :
    exit = .breaks ∧ ∃ z', t' = (((t.loaded R (.own z')).sent (newBid t.self.uuid 0)
      t.self.sourceIdentifier.1 t.self.sourceIdentifier.2).inState .closed).stopped := by
  obtain ⟨z', hz'⟩ := availableForPerformance_refused (R := R) ha
  rw [marBid, bind_ok (run_onReservation hz')] at hrun
  dsimp only at hrun
  rw [bind_ok (run_get _)] at hrun
  obtain ⟨source, t₁, hsource, hport⟩ := bind_eq_ok.mp hrun
  obtain ⟨rfl, -⟩ := sourceFirst_ok hsource
  obtain ⟨port, t₂, hportTo, hsend⟩ := bind_eq_ok.mp hport
  obtain ⟨rfl, -⟩ := portTo_ok hportTo
  obtain ⟨⟨⟩, t₃, hbid, hend⟩ := bind_eq_ok.mp hsend
  obtain ⟨-, rfl⟩ := sendMessage_ok hbid
  cases hend
  exact ⟨rfl, z', rfl⟩

/-- **A MAR for a session without a reservation**, if its processing does not fault. -/
theorem marBranch_ok {r : Request} (hfree : t.resources.Free T) (hT : timestamp t.self.uuid = T)
    (hrun : (marBranch env me r).run t = (.ok exit, t')) : MarTaken me t exit t' := by
  rw [marBranch, bind_ok (run_setState _)] at hrun
  obtain ⟨address, t₁, haddress, hrest⟩ := bind_eq_ok.mp hrun
  obtain ⟨rfl, -⟩ := liftExcept_ok haddress
  obtain ⟨built, t₂, hbuild, hbranch⟩ := bind_eq_ok.mp hrest
  rcases buildReservation_ok hbuild with ⟨rfl, rfl⟩ | ⟨capabilities, rfl, -, rfl⟩
  · cases hbranch
    exact .unreadable
  rw [if_pos rfl, bind_ok (setReservationUuid_bidding r address capabilities)] at hbranch
  rcases ha : env.assessment.admits r.priority
    (builtReservation t.self.uuid r address capabilities) with _ | _
  · obtain ⟨rfl, z, rfl⟩ := marBid_refused ha hbranch
    exact .refused
  · rw [marBid] at hbranch
    have havail := availableForPerformance_admitted (R := t.resources) ha
    have hsole : (t.resources.push
        (admittedReservation env t.self.uuid r address capabilities)).Sole T
        t.resources.nextAddress (admittedReservation env t.self.uuid r address capabilities) :=
      hfree.push hT
    rw [bind_ok (run_onReservation havail)] at hbranch
    dsimp only at hbranch
    rw [bind_ok (run_setReservation _), bind_ok (run_deref (T := T) hsole rfl),
      bind_ok (run_get _)] at hbranch
    obtain ⟨source, t₁, hsource, hport⟩ := bind_eq_ok.mp hbranch
    obtain ⟨rfl, -⟩ := sourceFirst_ok hsource
    obtain ⟨port, t₂, hportTo, hsend⟩ := bind_eq_ok.mp hport
    obtain ⟨rfl, -⟩ := portTo_ok hportTo
    obtain ⟨⟨⟩, t₃, hbid, hmark⟩ := bind_eq_ok.mp hsend
    obtain ⟨-, rfl⟩ := sendMessage_ok hbid
    rw [bind_ok (run_setState _), bind_ok (run_writeThrough (T := T) hsole rfl _)] at hmark
    -- The bid is written to the new element, which is then marked.
    let y := (admittedReservation env t.self.uuid r address capabilities).updateLastBid
      (env.toDouble
        (env.toFloat (admittedReservation env t.self.uuid r address capabilities).lastBid))
    have hy : (t.resources.push y).Sole T t.resources.nextAddress y := hfree.push hT
    have hpre : markPreReservation.run ⟨(t.resources.push
        (admittedReservation env t.self.uuid r address capabilities)).put t.resources.nextAddress y,
        .listed t.resources.nextAddress⟩ = (.ok t.resources.nextAddress,
          ⟨t.resources.push { y with state := .preReserved },
            .listed t.resources.nextAddress⟩) := by
      rw [hfree.put_push,
        markPreReservation_run hy rfl (deref_listed hy) (Reservation.equals_refl _), hfree.put_push]
    rw [bind_ok (run_onReservation hpre), bind_ok (run_setReservation _),
      bind_ok (run_initiateTimeout _ _), bind_ok run_stop, run_pure] at hmark
    obtain ⟨⟨⟩, rfl⟩ := Prod.mk.inj hmark
    simp only [Thread.sent, Thread.loaded_loaded, Thread.loaded_sentAll, Thread.loaded_inState,
      Thread.sentAll_inState, Thread.inState_inState, Thread.resources_loaded,
      Thread.resources_sentAll, Thread.resources_inState, Thread.uuid_loaded, Thread.uuid_inState,
      Thread.source_loaded, Thread.source_inState]
    exact MarTaken.bid (y := { y with state := .preReserved }) rfl rfl

end Requests

end Rankd

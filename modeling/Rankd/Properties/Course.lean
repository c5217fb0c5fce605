import Rankd.Node.Path
import Rankd.Properties.Unsolicited

/-!
# Rounds that get through

The rounds of one request at the nodes of its path, executed from the state before to the one after.
They do not fault if the request can be read, the nodes have a way to each other, and their names
can be printed, but for the round of a REF.

* `Node.Fresh.refuses`, `Node.Fresh.grants`, `Node.Fresh.forwards`: the request
* `Node.Awaits.accepts`: an ACC
* `Node.Awaits.dangles`: a REF
-/

namespace Rankd

open Infra Prog

/-! ## The request -/

section Request

variable {env : Env} {t : Thread} {me : HandlerId} {peers : List Handler} {uuid : UUIDv4}
  {r : Request} {address target : Bytes} {capabilities : RequestingCapabilities} {T : Nat}

/-- The branch goes on with the reservation that it has built. -/
theorem earBranch_built (hs : t.self.state ≠ .preReserved)
    (hl : listenerAddress env r.listenerLength r.listener = .ok address)
    (hu : env.unmarshal r.payload = .ok capabilities) :
    (earBranch env me peers uuid r).run t =
      (if iAmListener env r.listenerLength address then earListener env r
        else earRelay env me peers uuid r address).run (t.built r address capabilities) := by
  have hbuild : (earReservation env r address).run (t.inState .assessing) = (.ok true,
      (t.inState .assessing).loaded t.resources
        (.own ((Reservation.new capabilities r.priority).markListener address))) := by
    rw [earReservation_assessing, buildReservation, hu]
    rfl
  rw [earBranch, bind_ok (startAssessing_other hs), hl, liftExcept, pure_bind, bind_ok hbuild,
    if_pos rfl]
  rfl

theorem NearestToSource.run (h : NearestToSource env t target) :
    (nearestToSource env).run t = (.ok target, t) ∧ target ≠ [] := by
  obtain ⟨b, front, hsource, hfront, rfl⟩ := h
  exact ⟨nearestToSource_run hsource hfront,
    nearestConnections_port env b front (List.mem_of_mem_head? hfront)⟩

theorem refuseToSource_run (h : NearestToSource env t target) :
    (refuseToSource env).run t =
      (.ok (), t.sent (newRef t.self.uuid) target t.self.sourceIdentifier.2) := by
  obtain ⟨hrun, hne⟩ := h.run
  rw [refuseToSource, bind_ok (run_get t), bind_ok hrun, run_sendMessage hne]

/-- A request that cannot be performed is refused. -/
theorem earBranch_refuses (hs : t.self.state ≠ .preReserved)
    (hstore : ∀ h, t.store.find? uuid = some h → h = me)
    (hl : listenerAddress env r.listenerLength r.listener = .ok address)
    (hu : env.unmarshal r.payload = .ok capabilities)
    (ha : env.assessment.admits r.priority
      (builtReservation t.self.uuid r address capabilities) = false)
    (hnear : NearestToSource env t target) :
    ∃ p, ∀ peers, (earBranch env me peers uuid r).run t = (.ok .returns,
      (((t.loaded t.resources p).sent (newRef t.self.uuid) target
        t.self.sourceIdentifier.2).inState .closed).stopped) := by
  obtain ⟨z, hz⟩ := availableForPerformance_refused (R := t.resources) ha
  have havail := run_onReservation (t := t.built r address capabilities) hz
  by_cases hme : iAmListener env r.listenerLength address = true
  · refine ⟨.own z, fun peers => ?_⟩
    have href := refuseToSource_run
      (t := (t.built r address capabilities).loaded t.resources (.own z)) hnear
    rw [earBranch_built hs hl hu, if_pos hme, earListener, bind_ok havail]
    dsimp only
    rw [bind_ok href]
    rfl
  · refine ⟨.null, fun peers => ?_⟩
    have hbid : isBidInStore me peers (t.built r address capabilities) uuid = false :=
      isBidInStore_false hstore (by rintro ⟨⟩)
    have href := refuseToSource_run
      (t := (t.built r address capabilities).loaded t.resources .null) hnear
    rw [earBranch_built hs hl hu, if_neg hme, earRelay, bind_ok (run_get _), hbid,
      if_neg Bool.false_ne_true, bind_ok havail]
    dsimp only
    rw [bind_ok (run_setReservation _)]
    refine (bind_ok href).trans ?_
    rfl

/-- The listener grants a request that it can perform. -/
theorem earBranch_grants (me : HandlerId) (peers : List Handler) (uuid : UUIDv4)
    (hfree : t.resources.Free T) (hT : timestamp t.self.uuid = T)
    (hs : t.self.state ≠ .preReserved)
    (hl : listenerAddress env r.listenerLength r.listener = .ok address)
    (hme : iAmListener env r.listenerLength address = true)
    (hu : env.unmarshal r.payload = .ok capabilities)
    (ha : env.assessment.admits r.priority
      (builtReservation t.self.uuid r address capabilities) = true)
    (hnear : NearestToSource env t target) :
    (earBranch env me peers uuid r).run t = (.ok .breaks,
      (((t.loaded
      (t.resources.push { admittedReservation env t.self.uuid r address capabilities with
          state := .reserved }) (.listed t.resources.nextAddress)).sent (newAcc t.self.uuid) target
        t.self.sourceIdentifier.2).inState .reserved).stopped) := by
  have havail := availableForPerformance_admitted (R := t.resources) ha
  have hsole : (t.resources.push
      (admittedReservation env t.self.uuid r address capabilities)).Sole T
      t.resources.nextAddress (admittedReservation env t.self.uuid r address capabilities) :=
    hfree.push hT
  have hmark := markReservation_run hsole (y :=
    { admittedReservation env t.self.uuid r address capabilities with state := .reserved }) rfl
  rw [hfree.put_push] at hmark
  rw [earBranch_built hs hl hu, if_pos hme, earListener,
    bind_ok (run_onReservation (t := t.built r address capabilities) havail)]
  dsimp only
  rw [bind_ok (run_setReservation _), bind_ok (run_onReservation hmark), bind_ok (run_get _)]
  obtain ⟨hrun, hne⟩ := NearestToSource.run (t := (t.built r address capabilities).loaded
    (t.resources.push { admittedReservation env t.self.uuid r address capabilities with
      state := .reserved }) (.listed t.resources.nextAddress)) hnear
  refine (bind_ok hrun).trans ?_
  refine (bind_ok (run_sendMessage hne)).trans ?_
  rfl

theorem setPastNode_run {a : Nat} {x : Reservation} {node : NodeIdentifier}
    (h : t.resources.Sole T a x) (hp : t.self.reservation = .listed a)
    (hx : (x.setPastNode node).printable = true) :
    (setPastNode node).run t =
      (.ok (), t.loaded (t.resources.put a (x.setPastNode node)) (.listed a)) := by
  rw [setPastNode, bind_ok (run_writeThrough h hp _),
    bind_ok (run_deref (h.put (y := x.setPastNode node) h.mem.2) rfl), hx, ensure_true, run_pure]

/-- The request goes on over the one connection to its listener. -/
theorem earForward_run (me : HandlerId) {a : Nat} {x : Reservation} {b : UInt8}
    {connection : NodeIdentifier}
    (h : t.resources.Sole T a x) (hp : t.self.reservation = .listed a) (hb : address.head? = some b)
    (hc : nearestConnections (getConnectionsTo env b) = [connection])
    (hx : (x.setPastNode t.self.sourceIdentifier).printable = true) :
    (earForward env me address).run t = (.ok .breaks,
      ((((t.loaded (t.resources.put a (x.setPastNode t.self.sourceIdentifier)) (.listed a)).sent
        (.ear headerVersion t.self.uuid (relayedRequest env x)) connection.1 connection.2).inState
        .preReserved).timed me .ear).stopped) := by
  have hne : connection.1 ≠ [] :=
    nearestConnections_port env b connection (by rw [hc]; exact List.mem_singleton_self _)
  have hfirst : (firstByte address).run t = (.ok b, t) := by
    rw [firstByte, hb, require_some, run_pure]
  rw [earForward, bind_ok hfirst, bind_ok (run_get t)]
  simp only [hc]
  rw [bind_ok (run_deref h hp), bind_ok (run_sendMessage hne), bind_ok (run_setState _),
    bind_ok (setPastNode_run (t := (t.sent _ _ _).inState .preReserved) h hp hx)]
  rfl

/-- Another node sends a request on that it can perform. -/
theorem earBranch_forwards {b : UInt8} {connection : NodeIdentifier} (hfree : t.resources.Free T)
    (hT : timestamp t.self.uuid = T) (hs : t.self.state ≠ .preReserved)
    (hstore : ∀ h, t.store.find? uuid = some h → h = me)
    (hl : listenerAddress env r.listenerLength r.listener = .ok address)
    (hme : iAmListener env r.listenerLength address = false)
    (hu : env.unmarshal r.payload = .ok capabilities)
    (ha : env.assessment.admits r.priority
      (builtReservation t.self.uuid r address capabilities) = true)
    (hb : address.head? = some b)
    (hc : nearestConnections (getConnectionsTo env b) = [connection])
    (hsource : Readable t.self.sourceIdentifier) :
    ∃ x, (∀ peers, (earBranch env me peers uuid r).run t = (.ok .breaks,
      ((((t.loaded ((t.resources.push x).put t.resources.nextAddress
        (x.setPastNode t.self.sourceIdentifier)) (.listed t.resources.nextAddress)).sent
        (.ear headerVersion t.self.uuid (relayedRequest env x)) connection.1 connection.2).inState
        .preReserved).timed me .ear).stopped)) ∧ x.nextNodes = [] ∧ timestamp x.uuid = T := by
  refine ⟨{ admittedReservation env t.self.uuid r address capabilities with
    state := .preReserved }, fun peers => ?_, rfl, hT⟩
  have havail := availableForPerformance_admitted (R := t.resources) ha
  have hbid : isBidInStore me peers (t.built r address capabilities) uuid = false :=
    isBidInStore_false hstore (by rintro ⟨⟩)
  have hsole : (t.resources.push
      (admittedReservation env t.self.uuid r address capabilities)).Sole T
      t.resources.nextAddress (admittedReservation env t.self.uuid r address capabilities) :=
    hfree.push hT
  have hpre := markPreReservation_run hsole rfl (p := .own (assessed env.assessment r.priority
    (builtReservation t.self.uuid r address capabilities))) rfl (Reservation.equals_copy rfl)
  rw [hfree.put_push] at hpre
  have hprint : Reservation.printable (Reservation.setPastNode
      { admittedReservation env t.self.uuid r address capabilities with state := .preReserved }
      t.self.sourceIdentifier) = true := by
    simp only [Reservation.printable, Bool.and_eq_true, Bool.or_eq_true, decide_eq_true_eq]
    exact ⟨hsource.imp_left List.isEmpty_iff.mpr, rfl⟩
  have hforward := earForward_run me (t := (t.inState .assessing).loaded (t.resources.push
    { admittedReservation env t.self.uuid r address capabilities with state := .preReserved })
    (.listed t.resources.nextAddress)) (T := T) (hfree.push hT) rfl hb hc hprint
  rw [earBranch_built hs hl hu, hme, if_neg Bool.false_ne_true, earRelay, bind_ok (run_get _), hbid,
    if_neg Bool.false_ne_true,
    bind_ok (run_onReservation (t := t.built r address capabilities) havail)]
  dsimp only
  rw [bind_ok (run_onReservation hpre), bind_ok (run_setReservation _)]
  exact hforward

end Request

/-! ## The answer -/

section Answer

variable {env : Env} {t : Thread} {a : Nat} {x : Reservation} {T : Nat} {target : Bytes}
  {node : NodeIdentifier}

/-- The printers can read the node. -/
def Printed (node : NodeIdentifier) : Prop :=
  Reservation.printedBytes node.2 ≤ node.1.length

theorem Printed.readable (h : Printed node) : Readable node := Or.inr h

theorem printable_addNextNode (hpast : Readable x.pastNode) (hnext : x.nextNodes = [])
    (hnode : Printed node) : (x.addNextNode node).printable = true := by
  have hadded : (x.addNextNode node).nextNodes = [node] := by
    rw [Reservation.addNextNode, hnext]
    rfl
  rw [Reservation.printable, hadded]
  simp only [Bool.and_eq_true, Bool.or_eq_true, decide_eq_true_eq, List.all_cons, List.all_nil,
    Bool.and_true]
  exact ⟨hpast.imp_left List.isEmpty_iff.mpr, hnode⟩

/-- A thread that has reported a result. -/
def Thread.reported (code : ApiResult) (t : Thread) : Thread :=
  { t with results := t.results ++ [(code, t.self.uuid)] }

/-- The origin reports an ACC. -/
theorem accBranch_reports (h : t.resources.Sole T a x) (hp : t.self.reservation = .listed a)
    (hx : x.state = .preReserved) (hs : t.self.state ≠ .reserved)
    (htable : t.translationTable.find? t.self.uuid = none)
    (horigin : t.originSet.contains t.self.uuid = true)
    (hprint : (x.addNextNode t.self.sourceIdentifier).printable = true) :
    (accBranch env).run t = (.ok .breaks,
      ((t.loaded (t.resources.put a { x with state := .reserved })
      (.listed a)).reported .ok).granted
        a { x with state := .reserved }) := by
  have hmarked : (t.resources.put a { x with state := .reserved }).Sole T a
      { x with state := .reserved } := h.put h.mem.2
  have hreport : (communicateResult .ok t.self.uuid).run
      (t.loaded (t.resources.put a { x with state := .reserved }) (.listed a)) =
      (.ok (), (t.loaded (t.resources.put a { x with state := .reserved })
        (.listed a)).reported .ok) :=
    rfl
  have hprint' : (Reservation.addNextNode { x with state := .reserved }
      t.self.sourceIdentifier).printable = true := hprint
  rw [accBranch, bind_ok (run_get t), if_neg hs,
    bind_ok (run_markReservation h hp (markItem_preReserved hx))]
  simp only [htable]
  rw [if_pos horigin, bind_ok hreport,
    bind_ok (addNextNode_run (t := Thread.reported .ok _) hmarked rfl hprint')]
  rfl

/-- Other nodes pass an ACC on. -/
theorem accBranch_relays (h : t.resources.Sole T a x) (hp : t.self.reservation = .listed a)
    (hx : x.state = .preReserved) (hs : t.self.state ≠ .reserved)
    (htable : t.translationTable.find? t.self.uuid = none)
    (horigin : t.originSet.contains t.self.uuid = false) (hport : x.pastPort env = some target)
    (hprint : (x.addNextNode t.self.sourceIdentifier).printable = true) :
    (accBranch env).run t = (.ok .breaks,
      ((t.loaded (t.resources.put a { x with state := .reserved }) (.listed a)).sent
        (newAcc t.self.uuid) target .simulation).granted a { x with state := .reserved }) := by
  have hmarked : (t.resources.put a { x with state := .reserved }).Sole T a
      { x with state := .reserved } := h.put h.mem.2
  rw [accBranch, bind_ok (run_get t), if_neg hs,
    bind_ok (run_markReservation h hp (markItem_preReserved hx))]
  simp only [htable]
  rw [if_neg (Bool.eq_false_iff.mp horigin)]
  exact accRelay_run (t := t.loaded _ _) hmarked rfl hport hprint

end Answer

/-! ## Nodes -/

/-- The reservations of the session have no next nodes yet. -/
def Node.Unanswered (u : UUIDv4) (n : Node) : Prop :=
  ∀ e ∈ n.resources.reservations, timestamp e.2.uuid = timestamp u → e.2.nextNodes = []

section Nodes

variable {env : Env} {n n' : Node} {u : UUIDv4} {origin : Bool} {source node : NodeIdentifier}
  {v : UInt8} {r : Request} {address target : Bytes} {capabilities : RequestingCapabilities}
  {h : HandlerId} {exit : Exit} {t : Thread}

/-- The first message of a session, if its branch does not fault. -/
theorem Node.Fresh.receives (message : Message) (hs : n.Fresh message.uuid origin) {listener : Bool}
    (hl : (listenerOfMessage env message).run n = (.ok listener, n))
    (hswitch : ∀ peers, (messageSwitch env n.handlers.length peers message).run
      ((n.opening message source).loaded n.resources .null) = (.ok exit, t)) :
    (perform env (.receive message source)).run n =
      (.ok (), Node.putThread (t.left exit) n.handlers.length (n.created message.uuid)) := by
  have hload : (loadReservation env).run (n.opening message source) =
      (.ok (), (n.opening message source).loaded n.resources .null) := by
    refine loadReservation_free hs.free ?_
    cases message <;> rfl
  have hlt : n.handlers.length < (n.created message.uuid).handlers.length := by simp [Node.created]
  have hstart : (n.created message.uuid).startThread n.handlers.length message source =
      n.opening message source := by
    rw [Node.startThread, Node.handler_created_self]
    rfl
  have hcall := operatorCall_run hload (checkReservation_null rfl) (hswitch
    ((n.created message.uuid).accepting n.handlers.length message source).handlers)
  rw [← hstart] at hcall
  exact (receive_unstored hs.unstored hl source).trans (deliver_run hlt hcall)

/-- What the thread of a new handler starts from. -/
theorem Node.Fresh.opening_store (u : UUIDv4) (n : Node) :
    ∀ h, (n.created u).store.find? u = some h → h = n.handlers.length := by
  intro h hh
  rw [Node.created, OrdMap.find?_assign, if_pos rfl] at hh
  exact (Option.some.inj hh).symm

/-- A node that cannot perform the request refuses it. -/
theorem Node.Fresh.refuses (hs : n.Fresh u origin)
    (hl : listenerAddress env r.listenerLength r.listener = .ok address)
    (hu : env.unmarshal r.payload = .ok capabilities)
    (ha : env.assessment.admits r.priority (builtReservation u r address capabilities) = false)
    (hnear : env.Nearest source target) : ∃ n',
      (perform env (.receive (.ear v u r) source)).run n = (.ok (), n') ∧
      n'.sendingMessages = n.sendingMessages ++ [(newRef u, target, source.2)] := by
  obtain ⟨listener, hlistener⟩ := listenerOfMessage_readable (n := n) (v := v) (u := u) hl
  obtain ⟨p, hrun⟩ := earBranch_refuses
    (t := (n.opening (.ear v u r) source).loaded n.resources .null) (by rintro ⟨⟩)
    (Node.Fresh.opening_store u n) hl hu ha hnear
  exact ⟨_, hs.receives (.ear v u r) hlistener hrun, rfl⟩

/-- The listener grants the request if it can perform it. -/
theorem Node.Fresh.grants (hs : n.Fresh u origin)
    (hl : listenerAddress env r.listenerLength r.listener = .ok address)
    (hme : iAmListener env r.listenerLength address = true)
    (hu : env.unmarshal r.payload = .ok capabilities)
    (ha : env.assessment.admits r.priority (builtReservation u r address capabilities) = true)
    (hnear : env.Nearest source target) : ∃ n',
      (perform env (.receive (.ear v u r) source)).run n = (.ok (), n') ∧
      n'.sendingMessages = n.sendingMessages ++ [(newAcc u, target, source.2)] := by
  obtain ⟨listener, hlistener⟩ := listenerOfMessage_readable (n := n) (v := v) (u := u) hl
  have hrun := fun peers => earBranch_grants n.handlers.length peers u
    (t := (n.opening (.ear v u r) source).loaded n.resources .null) hs.free rfl
    (by rintro ⟨⟩) hl hme hu ha hnear
  exact ⟨_, hs.receives (.ear v u r) hlistener hrun, rfl⟩

/-- Another node sends the request on if it can perform it. -/
theorem Node.Fresh.forwards {b : UInt8} {connection : NodeIdentifier} (hs : n.Fresh u origin)
    (hl : listenerAddress env r.listenerLength r.listener = .ok address)
    (hme : iAmListener env r.listenerLength address = false)
    (hu : env.unmarshal r.payload = .ok capabilities)
    (ha : env.assessment.admits r.priority (builtReservation u r address capabilities) = true)
    (hb : address.head? = some b)
    (hc : nearestConnections (getConnectionsTo env b) = [connection]) (hsource : Readable source) :
    ∃ n' x, (perform env (.receive (.ear v u r) source)).run n = (.ok (), n') ∧
      n'.sendingMessages = n.sendingMessages ++
        [(.ear headerVersion u (relayedRequest env x), connection.1, connection.2)] ∧
      n'.Unanswered u := by
  obtain ⟨listener, hlistener⟩ := listenerOfMessage_readable (n := n) (v := v) (u := u) hl
  obtain ⟨x, hrun, hnext, hx⟩ := earBranch_forwards
    (t := (n.opening (.ear v u r) source).loaded n.resources .null) hs.free rfl (by rintro ⟨⟩)
    (Node.Fresh.opening_store u n) hl hme hu ha hb hc hsource
  refine ⟨_, x, hs.receives (.ear v u r) hlistener hrun, rfl, fun e he hT => ?_⟩
  have hsole := (hs.free.push hx).put (y := x.setPastNode source) hx
  rw [(hsole.eq_of_mem (b := e.1) he hT).2]
  exact hnext

/-- The message of a session that waits, as its branch ends. -/
theorem Node.Awaits.receives (message : Message) (hs : n.Awaits u origin source h)
    (hn : n.Reachable) (hm : message.uuid = u) (hq : requestingMessage message = false)
    (hl : (listenerOfMessage env message).run n = (.ok false, n)) {a : Nat} {x : Reservation}
    (hsole : n.resources.Sole (timestamp u) a x) (hu : x.uuid = u) {result : Except Fault Unit}
    (hswitch : ∀ peers, (do
      let exit ← messageSwitch env h peers message
      leaveSwitch exit).run ((n.startThread h message node).loaded n.resources (.listed a)) =
        (result, t)) :
    (perform env (.receive message node)).run n = (result, Node.putThread t h n) := by
  subst hm
  have hinv := hn.inv
  have hk := hs.stored
  obtain ⟨hf, -, hreceive⟩ := receive_stored hinv (OrdMap.mem_keys.mpr ⟨_, hk⟩) rfl hl node
  have hsame : n.lookedUp env message = n := hf.eq_of_stored hinv hk
  have hhandled : handledUuid env n message = message.uuid := by
    rw [handledUuid, hs.untranslated]
    exact ite_self _
  have hself : (n.startThread h message node).self.uuid = message.uuid :=
    Node.startThread_uuid.trans hs.uuid
  have hload : (loadReservation env).run (n.startThread h message node) =
      (.ok (), (n.startThread h message node).loaded n.resources (.listed a)) := by
    rw [loadReservation_sole (t := n.startThread h message node) hsole (congrArg timestamp hself),
      hself]
    have hkept : x.setUuid message.uuid = x := by
      rw [← hu]
      rfl
    rw [hkept]
    exact congrArg (fun R => (_, Thread.loaded R _ _)) hsole.put_self
  have hcode : x.listenerLength = 0 := (((hn.listens 0) 0).session.listed _ hsole.mem.1).code
  have hcheck := checkReservation_sole
    (t := (n.startThread h message node).loaded n.resources (.listed a)) hsole rfl
    (by rw [hcode]; exact UInt8.zero_le)
  have hcall : (operatorCall env h (n.accepting h message node).handlers message).run
      (n.startThread h message node) = (result, t) := by
    rw [operatorCall, bind_ok hload, bind_ok hcheck]
    exact hswitch _
  have hresumable : (n.handler h).state.resumable = true := by
    rw [hs.state]
    rfl
  refine hreceive.trans ?_
  rw [hq, if_neg Bool.false_ne_true, Bool.false_and, if_neg Bool.false_ne_true, hsame, hhandled,
    receiveKnown_run hinv.unique hk, hs.idle, if_neg Bool.false_ne_true, if_pos hresumable,
    deliver_run (hinv.stored _ _ hk).1 hcall]

/-- **A node that waits takes an ACC.** -/
theorem Node.Awaits.accepts (hs : n.Awaits u origin source h) (hn : n.Reachable)
    (hnext : n.Unanswered u) (hpast : Readable source) (hnode : Printed node)
    (hport : origin = false → simulatedPort env source = some target) : ∃ n',
      (perform env (.receive (newAcc u) node)).run n = (.ok (), n') ∧
      n'.sendingMessages = n.sendingMessages ++
        if origin then [] else [(newAcc u, target, .simulation)] := by
  obtain ⟨a, x, -, hsole, hx, hu, rfl⟩ := hs.reservation
  set t₁ := (n.startThread h (newAcc u) node).loaded n.resources (.listed a) with ht₁
  have hprint : (x.addNextNode t₁.self.sourceIdentifier).printable = true :=
    printable_addNextNode hpast (hnext (a, x) hsole.mem.1 hsole.mem.2) hnode
  have huuid : t₁.self.uuid = u := hs.uuid
  have hstate : t₁.self.state ≠ .reserved := by
    have hpre : t₁.self.state = .preReserved := hs.state
    rw [hpre]
    nofun
  have htable : t₁.translationTable.find? t₁.self.uuid = none := by
    rw [huuid]
    exact hs.untranslated
  have horigin : t₁.originSet.contains t₁.self.uuid = origin := by
    rw [huuid]
    exact hs.origin
  have hsole₁ : t₁.resources.Sole (timestamp u) a x := hsole
  cases origin with
  | true =>
    refine ⟨_, hs.receives (newAcc u) hn rfl rfl rfl hsole hu fun peers =>
      bind_ok (accBranch_reports hsole₁ rfl hx hstate htable horigin hprint), ?_⟩
    rw [if_pos rfl, List.append_nil]
    rfl
  | false =>
    refine ⟨_, hs.receives (newAcc u) hn rfl rfl rfl hsole hu fun peers =>
      bind_ok (accBranch_relays hsole₁ rfl hx hstate htable horigin (hport rfl) hprint), ?_⟩
    rw [if_neg Bool.false_ne_true, ← huuid]
    rfl

/-- **A node that waits does not survive a REF**, whatever its environment. -/
theorem Node.Awaits.dangles (hs : n.Awaits u origin source h) (hn : n.Reachable) (env : Env)
    (node : NodeIdentifier) :
    ((perform env (.receive (newRef u) node)).run n).1 = .error .danglingIterator := by
  obtain ⟨a, x, -, hsole, hx, hu, -⟩ := hs.reservation
  have hstored : ((n.startThread h (newRef u) node).loaded n.resources (.listed a)).store.find?
      ((n.startThread h (newRef u) node).loaded n.resources (.listed a)).self.uuid = some h := by
    rw [show ((n.startThread h (newRef u) node).loaded n.resources (.listed a)).self.uuid = u
      from hs.uuid]
    exact hs.stored
  have hbranch : ∀ peers, (refBranch env h peers).run
      ((n.startThread h (newRef u) node).loaded n.resources (.listed a)) =
        (.error .danglingIterator, _) :=
    fun peers => bind_error (refErase_faults hstored rfl hsole.lookup hx)
  rw [hs.receives (newRef u) hn rfl rfl rfl hsole hu fun peers => bind_error (hbranch peers)]

end Nodes

end Rankd

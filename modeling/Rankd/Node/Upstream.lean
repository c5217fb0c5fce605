import Rankd.Node.Marking
import Rankd.Node.ReplyRun
import Rankd.Node.Steps

/-!
# Past nodes

The past node of a reservation is set in one place, where a request goes on toward its listener, and
it is set to the source of the handler. All other statements copy it. So a property of the past
nodes holds of every reservation of a run if it holds of the neighbours that EARs are received from
(`operatorCall_past`, `wake_past`).
-/

namespace Rankd

open Infra Infra.Prog

/-! ## Properties of past nodes -/

/-- Nothing but what session and past node say changes. -/
structure Reservation.SamePast (r r' : Reservation) : Prop where
  session : timestamp r'.uuid = timestamp r.uuid
  pastNode : r'.pastNode = r.pastNode

/-- A property of session and past node that holds as long as there is no past node. -/
structure PastProperty (Q : Reservation → Prop) : Prop where
  blank : ∀ {r : Reservation}, r.pastNode = ([], .simulation) → Q r
  same : ∀ {r r' : Reservation}, r.SamePast r' → Q r → Q r'

namespace Reservation.SamePast

variable {r r' : Reservation}

theorem reserve (h : r.reserve = some r') : r.SamePast r' := by
  unfold Reservation.reserve at h
  split_ifs at h
  cases h
  exact ⟨rfl, rfl⟩

theorem preReserve (h : r.preReserve = some r') : r.SamePast r' := by
  unfold Reservation.preReserve at h
  split_ifs at h
  cases h
  exact ⟨rfl, rfl⟩

theorem markReserved (h : r.markReserved = some r') : r.SamePast r' := by
  unfold Reservation.markReserved at h
  split_ifs at h
  cases h
  exact ⟨rfl, rfl⟩

theorem replenish (h : r.replenish = some r') : r.SamePast r' := by
  unfold Reservation.replenish at h
  split_ifs at h
  cases h
  exact ⟨rfl, rfl⟩

theorem markItem (h : Rankd.markItem r = some r') : r.SamePast r' := by
  unfold Rankd.markItem at h
  split_ifs at h
  · exact markReserved h
  · exact reserve h

end Reservation.SamePast

/-! ## Operations of the list -/

section Operations

variable {Q : Reservation → Prop}

theorem deref_past : Maintains (Held.All Q) deref := .readOnly fun _ => rfl

theorem writeThrough_past (hQ : PastProperty Q) {f : Reservation → Reservation}
    (hf : ∀ r : Reservation, r.SamePast (f r)) : Maintains (Held.All Q) (writeThrough f) := by
  intro s hs
  unfold writeThrough deref
  simp only [run_bind]
  rcases hr : s.read with e | r
  · trivial
  · exact hs.write (hQ.same (hf r) (hs.read hr))

theorem changeThrough_past (hQ : PastProperty Q) {f : Reservation → Option Reservation}
    (hf : ∀ r r', f r = some r' → r.SamePast r') : Maintains (Held.All Q) (changeThrough f) := by
  intro s hs
  unfold changeThrough writeThrough deref
  simp only [run_bind]
  rcases hr : s.read with e | r
  · trivial
  · dsimp only
    rcases hy : f r with _ | y
    · exact trivial
    · -- the pointer is read a second time, and nothing has changed
      simp only [require_some, run_pure, hr]
      exact hs.write (hQ.same (hf r y hy) (hs.read hr))

theorem changeAt_past (hQ : PastProperty Q) {a : Nat} {f : Reservation → Option Reservation}
    (hf : ∀ r r', f r = some r' → r.SamePast r') : Maintains (Held.All Q) (changeAt a f) := by
  intro s hs
  unfold changeAt itemAt writeAt
  simp only [run_bind, run_get]
  rcases hl : ReservationList.lookup s.resources.reservations a with _ | r
  · trivial
  · simp only [require_some, run_pure]
    rcases hy : f r with _ | y
    · trivial
    · exact hs.update (hQ.same (hf r y hy) (hs.listed _ (ReservationList.lookup_mem hl)))

theorem deref_property :
    Triple (Held.All Q) deref (fun r s => s.All Q ∧ Q r) fun _ => True := by
  intro s hs
  unfold deref
  dsimp only
  rcases hr : s.read with e | r
  · trivial
  · exact ⟨hs, hs.read hr⟩

theorem pushBack_past (hQ : PastProperty Q) {r : Reservation} (hr : Q r) :
    Maintains (Held.All Q) (pushBack r) := by
  refine .get fun _ _ => .bind (.modify fun s hs => ⟨?_, hs.owned⟩) fun _ => .pure _
  intro e he
  rcases List.mem_append.mp he with he | he
  · exact hs.listed e he
  · rw [List.mem_singleton.mp he]
    exact hQ.same (⟨rfl, rfl⟩ : r.SamePast r.copy) hr

theorem availableForPerformance_past (hQ : PastProperty Q) (assessment : Assessment)
    (priority : UInt8) : Maintains (Held.All Q) (availableForPerformance assessment priority) := by
  refine .bind deref_past fun _ => .ite (.pure _) ?_
  refine .bind (writeThrough_past hQ fun _ => ⟨rfl, rfl⟩) fun _ => .bind deref_past fun _ => ?_
  refine .bind (writeThrough_past hQ fun _ => ⟨rfl, rfl⟩) fun _ => .ite (.pure _) ?_
  refine Triple.bind deref_property fun r => Triple.assume fun hr => ?_
  exact Maintains.bind (pushBack_past hQ hr) fun _ => .pure _

theorem itemAt_past (a : Nat) : Maintains (Held.All Q) (itemAt a) :=
  .get fun _ _ => .readOnly (.require _ _)

theorem markLoop_past (hQ : PastProperty Q) (l : List Nat) (found : Bool) :
    Maintains (Held.All Q) (markLoop l found) := by
  induction l generalizing found with
  | nil => exact .pure _
  | cons a rest ih =>
    refine .bind deref_past fun _ => .bind (itemAt_past a) fun _ => .ite ?_ (ih found)
    exact .bind (changeAt_past hQ fun _ _ => .markItem) fun _ => ih true

theorem markReservation_past (hQ : PastProperty Q) : Maintains (Held.All Q) markReservation := by
  refine .get fun _ _ => .bind (markLoop_past hQ _ _) fun found => .ite (.pure _) ?_
  exact changeThrough_past hQ fun _ _ => .reserve

theorem markPreLoop_past (hQ : PastProperty Q) (l : List Nat) :
    Maintains (Held.All Q) (markPreLoop l) := by
  induction l with
  | nil => exact .pure _
  | cons a rest ih =>
    refine .bind deref_past fun _ => .bind (itemAt_past a) fun _ => .ite ?_ ih
    exact .bind (changeAt_past hQ fun _ _ => .preReserve) fun _ => .pure _

theorem markPreReservation_past (hQ : PastProperty Q) :
    Maintains (Held.All Q) markPreReservation := by
  refine .get fun _ _ => .bind (markPreLoop_past hQ _) fun found => ?_
  cases found with
  | some a => exact .pure _
  | none =>
    refine .bind (changeThrough_past hQ fun _ _ => .preReserve) fun _ => ?_
    exact Triple.bind deref_property fun r => Triple.assume fun hr => pushBack_past hQ hr

end Operations

/-! ## Statements -/

/-- The reservations that a thread can reach have the property; `y` is the source of its handler. -/
structure Thread.Sourced (Q : Reservation → Prop) (y : NodeIdentifier) (t : Thread) : Prop where
  held : t.held.All Q
  source : t.self.sourceIdentifier = y

/-- The property is kept, unless the program faults. -/
abbrev KeepsPast {α : Type} (Q : Reservation → Prop) (y : NodeIdentifier) (p : ThreadM α) : Prop :=
  Maintains (Thread.Sourced Q y) p

section Statements

variable {Q : Reservation → Prop} {y : NodeIdentifier} {env : Env} {me : HandlerId}
  {peers : List Handler}

theorem modify_past {f : Thread → Thread} (hheld : ∀ t, (f t).held = t.held)
    (hsource : ∀ t, (f t).self.sourceIdentifier = t.self.sourceIdentifier) :
    KeepsPast Q y (Prog.modify f) := by
  refine .modify fun t ht => ⟨?_, (hsource t).trans ht.source⟩
  rw [hheld]
  exact ht.held

theorem modifySelf_past {f : Handler → Handler} (hr : ∀ s, (f s).reservation = s.reservation)
    (hs : ∀ s, (f s).sourceIdentifier = s.sourceIdentifier) : KeepsPast Q y (modifySelf f) :=
  modify_past (fun t => congrArg (Held.mk t.resources) (hr t.self)) fun t => hs t.self

theorem setState_past (state : HandlerState) : KeepsPast Q y (setState state) :=
  modify_past (fun _ => rfl) fun _ => rfl

theorem stop_past : KeepsPast Q y stop := modify_past (fun _ => rfl) fun _ => rfl

theorem initiateTimeout_past (type : TimeoutType) : KeepsPast Q y (initiateTimeout me type) :=
  modify_past (fun _ => rfl) fun _ => rfl

/-- The pointer takes no reservation of its own. -/
theorem setReservation_past {p : ReservationPtr} (hp : ∀ r, p ≠ .own r) :
    KeepsPast Q y (setReservation p) :=
  .modify fun _ ht => ⟨⟨ht.held.listed, fun r hr => absurd hr (hp r)⟩, ht.source⟩

theorem onReservation_past {α : Type} {p : HeldM α} (hp : Maintains (Held.All Q) p) :
    KeepsPast Q y (onReservation p) :=
  .zoom hp (fun _ ht => ht.held) fun _ _ ht hs => ⟨hs, ht.source⟩

theorem deref_sourced : KeepsPast Q y (onReservation deref) := .readOnly deref_readOnly

theorem sendMessage_past (message : Message) (target : Bytes) (type : IdentifierType) :
    KeepsPast Q y (sendMessage message target type) :=
  .bind (.readOnly (.ensure _ _)) fun _ => modify_past (fun _ => rfl) fun _ => rfl

theorem finish_past (state : HandlerState) (exit : Exit) :
    KeepsPast Q y (do setState state; stop; return exit) :=
  .bind (setState_past _) fun _ => .bind stop_past fun _ => .pure _

theorem stopped_past (exit : Exit) : KeepsPast Q y (do stop; return exit) :=
  .bind stop_past fun _ => .pure _

theorem addNextNode_past (hQ : PastProperty Q) (node : NodeIdentifier) :
    KeepsPast Q y (addNextNode node) := by
  refine .bind (onReservation_past (writeThrough_past hQ fun _ => ⟨rfl, rfl⟩)) fun _ => ?_
  exact .bind deref_sourced fun _ => .readOnly (.ensure _ _)

theorem refuseToSource_past : KeepsPast Q y (refuseToSource env) :=
  .get fun _ _ => .bind (.readOnly nearestToSource_readOnly) fun _ => sendMessage_past _ _ _

theorem leaveSwitch_past (exit : Exit) : KeepsPast Q y (leaveSwitch exit) := by
  cases exit with
  | breaks => exact modify_past (fun _ => rfl) fun _ => rfl
  | returns => exact .pure _
  | waits => exact .pure _

end Statements

/-! ## Branches that set no past node -/

section Branches

variable {Q : Reservation → Prop} {y : NodeIdentifier} {env : Env} {me : HandlerId}
  {peers : List Handler}

theorem earListener_past (hQ : PastProperty Q) (r : Request) :
    KeepsPast Q y (earListener env r) := by
  refine .bind (onReservation_past (availableForPerformance_past hQ _ _)) fun position => ?_
  cases position with
  | some address =>
    refine .bind (setReservation_past nofun) fun _ => ?_
    refine .bind (onReservation_past (markReservation_past hQ)) fun _ => .get fun _ _ => ?_
    refine .bind (.readOnly nearestToSource_readOnly) fun _ => ?_
    exact .bind (sendMessage_past _ _ _) fun _ => finish_past _ _
  | none => exact .bind refuseToSource_past fun _ => finish_past _ _

theorem marBid_past (hQ : PastProperty Q) (r : Request) : KeepsPast Q y (marBid env me r) := by
  refine .bind (onReservation_past (availableForPerformance_past hQ _ _)) fun position => ?_
  cases position with
  | some address =>
    refine .bind (setReservation_past nofun) fun _ => .bind deref_sourced fun _ => ?_
    refine .get fun _ _ => .bind (.readOnly sourceFirst_readOnly) fun _ => ?_
    refine .bind (.readOnly (portTo_readOnly _)) fun _ => .bind (sendMessage_past _ _ _) fun _ => ?_
    refine .bind (setState_past _) fun _ => ?_
    refine .bind (onReservation_past (writeThrough_past hQ fun _ => ⟨rfl, rfl⟩)) fun _ => ?_
    refine .bind (onReservation_past (markPreReservation_past hQ)) fun _ => ?_
    refine .bind (setReservation_past nofun) fun _ => ?_
    exact .bind (initiateTimeout_past _) fun _ => stopped_past _
  | none =>
    refine .get fun _ _ => .bind (.readOnly sourceFirst_readOnly) fun _ => ?_
    refine .bind (.readOnly (portTo_readOnly _)) fun _ => .bind (sendMessage_past _ _ _) fun _ => ?_
    exact finish_past _ _

theorem bidBranch_past (value : BitVec 32) : KeepsPast Q y (bidBranch me value) := by
  refine .get fun _ _ => .ite ?_ (finish_past _ _)
  refine .bind (modify_past (fun _ => rfl) fun _ => rfl) fun _ => ?_
  refine .bind (initiateTimeout_past _) fun _ => ?_
  exact .bind (modify_past (fun _ => rfl) fun _ => rfl) fun _ => .pure _

theorem sendAuctionEar_past (uuid : UUIDv4) (winner : NodeIdentifier) :
    KeepsPast Q y (sendAuctionEar env uuid winner) := by
  refine .bind deref_sourced fun _ => .bind (.readOnly (firstByte_readOnly _)) fun _ => ?_
  refine .bind (.readOnly sourceFirst_readOnly) fun _ => ?_
  exact .bind (.readOnly (portTo_readOnly _)) fun _ => sendMessage_past _ _ _

theorem tieRound_past (winner : NodeIdentifier × Nat) : KeepsPast Q y (tieRound env me winner) := by
  refine .get fun _ _ => .bind ?_ fun _ => .bind (sendAuctionEar_past _ _) fun _ => ?_
  · exact .bind (modify_past (fun _ => rfl) fun _ => rfl) fun _ => .pure _
  · exact .bind (setState_past _) fun _ => initiateTimeout_past _

/-- The end of an auction. -/
theorem auctionEnd_past : KeepsPast Q y (auctionEnd env me) := by
  have htie : ∀ winners : List NodeIdentifier, KeepsPast Q y
      (do Prog.forEach winners.zipIdx (tieRound env me); stop; return Exit.breaks) :=
    fun _ => .bind (.forEach fun _ => tieRound_past _) fun _ => stopped_past _
  refine .get fun t _ => .ite (.bind (sendMessage_past _ _ _) fun _ => finish_past _ _) ?_
  split
  · refine .bind (sendAuctionEar_past _ _) fun _ => .bind (setState_past _) fun _ => ?_
    exact .bind (initiateTimeout_past _) fun _ => stopped_past _
  · exact htie _

theorem wake_past : KeepsPast Q y (wake env me) := by
  refine .bind (modify_past (fun _ => rfl) fun _ => rfl) fun _ => ?_
  exact .bind auctionEnd_past fun exit => leaveSwitch_past exit

theorem accRelay_past (hQ : PastProperty Q) : KeepsPast Q y (accRelay env) := by
  refine .get fun _ _ => .bind (.readOnly pastNodePort_readOnly) fun port => ?_
  cases port with
  | none => exact stopped_past _
  | some target =>
    refine .bind (sendMessage_past _ _ _) fun _ => .bind (setState_past _) fun _ => ?_
    exact .bind (addNextNode_past hQ _) fun _ => stopped_past _

theorem accBranch_past (hQ : PastProperty Q) : KeepsPast Q y (accBranch env) := by
  refine .get fun t _ => .ite (stopped_past _) ?_
  refine .bind (onReservation_past (markReservation_past hQ)) fun _ => ?_
  split
  · refine .bind (.get fun _ _ => ?_) fun _ => accRelay_past hQ
    refine .bind (.readOnly (.ensure _ _)) fun _ => ?_
    exact modify_past (fun _ => rfl) fun _ => rfl
  · refine .ite ?_ (accRelay_past hQ)
    refine .bind (modify_past (fun _ => rfl) fun _ => rfl) fun _ => ?_
    exact .bind (addNextNode_past hQ _) fun _ => finish_past _ _

theorem refRelay_past : KeepsPast Q y (refRelay env) := by
  refine .get fun _ _ => .bind (.readOnly sourcePort_readOnly) fun port => ?_
  cases port with
  | none => exact stopped_past _
  | some target => exact .bind (sendMessage_past _ _ _) fun _ => finish_past _ _

theorem refReply_past : KeepsPast Q y (refReply env) := by
  refine .get fun t _ => ?_
  split
  · refine .bind (modify_past (fun _ => rfl) fun _ => rfl) fun _ => .get fun _ _ => ?_
    exact .ite refRelay_past (finish_past _ _)
  · refine .ite ?_ refRelay_past
    refine .bind (modify_past (fun _ => rfl) fun _ => rfl) fun _ => ?_
    exact .bind (modify_past (fun _ => rfl) fun _ => rfl) fun _ => finish_past _ _

theorem repForward_past : KeepsPast Q y (repForward env me) := by
  refine .get fun _ _ => .bind deref_sourced fun _ => ?_
  refine .bind (.forEach fun _ => ?_) fun _ => .bind (initiateTimeout_past _) fun _ =>
    stopped_past _
  refine .bind (.readOnly (firstByte_readOnly _)) fun _ => ?_
  refine .bind (.readOnly sourceFirst_readOnly) fun _ => ?_
  exact .bind (.readOnly (portTo_readOnly _)) fun _ => sendMessage_past _ _ _

theorem repBranch_past (listenerLength : UInt8) (listener : ListenerArray) :
    KeepsPast Q y (repBranch env me listenerLength listener) := by
  refine .bind (setState_past _) fun _ => .bind (.readOnly (liftExcept_readOnly _)) fun _ => ?_
  refine .get fun _ _ => .ite ?_ (.ite repForward_past (finish_past _ _))
  refine .bind (.readOnly sourceFirst_readOnly) fun _ => ?_
  refine .bind (.readOnly (portTo_readOnly _)) fun _ => ?_
  exact .bind (sendMessage_past _ _ _) fun _ => finish_past _ _

end Branches

/-! ## Requests -/

/-- The reservation of a request can take the UUID of the handler. -/
structure Thread.Identifies (Q : Reservation → Prop) (y : NodeIdentifier) (t : Thread) : Prop
    extends t.Sourced Q y where
  named : ∀ r, t.held.read = .ok r → Q (r.setUuid t.self.uuid)

/-- The reservations after a round: an EAR may have set the past node of one of them. -/
inductive Held.After (Q : Reservation → Prop) (y : NodeIdentifier) (message : Message) (s : Held) :
    Prop
  | kept (hs : s.All Q)
  | set {v : UInt8} {u : UUIDv4} {q : Request} {s₀ : Held} {r : Reservation}
    (hm : message = .ear v u q) (hs₀ : s₀.All Q) (hr : s₀.read = .ok r)
    (hs : s = s₀.write (r.setPastNode y))

section Requests

variable {Q : Reservation → Prop} {y : NodeIdentifier} {env : Env} {me : HandlerId}
  {peers : List Handler} {message : Message} {v : UInt8} {u : UUIDv4} {q : Request}

theorem Thread.Sourced.after {t : Thread} (h : t.Sourced Q y) : t.held.After Q y message :=
  .kept h.held

theorem modify_identifies {f : Thread → Thread} (hheld : ∀ t, (f t).held = t.held)
    (hsource : ∀ t, (f t).self.sourceIdentifier = t.self.sourceIdentifier)
    (huuid : ∀ t, (f t).self.uuid = t.self.uuid) :
    Maintains (Thread.Identifies Q y) (Prog.modify f : ThreadM Unit) := by
  refine .modify fun t ht => ⟨⟨?_, (hsource t).trans ht.source⟩, ?_⟩
  · rw [hheld]
    exact ht.held
  · rw [hheld, huuid]
    exact ht.named

/-- A reservation that is built has no past node. -/
theorem buildReservation_identifies (hQ : PastProperty Q) (r : Request) (address : Bytes) :
    Maintains (Thread.Identifies Q y) (buildReservation env r address) := by
  unfold buildReservation
  split
  · refine .bind (.modify fun t ht => ⟨⟨⟨ht.held.listed, ?_⟩, ht.source⟩, ?_⟩) fun _ => .pure _
    · rintro _ ⟨⟩
      exact hQ.blank rfl
    · rintro _ ⟨⟩
      exact hQ.blank rfl
  · exact .ite (.pure _) (.fault _)
  · exact .fault _

theorem setReservationUuid_past : Triple (Thread.Identifies Q y) setReservationUuid
    (fun _ => Thread.Sourced Q y) fun _ => True := by
  intro t ht
  rcases setReservationUuid_run t with ⟨e, hrun⟩ | ⟨r, hr, hrun⟩
  · rw [hrun]
    trivial
  · rw [hrun]
    exact ⟨ht.held.write (ht.named r hr), ht.source⟩

theorem marBranch_past (hQ : PastProperty Q) (r : Request) :
    Triple (Thread.Identifies Q y) (marBranch env me r) (fun _ => Thread.Sourced Q y)
      fun _ => True := by
  refine Triple.bind (modify_identifies (fun _ => rfl) (fun _ => rfl) fun _ => rfl) fun _ => ?_
  refine Triple.bind (Maintains.readOnly (liftExcept_readOnly _)) fun address => ?_
  refine Triple.bind (buildReservation_identifies hQ r address) fun built => ?_
  cases built with
  | true => exact Triple.bind setReservationUuid_past fun _ => marBid_past hQ r
  | false => exact (finish_past _ _).weaken (fun _ ht => ht.toSourced) fun _ _ ht => ht

/-- The one statement that sets a past node. -/
theorem setPastNode_past : Triple (Thread.Sourced Q y) (setPastNode y)
    (fun _ t => t.held.After Q y (.ear v u q)) fun _ => True := by
  intro t ht
  rw [setPastNode]
  have hread : deref.run t.held = (t.held.read, t.held) := rfl
  rcases hr : t.held.read with e | r
  · rw [hr] at hread
    have hrun : (onReservation (writeThrough (·.setPastNode y))).run t = (.error e, t) :=
      run_zoom (bind_error hread)
    rw [bind_error hrun]
    trivial
  · rw [hr] at hread
    have hrun : (onReservation (writeThrough (·.setPastNode y))).run t =
        (.ok (), t.put (t.held.write (r.setPastNode y))) := run_zoom (bind_ok hread)
    rw [bind_ok hrun]
    have hset : (t.put (t.held.write (r.setPastNode y))).held.After Q y (.ear v u q) :=
      .set rfl ht.held hr rfl
    have hrest : Maintains (fun t : Thread => t.held.After Q y (.ear v u q)) (do
        let reservation ← onReservation deref
        Prog.ensure reservation.printable .outOfRange) :=
      .readOnly (.bind deref_readOnly fun _ => .ensure _ _)
    exact hrest _ hset

theorem earForward_past (address : Bytes) : Triple (Thread.Sourced Q y)
    (earForward env me address) (fun _ t => t.held.After Q y (.ear v u q)) fun _ => True := by
  refine Triple.bind (Maintains.readOnly (firstByte_readOnly _)) fun target => ?_
  intro t ht
  rw [bind_ok (run_get t)]
  -- what follows `set_past_node` leaves the reservations alone
  have hpast : ∀ type : TimeoutType, Triple (Thread.Sourced Q y) (do
      setPastNode y
      initiateTimeout me type
      stop
      return Exit.breaks) (fun _ t => t.held.After Q y (.ear v u q)) fun _ => True := by
    intro type
    have hrest : Maintains (fun t : Thread => t.held.After Q y (.ear v u q)) (do
        initiateTimeout me type
        stop
        return Exit.breaks) :=
      .bind (.modify fun _ h => h) fun _ => .bind (.modify fun _ h => h) fun _ => .pure _
    exact Triple.bind setPastNode_past fun _ => hrest
  rcases nearestConnections (getConnectionsTo env target) with _ | ⟨c, _ | ⟨d, cs⟩⟩
  · have hrefuse : KeepsPast Q y (do
        sendMessage (newRef t.self.uuid) t.self.sourceIdentifier.1 t.self.sourceIdentifier.2
        setState .closed
        stop
        return Exit.returns) := .bind (sendMessage_past _ _ _) fun _ => finish_past _ _
    exact hrefuse.weaken (fun _ h => h) (fun _ _ h => h.after) t ht
  · simp only [ht.source]
    refine Triple.bind (Q := fun _ => Thread.Sourced Q y) deref_sourced (fun _ => ?_) t ht
    refine Triple.bind (sendMessage_past _ _ _) fun _ => ?_
    exact Triple.bind (setState_past _) fun _ => hpast .ear
  · simp only [ht.source]
    have hcount : ∀ bids : UInt8, KeepsPast Q y (modifySelf fun s => { s with
        waitingBids := bids
        arrivingBids := 0 }) := fun _ => modifySelf_past (fun _ => rfl) fun _ => rfl
    refine Triple.bind (hcount _) (fun _ => ?_) t ht
    refine Triple.bind (Maintains.forEach fun _ => .bind deref_sourced fun _ =>
      sendMessage_past _ _ _)
      fun _ => ?_
    exact Triple.bind (setState_past _) fun _ => hpast .mar

theorem earRelay_past (hQ : PastProperty Q) (uuid : UUIDv4) (r : Request) (address : Bytes) :
    Triple (Thread.Sourced Q y) (earRelay env me peers uuid r address)
      (fun _ t => t.held.After Q y (.ear v u q)) fun _ => True := by
  intro t ht
  rw [earRelay, bind_ok (run_get t)]
  by_cases hb : isBidInStore me peers t uuid = true
  · rw [if_pos hb]
    rcases lastWithUuid_cases t with hl | ⟨e, -, -, hl⟩
    · have hset : (setReservation (lastWithUuid t)).run t = (.ok (), t) := by
        rw [hl]
        rfl
      rw [bind_ok hset]
      exact earForward_past address t ht
    · rw [hl]
      have hlisted : ∀ r, ReservationPtr.listed e.1 ≠ .own r := by simp
      exact Triple.bind (setReservation_past hlisted) (fun _ => earForward_past address) t ht
  · rw [if_neg hb]
    refine Triple.bind (onReservation_past (availableForPerformance_past hQ _ _))
      (fun position => ?_)
      t ht
    cases position with
    | none =>
      have hrefuse : KeepsPast Q y (do
          setReservation .null
          refuseToSource env
          setState .closed
          stop
          return Exit.returns) :=
        .bind (setReservation_past (by simp)) fun _ => .bind refuseToSource_past fun _ =>
          finish_past _ _
      exact hrefuse.weaken (fun _ h => h) fun _ _ h => h.after
    | some _ =>
      refine Triple.bind (onReservation_past (markPreReservation_past hQ)) fun _ => ?_
      exact Triple.bind (setReservation_past (by simp)) fun _ => earForward_past address

theorem earBranch_past (hQ : PastProperty Q) (uuid : UUIDv4) (r : Request) :
    Triple (Thread.Identifies Q y) (earBranch env me peers uuid r)
      (fun _ t => t.held.After Q y (.ear v u q)) fun _ => True := by
  have hassess : Maintains (Thread.Identifies Q y) startAssessing :=
    .get fun _ _ => .ite (.pure _) (modify_identifies (fun _ => rfl) (fun _ => rfl) fun _ => rfl)
  have hbuild : ∀ address : Bytes, Maintains (Thread.Identifies Q y)
    (earReservation env r address) :=
    fun address => .get fun _ _ => .ite (.pure _) (buildReservation_identifies hQ r address)
  have hidentify : Triple (Thread.Identifies Q y) identifyReservation
      (fun _ => Thread.Sourced Q y) fun _ => True := by
    refine Triple.bind (Maintains.readOnly .get) fun t => Triple.ite (fun _ => ?_) fun _ => ?_
    · exact Triple.pure fun _ ht => ht.toSourced
    · exact setReservationUuid_past
  refine Triple.bind hassess fun _ => ?_
  refine Triple.bind (Maintains.readOnly (liftExcept_readOnly _)) fun address => ?_
  refine Triple.bind (hbuild address) fun built => ?_
  cases built with
  | false =>
    exact (finish_past _ _).weaken (fun _ ht => ht.toSourced) fun _ _ ht => ht.after
  | true =>
    refine Triple.bind hidentify fun _ => Triple.ite (fun _ => ?_) fun _ => ?_
    · exact (earListener_past hQ r).weaken (fun _ ht => ht) fun _ _ ht => ht.after
    · exact earRelay_past hQ uuid r address

theorem messageSwitch_past (hQ : PastProperty Q) (message : Message) :
    Triple (Thread.Identifies Q y) (messageSwitch env me peers message)
      (fun _ t => t.held.After Q y message) fun _ => True := by
  have hkept : ∀ {p : ThreadM Exit}, KeepsPast Q y p → Triple (Thread.Identifies Q y) p
      (fun _ t => t.held.After Q y message) fun _ => True :=
    fun hp => hp.weaken (fun _ ht => ht.toSourced) fun _ _ ht => ht.after
  cases message with
  | ear v u r => exact earBranch_past hQ u r
  | mar v u r => exact (marBranch_past hQ r).weaken (fun _ ht => ht) fun _ _ ht => ht.after
  | bid v u value => exact hkept (bidBranch_past value)
  | acc v u => exact hkept (accBranch_past hQ)
  | ref v u => exact hkept (.bind (.of_ok refErase_ok) fun _ => refReply_past)
  | rep v u length reserved listener => exact hkept (repBranch_past _ _)

/-- The reservation that is loaded has the UUID of the handler already. -/
theorem loadReservation_identifies (hQ : PastProperty Q) {t : Thread} (hv : t.resources.Valid)
    (ht : t.Sourced Q y) :
    ∃ t', (loadReservation env).run t = (.ok (), t') ∧ t'.Identifies Q y := by
  rcases hf : t.resources.reservations.find?
    (fun e => isSameTimestamp env.ulid e.2.uuid t.self.uuid) with _ | ⟨a, x⟩
  · refine ⟨_, loadReservation_none hf, ⟨⟨ht.held.listed, nofun⟩, ht.source⟩, ?_⟩
    rintro _ ⟨⟩
  · have hx : ReservationList.lookup t.resources.reservations a = some x :=
      ReservationList.lookup_of_mem hv.nodup (List.mem_of_find?_eq_some hf)
    have hsame := List.find?_some hf
    have hsession : timestamp t.self.uuid = timestamp x.uuid := (isSameTimestamp_iff.mp hsame).symm
    have hnamed : Q (x.setUuid t.self.uuid) :=
      hQ.same ⟨hsession, rfl⟩ (ht.held.listed _ (ReservationList.lookup_mem hx))
    refine ⟨_, loadReservation_some hv hf, ⟨⟨(ht.held.update hnamed).listed, nofun⟩, ht.source⟩, ?_⟩
    intro r hr
    have hlookup := ReservationList.lookup_update (f := fun _ => x.setUuid t.self.uuid) hx
    rw [Option.some.inj ((Held.read_listed.mp hr).symm.trans hlookup)]
    exact hnamed

/-- **A round** keeps the property, or sets a past node to the source of an EAR. -/
theorem operatorCall_past (hQ : PastProperty Q) {t t' : Thread} (hv : t.resources.Valid)
    (ht : t.Sourced Q y) (hrun : (operatorCall env me peers message).run t = (.ok (), t')) :
    t'.held.After Q y message := by
  obtain ⟨t₁, hload, ht₁⟩ : ∃ t₁, (loadReservation env).run t = (.ok (), t₁) ∧
      t₁.Identifies Q y := loadReservation_identifies hQ hv ht
  obtain ⟨exit, t₂, hswitch, rfl⟩ := operatorCall_ok hload hrun
  have hafter := (messageSwitch_past hQ message).ok ht₁ hswitch
  cases exit <;> exact hafter

end Requests

/-! ## Runs -/

/-- An EAR of the session with timestamp `T` was received from the neighbour `y`. -/
def EarFrom (actions : List Action) (T : Nat) (y : NodeIdentifier) : Prop :=
  ∃ v u r, Action.receive (.ear v u r) y ∈ actions ∧ timestamp u = T

/-- The past node, if there is one, is a neighbour that an EAR of the session was received from. -/
def Reservation.From (actions : List Action) (r : Reservation) : Prop :=
  r.pastNode = ([], .simulation) ∨ EarFrom actions (timestamp r.uuid) r.pastNode

section Runs

variable {actions : List Action} {action : Action} {env : Env} {n n' : Node}

theorem EarFrom.cons {T : Nat} {y : NodeIdentifier} (h : EarFrom actions T y) :
    EarFrom (action :: actions) T y := by
  obtain ⟨v, u, r, hmem, hT⟩ := h
  exact ⟨v, u, r, List.mem_cons_of_mem _ hmem, hT⟩

theorem Reservation.From.cons {r : Reservation} (h : r.From actions) : r.From (action :: actions) :=
  h.imp_right .cons

theorem Reservation.From.property : PastProperty (Reservation.From actions) where
  blank h := Or.inl h
  same := by
    rintro r r' ⟨hsession, hpast⟩ h
    unfold Reservation.From at h ⊢
    rw [hsession, hpast]
    exact h

/-- **A step** keeps the past nodes, or sets one to the neighbour that an EAR comes from. -/
theorem Node.All.step_from (hn : n.All (Reservation.From actions)) (hinv : n.Inv)
    (hrun : (perform env action).run n = (.ok (), n')) :
    n'.All (Reservation.From (action :: actions)) := by
  have hQ : PastProperty (Reservation.From (action :: actions)) := Reservation.From.property
  have hcons : n.All (Reservation.From (action :: actions)) := hn.imp fun _ h => h.cons
  have hinv' := (hinv.step hrun).1
  have hstepped := hinv.stepped hrun
  generalize hr : (.ok () : Except Fault Unit) = r at hstepped
  cases hstepped with
  | dropped hf => exact hcons.found hf hinv
  | stopped hf he => cases hr
  | bid hf hk hs hrunning hb =>
    exact (hcons.found hf hinv).withBid ((hf.inv hinv).stored _ _ hk).1
  | round hh hcall =>
    rename_i message source n₁ h t
    cases hr
    have hn₁ := hcons.hands hinv hh
    refine hn₁.putThread ?_
    cases operatorCall_past hQ (hh.inv hinv).valid ⟨hn₁.startThread, rfl⟩ hcall with
    | kept hs => exact hs
    | set hm hs₀ hread hs =>
      rename_i v u q s₀ x
      subst hm
      rw [hs]
      refine hs₀.write (Or.inr ⟨v, u, q, List.mem_cons_self, ?_⟩)
      -- the pointer of the handler is one of its session after the round
      have hself : (Node.putThread t h n₁).handler h = t.self := by
        exact Node.handler_putThread_self (hh.lt hinv)
      have hpointer := hinv'.pointer h (by simpa [Node.putThread] using hh.lt hinv)
      rw [hself] at hpointer
      have hwritten : t.held.read = .ok (x.setPastNode source) := by
        rw [hs]
        exact Held.read_write hread
      have hstart : timestamp (n₁.startThread h (.ear v u q) source).self.uuid = timestamp u := by
        rw [Node.startThread_uuid]
        exact hh.timestamp_eq hinv
      have hend := (hh.moved hinv hcall).invariant Thread.Change.session hstart
      exact hend.symm.trans (Held.read_session (s := t.held) hpointer hwritten).symm
  | woken hcall =>
    rename_i h t
    cases hr
    have hstart : (n.thread h).Sourced _ _ := ⟨hcons h, rfl⟩
    exact hcons.putThread (wake_past.ok hstart hcall).held
  | fired hcall hr' he =>
    rename_i h type r t
    have hexpire : (n.expire h type).All (Reservation.From _) := hcons
    refine hexpire.putThread ?_
    cases onTimeout_timedOut hcall with
    | idle hn => exact hexpire h
    | failed hn he => exact hexpire h
    | released hn hx hy ha =>
      exact (hexpire h).released (hQ.same (.replenish hy) ((hexpire h).read hx))
  | marked => exact hcons

/-- **The past nodes of a run** are neighbours that EARs of their sessions were received from. -/
theorem Node.Trace.past (hrun : Node.Trace actions n) : n.All (Reservation.From actions) := by
  induction hrun with
  | start => exact Node.All.initial
  | step hprev hen hstep ih => exact ih.step_from hprev.inv hstep

end Runs

end Rankd

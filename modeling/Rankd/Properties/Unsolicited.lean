import Rankd.Node.Filed
import Rankd.Node.Housed
import Rankd.Node.Marking
import Rankd.Properties.Listener

/-!
# Unsolicited messages

A message whose session is not in the store gets a new handler, whatever its kind, and nothing that
the node holds is of its session (`Node.Housed`). The branches for replies were written for handlers
that have sent a request: an ACC and a REP that goes on dereference the reservation, a REF reads the
source that it does not record, and every answer to the source needs a connection to it.
`unsolicited_completes_iff` says for which messages the new handler gets through.
-/

namespace Rankd

open Infra Prog

/-! ## Connections -/

/-- There is a connection to the node, whose identifier is not empty. -/
def Env.Reaches (env : Env) (node : NodeIdentifier) : Prop :=
  ∃ b, node.1.head? = some b ∧ env.connections b ≠ []

section Connections

variable {env : Env} {target : UInt8}

theorem nearestConnections_eq : nearestConnections (getConnectionsTo env target) =
    ((env.connections target).foldl (nearestStep .simulation) (255, [])).2 := by
  simp [nearestConnections, getConnectionsTo, List.foldl_map]

/-- The first connection is always taken, and later ones only come after it. -/
theorem nearestStep_ne_nil {type : IdentifierType} {acc : UInt8 × List NodeIdentifier}
    {locator : UInt8 × UInt8} (h : acc.2 = [] → acc.1 = 255) :
    (nearestStep type acc locator).2 ≠ [] := by
  unfold nearestStep
  by_cases hlt : locator.1 < acc.1
  · simp [hlt]
  · simp only [if_neg hlt]
    split_ifs with heq
    · simp
    · intro hnil
      rw [h hnil] at hlt heq
      have hmax : locator.1.toNat < 256 := locator.1.toNat_lt
      rw [UInt8.lt_iff_toNat_lt, show (255 : UInt8).toNat = 255 from rfl] at hlt
      exact heq (UInt8.toNat_inj.mp (show locator.1.toNat = 255 by omega))

theorem nearestConnections_eq_nil : nearestConnections (getConnectionsTo env target) = [] ↔
    env.connections target = [] := by
  have hkept : ∀ (l : List (UInt8 × UInt8)) (acc : UInt8 × List NodeIdentifier), acc.2 ≠ [] →
      (l.foldl (nearestStep .simulation) acc).2 ≠ [] := by
    intro l
    induction l with
    | nil => exact fun acc h => h
    | cons c rest ih =>
      intro acc h
      exact ih _ (nearestStep_ne_nil fun hnil => absurd hnil h)
  rw [nearestConnections_eq]
  rcases env.connections target with _ | ⟨c, rest⟩
  · simp
  · have hfirst : (nearestStep .simulation (255, []) c).2 ≠ [] := nearestStep_ne_nil fun _ => rfl
    simpa using hkept rest _ hfirst

theorem nearestStep_port {type : IdentifierType} {acc : UInt8 × List NodeIdentifier}
    {locator : UInt8 × UInt8} (h : ∀ c ∈ acc.2, c.1 ≠ []) :
    ∀ c ∈ (nearestStep type acc locator).2, c.1 ≠ [] := by
  intro c hc
  by_cases hd : locator.1 = if locator.1 < acc.1 then locator.1 else acc.1
  · rw [nearestStep, if_pos hd] at hc
    rcases List.mem_append.mp hc with hc | hc
    · exact h c hc
    · rw [List.mem_singleton.mp hc]
      exact List.cons_ne_nil _ _
  · rw [nearestStep, if_neg hd] at hc
    exact h c hc

/-- The connections are to ports. -/
theorem nearestConnections_port (env : Env) (target : UInt8) :
    ∀ c ∈ nearestConnections (getConnectionsTo env target), c.1 ≠ [] := by
  have hkept : ∀ (l : List (UInt8 × UInt8)) (acc : UInt8 × List NodeIdentifier),
      (∀ c ∈ acc.2, c.1 ≠ []) → ∀ c ∈ (l.foldl (nearestStep .simulation) acc).2, c.1 ≠ [] := by
    intro l
    induction l with
    | nil => exact fun acc h => h
    | cons d rest ih => exact fun acc h => ih _ (nearestStep_port h)
  rw [nearestConnections_eq]
  exact hkept _ _ fun c hc => by cases hc

end Connections

/-! ## Statements that may fault -/

section Statements

variable {α : Type} {env : Env} {me : HandlerId} {t : Thread} {x : Reservation}

theorem run_derefHeld (hx : t.held.read = .ok x) : (onReservation deref).run t = (.ok x, t) :=
  run_onReservation (deref_run hx)

theorem run_writeHeld (hx : t.held.read = .ok x) (f : Reservation → Reservation) :
    (onReservation (writeThrough f)).run t = (.ok (), t.put (t.held.write (f x))) :=
  run_onReservation (writeThrough_run hx f)

theorem deref_succeeds {f : Reservation → ThreadM α} : Succeeds (onReservation deref >>= f) t ↔
    ∃ x, t.held.read = .ok x ∧ Succeeds (f x) t := by
  have hrun : (onReservation deref).run t = (t.held.read, t) := rfl
  rcases hx : t.held.read with e | x
  · rw [hx] at hrun
    rw [Succeeds.bind_of_error hrun]
    simp
  · rw [hx] at hrun
    rw [Succeeds.bind_of_ok hrun]
    simp

theorem finish_total (state : HandlerState) (exit : Exit) (t : Thread) :
    Succeeds (do setState state; stop; return exit) t := ⟨_, _, rfl⟩

theorem sendMessage_succeeds {message : Message} {target : Bytes} {type : IdentifierType} :
    Succeeds (sendMessage message target type) t ↔ target ≠ [] := by
  rw [sendMessage, Succeeds.bind_total_iff fun _ _ => ⟨_, _, rfl⟩, Succeeds.ensure_iff]
  simp

theorem sourceFirst_succeeds {f : UInt8 → ThreadM α} : Succeeds (sourceFirst >>= f) t ↔
    ∃ b, t.self.sourceIdentifier.1.head? = some b ∧ Succeeds (f b) t := by
  rw [show sourceFirst >>= f = Prog.get >>= fun t =>
    firstByte t.self.sourceIdentifier.1 >>= f from rfl,
    Succeeds.bind_of_ok (run_get t)]
  exact Succeeds.require_bind_iff

theorem portTo_run {target : UInt8} {locator : UInt8 × UInt8}
    (h : (env.connections target).head? = some locator) :
    (portTo env target).run t = (.ok [locator.2], t) := by
  rw [portTo, getConnectionsTo, List.head?_map, h]
  rfl

theorem portTo_succeeds {target : UInt8} {f : Bytes → ThreadM α} :
    Succeeds (portTo env target >>= f) t ↔
    ∃ locator, (env.connections target).head? = some locator ∧ Succeeds (f [locator.2]) t := by
  rcases h : (env.connections target).head? with _ | locator
  · have hrun : (portTo env target).run t = (.error .outOfRange, t) := by
      rw [portTo, getConnectionsTo, List.head?_map, h]
      rfl
    rw [Succeeds.bind_of_error hrun]
    simp
  · rw [Succeeds.bind_of_ok (portTo_run h)]
    simp

/-- What is sent to the source over a port of its connections. -/
theorem toSource_succeeds {f : Bytes → ThreadM α} (hf : ∀ target,
    t.self.sourceIdentifier.1 ≠ [] → target ≠ [] → Succeeds (f target) t) :
    Succeeds (do
      let source ← sourceFirst
      let target ← portTo env source
      f target) t ↔ env.Reaches t.self.sourceIdentifier := by
  rw [sourceFirst_succeeds]
  refine exists_congr fun b => and_congr_right fun hb => ?_
  have hsource : t.self.sourceIdentifier.1 ≠ [] := by
    intro hnil
    rw [hnil] at hb
    cases hb
  rw [portTo_succeeds]
  constructor
  · rintro ⟨locator, hl, -⟩ hnil
    rw [hnil] at hl
    cases hl
  · intro hne
    rcases hc : env.connections b with _ | ⟨locator, rest⟩
    · exact absurd hc hne
    · exact ⟨locator, rfl, hf _ hsource (List.cons_ne_nil _ _)⟩

theorem nearestToSource_run {b : UInt8} {front : NodeIdentifier}
    (hsource : t.self.sourceIdentifier.1.head? = some b)
    (hfront : (nearestConnections (getConnectionsTo env b)).head? = some front) :
    (nearestToSource env).run t = (.ok front.1, t) := by
  have hfirst : sourceFirst.run t = (.ok b, t) := by
    rw [sourceFirst, bind_ok (run_get t), firstByte, hsource, require_some, run_pure]
  rw [nearestToSource, bind_ok hfirst, hfront, require_some, pure_bind, run_pure]

/-- What is sent to the source over its nearest connection. -/
theorem nearestToSource_succeeds {f : Bytes → ThreadM α}
    (hf : ∀ target t, target ≠ [] → Succeeds (f target) t) :
    Succeeds (nearestToSource env >>= f) t ↔ env.Reaches t.self.sourceIdentifier := by
  rw [Succeeds.bind_iff]
  constructor
  · rintro ⟨target, t', hrun, -⟩
    obtain ⟨rfl, b, front, hsource, hfront, -⟩ := nearestToSource_ok hrun
    refine ⟨b, hsource, ?_⟩
    intro hnil
    rw [nearestConnections_eq_nil.mpr hnil] at hfront
    cases hfront
  · rintro ⟨b, hsource, hne⟩
    rcases hc : nearestConnections (getConnectionsTo env b) with _ | ⟨front, rest⟩
    · exact absurd (nearestConnections_eq_nil.mp hc) hne
    · have hport : front.1 ≠ [] :=
        nearestConnections_port env b front (by rw [hc]; exact List.mem_cons_self)
      exact ⟨front.1, t, nearestToSource_run hsource (by rw [hc]; rfl), hf _ t hport⟩

/-- A message, and then an end that does not fault. -/
theorem sendAnd_total {message : Message} {type : IdentifierType} {f : Unit → ThreadM α}
    (hf : ∀ a t, Succeeds (f a) t) (target : Bytes) (t : Thread) (ht : target ≠ []) :
    Succeeds (sendMessage message target type >>= f) t :=
  (Succeeds.bind_total_iff hf).mpr (sendMessage_succeeds.mpr ht)

theorem refuseToSource_succeeds :
    Succeeds (refuseToSource env) t ↔ env.Reaches t.self.sourceIdentifier := by
  rw [refuseToSource, Succeeds.bind_of_ok (run_get t)]
  exact nearestToSource_succeeds fun target t ht => sendMessage_succeeds.mpr ht

/-- `set_past_node` and `add_next_node` fault where the reservation cannot be printed. -/
theorem writeAndPrint_succeeds {f : Reservation → Reservation} (hx : t.held.read = .ok x) :
    Succeeds (do
      onReservation (writeThrough f)
      let reservation ← onReservation deref
      Prog.ensure reservation.printable .outOfRange : ThreadM Unit) t ↔ (f x).printable = true := by
  rw [Succeeds.bind_of_ok (run_writeHeld hx f), Succeeds.bind_of_ok (run_derefHeld (x := f x) ?_),
    Succeeds.ensure_iff]
  exact Held.read_write hx

end Statements

/-! ## Requests -/

section Requests

variable {env : Env} {me : HandlerId} {peers : List Handler} {t : Thread} {x : Reservation}

/-- The MARs of an auction are sent to ports. -/
theorem sendMars_run {connections : List NodeIdentifier} (env : Env) (uuid : UUIDv4)
    (hx : t.held.read = .ok x) (hc : ∀ c ∈ connections, c.1 ≠ []) :
    ∃ sends, (Prog.forEach connections fun intermediate => do
      let reservation ← onReservation deref
      sendMessage (.mar headerVersion uuid (relayedRequest env reservation)) intermediate.1
        intermediate.2).run t = (.ok (), t.sentAll sends) := by
  induction connections generalizing t with
  | nil => exact ⟨[], by rw [Thread.sentAll_nil]; rfl⟩
  | cons c rest ih =>
    obtain ⟨sends, hsends⟩ :=
      ih (t := t.sent (.mar headerVersion uuid (relayedRequest env x)) c.1 c.2)
      hx fun d hd => hc d (List.mem_cons_of_mem _ hd)
    refine ⟨(.mar headerVersion uuid (relayedRequest env x), c.1, c.2) :: sends, ?_⟩
    rw [forEach_cons, run_bind, bind_ok (run_derefHeld hx),
      run_sendMessage (hc c List.mem_cons_self)]
    rw [← Thread.sentAll_sent]
    exact hsends

/-- **On the way to the listener** the source is printed, or is sent a REF. -/
theorem earForward_succeeds {address : Bytes} (hx : t.held.read = .ok x) :
    Succeeds (earForward env me address) t ↔ ∃ target, address.head? = some target ∧
      if env.connections target = [] then t.self.sourceIdentifier.1 ≠ []
      else (x.setPastNode t.self.sourceIdentifier).printable = true := by
  have hend : ∀ (type : TimeoutType) (_ : Unit) (t : Thread), Succeeds (do
      initiateTimeout me type
      stop
      return Exit.breaks) t := fun _ _ _ => ⟨_, _, rfl⟩
  rw [earForward, firstByte, Succeeds.require_bind_iff]
  refine exists_congr fun target => and_congr_right fun _ => ?_
  rw [Succeeds.bind_of_ok (run_get t)]
  have hport := nearestConnections_port env target
  split_ifs with hnone
  · rw [nearestConnections_eq_nil.mpr hnone, Succeeds.bind_total_iff fun _ => finish_total _ _]
    exact sendMessage_succeeds
  · rw [← nearestConnections_eq_nil] at hnone
    rcases hc : nearestConnections (getConnectionsTo env target) with _ | ⟨c, _ | ⟨d, rest⟩⟩
    · exact absurd hc hnone
    · rw [hc] at hport
      have hsend :
        (sendMessage (.ear headerVersion t.self.uuid (relayedRequest env x)) c.1 c.2).run t =
          (.ok (), _) := run_sendMessage (hport c List.mem_cons_self)
      dsimp only
      rw [Succeeds.bind_of_ok (run_derefHeld hx), Succeeds.bind_of_ok hsend,
        Succeeds.bind_of_ok (run_setState _), Succeeds.bind_total_iff (hend _)]
      exact writeAndPrint_succeeds hx
    · rw [hc] at hport
      let t₁ := t.awaiting (UInt8.ofNat (c :: d :: rest).length)
      have hbids : (modifySelf fun s => { s with
          waitingBids := UInt8.ofNat (c :: d :: rest).length
          arrivingBids := 0 }).run t = (.ok (), t₁) := rfl
      obtain ⟨sends, hmars⟩ := sendMars_run (t := t₁) env t.self.uuid hx hport
      dsimp only
      rw [Succeeds.bind_of_ok hbids, Succeeds.bind_of_ok hmars,
        Succeeds.bind_of_ok (run_setState _),
        Succeeds.bind_total_iff (hend _)]
      exact writeAndPrint_succeeds hx

/-- **At the listener** the answer goes to the source, whatever it is. -/
theorem earListener_succeeds {r : Request} {address : Bytes} {capabilities : RequestingCapabilities}
    (htidy : t.resources.Tidy) : Succeeds (earListener env r) (t.built r address capabilities) ↔
      env.Reaches t.self.sourceIdentifier := by
  rw [earListener]
  rcases ha : env.assessment.admits r.priority
    (builtReservation t.self.uuid r address capabilities) with _ | _
  · obtain ⟨z, hz⟩ := availableForPerformance_refused (R := t.resources) ha
    rw [Succeeds.bind_of_ok (run_onReservation hz)]
    dsimp only
    rw [Succeeds.bind_total_iff fun _ => finish_total _ _, refuseToSource_succeeds]
    rfl
  · have havail := availableForPerformance_admitted (R := t.resources) ha
    have hmark := markReservation_pushed htidy.valid htidy.marked
      (x := (assessed env.assessment r.priority
        (builtReservation t.self.uuid r address capabilities)).copy) rfl
    rw [Succeeds.bind_of_ok (run_onReservation havail)]
    dsimp only
    rw [Succeeds.bind_of_ok (run_setReservation _), Succeeds.bind_of_ok (run_onReservation hmark),
      Succeeds.bind_of_ok (run_get _)]
    exact nearestToSource_succeeds (sendAnd_total fun _ => finish_total _ _)

/-- A source whose bytes the printers can read. -/
def Readable (source : NodeIdentifier) : Prop :=
  source.1 = [] ∨ Reservation.printedBytes source.2 ≤ source.1.length

/-- An EAR for another listener, at a new handler. -/
theorem earRelay_succeeds {uuid : UUIDv4} {r : Request} {address : Bytes}
    {capabilities : RequestingCapabilities} (htidy : t.resources.Tidy)
    (hstore : ∀ h, t.store.find? uuid = some h → h = me) :
    Succeeds (earRelay env me peers uuid r address) (t.built r address capabilities) ↔
      if env.assessment.admits r.priority
      (builtReservation t.self.uuid r address capabilities) = true
      then ∃ target, address.head? = some target ∧
        if env.connections target = [] then t.self.sourceIdentifier.1 ≠ []
        else Readable t.self.sourceIdentifier
      else env.Reaches t.self.sourceIdentifier := by
  have hbid : isBidInStore me peers (t.built r address capabilities) uuid = false :=
    isBidInStore_false hstore nofun
  rw [earRelay, Succeeds.bind_of_ok (run_get _), hbid, if_neg Bool.false_ne_true]
  rcases ha : env.assessment.admits r.priority
    (builtReservation t.self.uuid r address capabilities) with _ | _
  · obtain ⟨z, hz⟩ := availableForPerformance_refused (R := t.resources) ha
    rw [Succeeds.bind_of_ok (run_onReservation hz), if_neg Bool.false_ne_true]
    dsimp only
    rw [Succeeds.bind_of_ok (run_setReservation _), Succeeds.bind_total_iff fun _ =>
      finish_total _ _,
      refuseToSource_succeeds]
    rfl
  · have havail := availableForPerformance_admitted (R := t.resources) ha
    let z := assessed env.assessment r.priority
      (builtReservation t.self.uuid r address capabilities)
    have hequal : z.equals z.copy = true := by
      rw [Reservation.equals_iff]
      exact ⟨rfl, rfl, RequestingCapabilities.equals_refl _⟩
    have hmark := markPreReservation_pushed htidy.valid htidy.marked (x := z.copy) (p := .own z) rfl
      deref_own hequal
    have hread : Held.read ⟨t.resources.push { z.copy with state := .preReserved },
        .listed t.resources.nextAddress⟩ = .ok { z.copy with state := .preReserved } :=
      Held.read_listed.mpr htidy.valid.lookup_push
    rw [Succeeds.bind_of_ok (run_onReservation havail), if_pos rfl]
    dsimp only
    rw [Succeeds.bind_of_ok (run_onReservation hmark), Succeeds.bind_of_ok (run_setReservation _)]
    refine (earForward_succeeds (t := (t.built r address capabilities).loaded _ _) hread).trans ?_
    refine exists_congr fun target => and_congr_right fun _ => ?_
    have hprint : ∀ source : NodeIdentifier, (Reservation.setPastNode
        { z.copy with state := .preReserved } source).printable = true ↔ Readable source := by
      intro source
      simp [z, Reservation.printable, Reservation.setPastNode, Readable, Reservation.copy, assessed,
        builtReservation, Reservation.setUuid, Reservation.updateLastBid, Reservation.setPriority,
        Reservation.markListener, Reservation.new]
    rw [hprint]
    rfl

/-- The payload of a request can be read, or its exception is caught. -/
def Request.Parses (env : Env) (r : Request) (P : RequestingCapabilities → Prop) : Prop :=
  match env.unmarshal r.payload with
  | .ok capabilities => P capabilities
  | .error .invalidArgument => r.listenerLength = 0
  | .error .other => False

theorem buildReservation_succeeds {r : Request} {address : Bytes} {f : Bool → ThreadM Exit}
    (hf : ∀ t, Succeeds (f false) t) : Succeeds (buildReservation env r address >>= f) t ↔
      r.Parses env fun capabilities => Succeeds (f true) (t.loaded t.resources
        (.own ((Reservation.new capabilities r.priority).markListener address))) := by
  unfold Request.Parses buildReservation
  rcases env.unmarshal r.payload with (_ | _) | capabilities
  · by_cases hcode : r.listenerLength = 0
    · simp only [hcode, if_true, iff_true]
      rw [pure_bind]
      exact hf t
    · simp only [hcode, if_false, iff_false]
      rw [Succeeds.bind_of_error (run_fault _ _)]
      exact id
  · rw [Succeeds.bind_of_error (run_fault _ _)]
  · exact Iff.rfl

theorem liftExcept_succeeds {α β : Type} {e : Except Fault α} {f : α → ThreadM β} :
    Succeeds (liftExcept e >>= f) t ↔ ∃ a, e = .ok a ∧ Succeeds (f a) t := by
  cases e with
  | error e =>
    rw [liftExcept, Succeeds.bind_of_error (run_fault _ _)]
    simp
  | ok a =>
    rw [liftExcept, pure_bind]
    simp

/-- **When an EAR gets through at a new handler.** -/
theorem earBranch_succeeds {uuid : UUIDv4} {r : Request} (htidy : t.resources.Tidy)
    (hs : t.self.state = .ready) (hstore : ∀ h, t.store.find? uuid = some h → h = me) :
    Succeeds (earBranch env me peers uuid r) t ↔
      ∃ address, listenerAddress env r.listenerLength r.listener = .ok address ∧
        r.Parses env fun capabilities =>
          if iAmListener env r.listenerLength address = false ∧ env.assessment.admits r.priority
            (builtReservation t.self.uuid r address capabilities) = true
          then ∃ target, address.head? = some target ∧
            if env.connections target = [] then t.self.sourceIdentifier.1 ≠ []
            else Readable t.self.sourceIdentifier
          else env.Reaches t.self.sourceIdentifier := by
  have hne : ¬t.self.state = .preReserved := by
    rw [hs]
    simp
  rw [earBranch, Succeeds.bind_of_ok (startAssessing_other hne), liftExcept_succeeds]
  refine exists_congr fun address => and_congr_right fun _ => ?_
  rw [Succeeds.bind_congr (earReservation_assessing env address), buildReservation_succeeds
    fun _ => ⟨_, _, rfl⟩]
  unfold Request.Parses
  rcases env.unmarshal r.payload with (_ | _) | capabilities
  · exact Iff.rfl
  · exact Iff.rfl
  dsimp only
  have hidentify : identifyReservation.run ((t.inState .assessing).loaded
      (t.inState .assessing).resources
      (.own ((Reservation.new capabilities r.priority).markListener address))) =
        (.ok (), t.built r address capabilities) := rfl
  rw [if_pos rfl, Succeeds.bind_of_ok hidentify]
  rcases iAmListener env r.listenerLength address with _ | _
  · rw [if_neg Bool.false_ne_true, earRelay_succeeds htidy hstore]
    simp only [true_and]
  · rw [if_pos rfl, earListener_succeeds htidy]
    simp only [Bool.true_eq_false, false_and, if_false]

/-- **When a MAR gets through at a new handler.** -/
theorem marBranch_succeeds {r : Request} (htidy : t.resources.Tidy) :
    Succeeds (marBranch env me r) t ↔
      ∃ address, listenerAddress env r.listenerLength r.listener = .ok address ∧
        r.Parses env fun _ => env.Reaches t.self.sourceIdentifier := by
  rw [marBranch, Succeeds.bind_of_ok (run_setState _), liftExcept_succeeds]
  refine exists_congr fun address => and_congr_right fun _ => ?_
  rw [buildReservation_succeeds fun _ => ⟨_, _, rfl⟩]
  unfold Request.Parses
  rcases env.unmarshal r.payload with (_ | _) | capabilities
  · exact Iff.rfl
  · exact Iff.rfl
  dsimp only
  rw [if_pos rfl, Succeeds.bind_of_ok (setReservationUuid_bidding r address capabilities), marBid]
  rcases ha : env.assessment.admits r.priority
    (builtReservation t.self.uuid r address capabilities) with _ | _
  · obtain ⟨z, hz⟩ := availableForPerformance_refused (R := t.resources) ha
    rw [Succeeds.bind_of_ok (run_onReservation hz)]
    dsimp only
    rw [Succeeds.bind_of_ok (run_get _)]
    exact toSource_succeeds fun _ hsource _ => sendAnd_total (fun _ => finish_total _ _) _ _ hsource
  · -- The bid is sent, written to the new reservation, and the reservation is marked.
    let z := (assessed env.assessment r.priority
      (builtReservation t.self.uuid r address capabilities)).copy
    let y := z.updateLastBid (env.toDouble (env.toFloat z.lastBid))
    have havail := availableForPerformance_admitted (R := t.resources) ha
    have hread : ∀ x : Reservation, Held.read ⟨t.resources.push x,
        .listed t.resources.nextAddress⟩ = .ok x :=
      fun x => Held.read_listed.mpr htidy.valid.lookup_push
    have hmark : markPreReservation.run ⟨(t.resources.push z).put t.resources.nextAddress y,
        .listed t.resources.nextAddress⟩ = (.ok t.resources.nextAddress,
          ⟨t.resources.push { y with state := .preReserved },
          .listed t.resources.nextAddress⟩) := by
      rw [htidy.valid.put_push]
      exact markPreReservation_pushed htidy.valid htidy.marked rfl (deref_run (hread y))
        (Reservation.equals_refl y)
    rw [Succeeds.bind_of_ok (run_onReservation havail)]
    dsimp only
    rw [Succeeds.bind_of_ok (run_setReservation _),
      Succeeds.bind_of_ok (run_onReservation (deref_run (hread z))),
      Succeeds.bind_of_ok (run_get _)]
    refine toSource_succeeds fun target _ htarget => ?_
    rw [Succeeds.bind_of_ok (run_sendMessage htarget), Succeeds.bind_of_ok (run_setState _),
      Succeeds.bind_of_ok (run_onReservation (writeThrough_run (hread z) _)),
      Succeeds.bind_of_ok (run_onReservation hmark)]
    exact ⟨_, _, rfl⟩

end Requests

/-! ## Replies -/

section Replies

variable {env : Env} {me : HandlerId} {peers : List Handler} {t : Thread} {x : Reservation}

/-- Without a source, a REF cannot be sent on. -/
theorem refRelay_empty (hsource : t.self.sourceIdentifier = ([], .simulation)) :
    Succeeds (refRelay env) t ↔ False := by
  have hfirst : (sourcePort env).run t = (.error .outOfRange, t) := by
    rw [sourcePort, bind_ok (run_get t), hsource, if_pos rfl, sourceFirst]
    simp only [run_bind, run_get, firstByte, hsource]
    rfl
  rw [refRelay, Succeeds.bind_of_ok (run_get t), Succeeds.bind_of_error hfirst]

/-- **When a REF gets through at a new handler**: it comes to the origin. -/
theorem refBranch_succeeds (hstore : ∀ h, t.store.find? t.self.uuid = some h → h = me)
    (hnull : t.self.reservation = .null) (htable : t.translationTable.find? t.self.uuid = none)
    (hsource : t.self.sourceIdentifier = ([], .simulation)) :
    Succeeds (refBranch env me peers) t ↔ t.originSet.contains t.self.uuid = true := by
  rw [refBranch, Succeeds.bind_of_ok (refErase_kept hstore (Or.inl hnull)), refReply,
    Succeeds.bind_of_ok (run_get t), htable]
  dsimp only
  split_ifs with horigin
  · simp only [horigin, iff_true]
    exact ⟨_, _, rfl⟩
  · rw [refRelay_empty hsource]
    simp [horigin]

/-- **When a REP gets through at a new handler**: it comes to the listener. -/
theorem repBranch_succeeds {code : UInt8} {listener : ListenerArray}
    (hc : t.store.contains t.self.uuid = true) (hnull : t.self.reservation = .null) :
    Succeeds (repBranch env me code listener) t ↔
      ∃ address, listenerAddress env code listener = .ok address ∧
        iAmListener env code address = true ∧ env.Reaches t.self.sourceIdentifier := by
  rw [repBranch, Succeeds.bind_of_ok (run_setState _), liftExcept_succeeds]
  refine exists_congr fun address => and_congr_right fun _ => ?_
  rw [Succeeds.bind_of_ok (run_get _)]
  split_ifs with hme hstored
  · rw [and_iff_right hme]
    exact toSource_succeeds fun target _ ht => sendAnd_total (fun _ => finish_total _ _) _ _ ht
  · -- There is no reservation to read the next nodes of.
    have hread : (t.inState .replenishing).held.read = .error .nullPointer := by
      show Held.read ⟨t.resources, t.self.reservation⟩ = _
      rw [hnull]
      rfl
    rw [repForward, Succeeds.bind_of_ok (run_get _), deref_succeeds, hread]
    simp [hme]
  · exact absurd hc hstored

end Replies

/-! ## New handlers -/

/--
What a message needs for its new handler to get through, by kind. An EAR that is passed on
prints the source, or sends it a REF; the other answers to a source need a connection to it.
No ACC gets through.
-/
def Node.Copes (env : Env) (source : NodeIdentifier) (n : Node) : Message → Prop
  | .ear _ u r => ∃ address, listenerAddress env r.listenerLength r.listener = .ok address ∧
      r.Parses env fun capabilities =>
        if iAmListener env r.listenerLength address = false ∧
          env.assessment.admits r.priority (builtReservation u r address capabilities) = true
        then ∃ target, address.head? = some target ∧
          if env.connections target = [] then source.1 ≠ [] else Readable source
        else env.Reaches source
  | .mar _ _ r => ∃ address, listenerAddress env r.listenerLength r.listener = .ok address ∧
      r.Parses env fun _ => env.Reaches source
  | .bid .. => True
  | .acc .. => False
  | .ref _ u => n.originSet.contains u = true
  | .rep _ _ code _ listener => ∃ address, listenerAddress env code listener = .ok address ∧
      iAmListener env code address = true ∧ env.Reaches source

section Nodes

variable {env : Env} {n : Node} {message : Message} {source : NodeIdentifier}

/-- The listener of an EAR can be read by the process where the handler can read it. -/
theorem listenerAddress_field {code : UInt8} {listener : ListenerArray} {address : Bytes}
    (h : listenerAddress env code listener = .ok address) :
    ∃ b rest, listenerField code listener = .ok (b :: rest) := by
  have hread : ∀ k, 1 ≤ k → k ≤ 16 →
      ∃ b rest, readRun Thrown.outOfRange listener.toList k 0 [] = .ok (b :: rest) := by
    intro k hpos hle
    have hlen : listener.toList.length = 16 := by simp
    rcases hl : listener.toList with _ | ⟨b, rest⟩
    · rw [hl] at hlen
      cases hlen
    · obtain ⟨j, rfl⟩ : ∃ j, k = j + 1 := ⟨k - 1, by omega⟩
      refine ⟨b, rest.take j, ?_⟩
      rw [hl] at hlen
      rw [readRun_of_le (by omega)]
      rfl
  have hcode : code = 0 ∨ code = 2 ∨ code = 3 ∨ code = 4 := by
    unfold listenerAddress at h
    split at h
    · cases h
    · cases h
    · dsimp only at h
      split_ifs at h with h0 h2 h3 h4
      · exact Or.inl h0
      · exact Or.inr (Or.inl h2)
      · exact Or.inr (Or.inr (Or.inl h3))
      · exact Or.inr (Or.inr (Or.inr h4))
  unfold listenerField
  rcases hcode with rfl | rfl | rfl | rfl
  · exact hread 1 (by omega) (by omega)
  · exact hread 2 (by omega) (by omega)
  · exact hread 3 (by omega) (by omega)
  · exact hread 4 (by omega) (by omega)

/-- A round of a new handler, after its lookup and its check. -/
theorem operatorCall_succeeds {me : HandlerId} {peers : List Handler} {t t₁ : Thread}
    (hload : (loadReservation env).run t = (.ok (), t₁))
    (hcheck : checkReservation.run t₁ = (.ok (), t₁)) :
    Succeeds (operatorCall env me peers message) t ↔
      Succeeds (messageSwitch env me peers message) t₁ := by
  rw [operatorCall, Succeeds.bind_of_ok hload, Succeeds.bind_of_ok hcheck]
  exact Succeeds.bind_total_iff fun exit t => ⟨_, _, run_leaveSwitch⟩

theorem listenerOfMessage_readable {v : UInt8} {u : UUIDv4} {r : Request} {address : Bytes}
    (h : listenerAddress env r.listenerLength r.listener = .ok address) :
    ∃ listener, (listenerOfMessage env (.ear v u r)).run n = (.ok listener, n) := by
  obtain ⟨b, rest, hfield⟩ := listenerAddress_field h
  refine ⟨env.identity b && storeContainsUuidsRelatedTo env n u, ?_⟩
  simp only [listenerOfMessage, requestListener, run_bind, run_get, hfield, run_pure,
    List.head?_cons,
    require_some]

/-- The thread of the new handler for a message, after the lookup, which finds nothing. -/
def Node.opened (message : Message) (source : NodeIdentifier) (n : Node) : Thread :=
  ((n.created message.uuid).startThread n.handlers.length message source).loaded n.resources .null

/-- Nothing that the node holds is of a session that is not in the store. -/
theorem Node.Reachable.lacks (hn : n.Reachable) {u : UUIDv4}
    (hfree : ∀ k ∈ n.store.keys, timestamp k ≠ timestamp u) :
    n.leftover u = none ∧ n.translationTable.find? u = none := by
  have hhoused := Node.Reachable.housed hn
  constructor
  · refine List.find?_eq_none.mpr fun e he hts => ?_
    obtain ⟨k, hk, hke⟩ := hhoused.reservations e he
    exact hfree k hk (hke.trans (of_decide_eq_true hts))
  · rcases ht : n.translationTable.find? u with _ | original
    · rfl
    · obtain ⟨k, hk, hku⟩ := hhoused.translations u original ht
      exact absurd hku (hfree k hk)

theorem startThread_created_uuid :
    ((n.created message.uuid).startThread n.handlers.length message source).self.uuid =
      message.uuid := by
  rw [Node.startThread_uuid, Node.handler_created_self]
  rfl

theorem loadReservation_opened (hn : n.Reachable)
    (hfree : ∀ k ∈ n.store.keys, timestamp k ≠ timestamp message.uuid) (env : Env) :
    (loadReservation env).run ((n.created message.uuid).startThread n.handlers.length message
      source) = (.ok (), n.opened message source) := by
  refine loadReservation_none ?_
  rw [startThread_created_uuid, ← (hn.lacks hfree).1]
  show n.resources.reservations.find? _ = n.resources.reservations.find? _
  congr 1
  funext e
  rw [Bool.eq_iff_iff, isSameTimestamp_iff, decide_eq_true_eq]

/-- The thread of a new handler: it is filed, is ready and has no reservation. -/
structure Thread.Unspent (me : HandlerId) (u : UUIDv4) (t : Thread) : Prop where
  tidy : t.resources.Tidy
  uuid : t.self.uuid = u
  state : t.self.state = .ready
  reservation : t.self.reservation = .null
  stored : t.store.find? u = some me

theorem Node.Reachable.unspent (hn : n.Reachable) (message : Message) (source : NodeIdentifier) :
    (n.opened message source).Unspent n.handlers.length message.uuid where
  tidy := ⟨(Node.Reachable.inv hn).valid, show n.resources.Marked from Node.Reachable.marked hn⟩
  uuid := startThread_created_uuid
  state := by
    have hready : (acceptMessage message source
        { (n.created message.uuid).handler n.handlers.length with running := true }).state =
          ((n.created message.uuid).handler n.handlers.length).state := by
      cases message <;> rfl
    show (acceptMessage message source _).state = _
    rw [hready, Node.handler_created_self]
    rfl
  reservation := rfl
  stored := by
    show (n.store.assign message.uuid n.handlers.length).find? message.uuid = _
    rw [OrdMap.find?_assign, if_pos rfl]

/-- A message with a new handler. -/
theorem receive_opened (hn : n.Reachable)
    (hfree : ∀ k ∈ n.store.keys, timestamp k ≠ timestamp message.uuid) {listener : Bool}
    (hl : (listenerOfMessage env message).run n = (.ok listener, n)) :
    Succeeds (receive env message source) n ↔ Succeeds (messageSwitch env n.handlers.length
      ((n.created message.uuid).accepting n.handlers.length message source).handlers message)
        (n.opened message source) := by
  rw [← operatorCall_succeeds (loadReservation_opened hn hfree env) (checkReservation_null rfl)]
  have hlt : n.handlers.length < (n.created message.uuid).handlers.length := by
    simp [Node.created]
  unfold Succeeds
  rw [receive_unstored hfree hl]
  constructor
  · rintro ⟨⟨⟩, n', hrun⟩
    rcases hcall : (operatorCall env n.handlers.length ((n.created message.uuid).accepting
      n.handlers.length message source).handlers message).run ((n.created message.uuid).startThread
        n.handlers.length message source) with ⟨r, t⟩
    rw [deliver_run hlt hcall] at hrun
    obtain ⟨rfl, -⟩ := Prod.mk.inj hrun
    exact ⟨(), t, rfl⟩
  · rintro ⟨⟨⟩, t, hcall⟩
    exact ⟨(), _, deliver_run hlt hcall⟩

/--
**When an unsolicited message does no harm.** In every reachable state, the new handler for a
message whose session is not in the store gets through exactly if the node copes with the message.
-/
theorem unsolicited_completes_iff (hn : n.Reachable)
    (hfree : ∀ k ∈ n.store.keys, timestamp k ≠ timestamp message.uuid) :
    Succeeds (receive env message source) n ↔ n.Copes env source message := by
  have hunspent := hn.unspent message source
  have hme : ∀ h, (n.opened message source).store.find? message.uuid = some h →
      h = n.handlers.length := by
    intro h hh
    rw [hunspent.stored] at hh
    exact (Option.some.inj hh).symm
  cases message with
  | ear v u r =>
    by_cases hread : ∃ address, listenerAddress env r.listenerLength r.listener = .ok address
    · obtain ⟨address, haddress⟩ := hread
      obtain ⟨listener, hl⟩ := listenerOfMessage_readable (n := n) (v := v) (u := u) haddress
      rw [receive_opened hn hfree hl]
      refine (earBranch_succeeds hunspent.tidy hunspent.state hme).trans ?_
      rw [hunspent.uuid]
      exact Iff.rfl
    · -- The process may already fail to read the listener; the handler does in any case.
      refine iff_of_false ?_ fun hcopes => hread ⟨hcopes.choose, hcopes.choose_spec.1⟩
      obtain ⟨result, hl, -⟩ := listenerOfMessage_pure env (.ear v u r) n
      cases result with
      | error e =>
        unfold Succeeds
        rw [receive_unreadable hl]
        rintro ⟨_, _, ⟨⟩⟩
      | ok listener =>
        rw [receive_opened hn hfree hl]
        intro hsucceeds
        obtain ⟨address, haddress, -⟩ :=
          (earBranch_succeeds hunspent.tidy hunspent.state hme).mp hsucceeds
        exact hread ⟨address, haddress⟩
  | mar v u r =>
    rw [receive_opened hn hfree rfl]
    exact marBranch_succeeds hunspent.tidy
  | bid v u value =>
    rw [receive_opened hn hfree rfl, messageSwitch]
    -- the new handler does not wait for bids, and is closed
    have hne : (n.opened (.bid v u value) source).self.state ≠ .auctionWaiting := by
      rw [hunspent.state]
      simp
    exact iff_of_true ⟨_, _, bidBranch_unexpected hne⟩ trivial
  | acc v u =>
    rw [receive_opened hn hfree rfl]
    -- `mark_reservation` reads the null pointer
    refine iff_of_false ?_ id
    rintro ⟨exit, t, hrun⟩
    refine accBranch_null hunspent.reservation ?_ hrun
    rw [hunspent.state]
    simp
  | ref v u =>
    rw [receive_opened hn hfree rfl]
    refine (refBranch_succeeds ?_ hunspent.reservation ?_ ?_).trans ?_
    · rw [hunspent.uuid]
      exact hme
    · rw [hunspent.uuid]
      exact (hn.lacks hfree).2
    · show ((n.created u).handler n.handlers.length).sourceIdentifier = _
      rw [Node.handler_created_self]
      rfl
    · rw [hunspent.uuid]
      exact Iff.rfl
  | rep v u code b listener =>
    rw [receive_opened hn hfree rfl]
    refine repBranch_succeeds ?_ hunspent.reservation
    rw [hunspent.uuid, OrdMap.contains, hunspent.stored]
    rfl

/-- The first EAR of a node, from a neighbour to another listener. -/
theorem unsolicited_completes_first_ear :
    (∀ k ∈ Node.initial.store.keys, timestamp k ≠ timestamp (sampleUuid 7 0)) ∧
      Succeeds (receive .sample (.ear 1 (sampleUuid 7 0) (.sample 6)) ([5], .simulation))
      .initial := by
  have hfree : ∀ k ∈ Node.initial.store.keys, timestamp k ≠ timestamp (sampleUuid 7 0) := nofun
  have hcopes : Node.initial.Copes .sample ([5], .simulation) (.ear 1 (sampleUuid 7 0)
      (.sample 6)) := by
    refine ⟨[6], by decide +kernel, ?_⟩
    unfold Request.Parses
    rw [show Env.sample.unmarshal (Request.sample 6).payload = .ok default from rfl]
    refine (if_pos ?_).mpr ⟨6, rfl, Or.inr (by decide +kernel)⟩
    decide +kernel
  refine ⟨hfree, (unsolicited_completes_iff .refl ?_).mpr hcopes⟩
  exact hfree

/-- **A new handler for an ACC has no reservation** to mark, and dereferences a null pointer. -/
theorem unsolicited_acc_null : ¬∀ (env : Env) (n : Node) (message : Message)
    (source : NodeIdentifier),
    n.Reachable → (∀ k ∈ n.store.keys, timestamp k ≠ timestamp message.uuid) →
    Succeeds (receive env message source) n := by
  intro hall
  obtain ⟨⟨⟩, n, hrun⟩ := hall .sample .initial (.acc 1 (sampleUuid 7 0))
    ([6], .simulation) .refl nofun
  have hnull : (match ((receive .sample (.acc 1 (sampleUuid 7 0)) ([6], .simulation)).run
      .initial).1 with | .error .nullPointer => true | _ => false) = true := by
    decide +kernel
  rw [hrun] at hnull
  cases hnull

end Nodes

end Rankd

import Rankd.Node.Change
import Rankd.Node.Steps

/-!
# What a round leaves behind

Besides its own fields a round changes what the handlers share: it starts timers, reports results,
sends messages, and edits the origin set and the translations. `Thread.Logged` says what of it
belongs to the handler: the timers are its own and of a type that the message starts
(`Message.starts`), and the rest is of its session.

* `messageSwitch_logs`: the branches of the message switch
* `Node.Inv.round_logged`, `Node.Inv.wake_logged`: the rounds of a node
-/

namespace Rankd

open Infra Prog

/-! ## Timers that a message starts -/

/-- The node is not the listener of a request, and has more than one nearest connection to it. -/
def Env.Branches (env : Env) (r : Request) : Prop :=
  ∃ address b, listenerAddress env r.listenerLength r.listener = .ok address ∧
    iAmListener env r.listenerLength address = false ∧ address.head? = some b ∧
    2 ≤ (nearestConnections (getConnectionsTo env b)).length

/-- The types of the timers that a round for the message may start. -/
def Message.starts (env : Env) : Message → TimeoutType → Prop
  | .ear _ _ r, type => type = .ear ∨ type = .mar ∧ env.Branches r
  | .mar .., type => type = .bid
  | .bid .., type => type = .auct
  | .acc .., _ | .ref .., _ => False
  | .rep .., type => type = .rep

/-- The types of the timers that a step may start. -/
def Action.starts (env : Env) : Action → TimeoutType → Prop
  | .receive message _, type => message.starts env type
  | .wake _, type => type = .ear
  | .timeout .., _ | .markOrigin .., _ => False

/-- The steps that a node takes without a message. A UUID that its API marks is one of `foreign`. -/
def Action.Internal (foreign : UUIDv4 → Prop) : Action → Prop
  | .receive .. => False
  | .wake _ | .timeout .. => True
  | .markOrigin uuid _ => foreign uuid

/-- A thread of the handler `me` of the timestamp `T`, on its way from `t₀`. -/
structure Thread.Logged (me : HandlerId) (T : Nat) (starts : TimeoutType → Prop) (t₀ t : Thread) :
    Prop where
  session : timestamp t.self.uuid = T
  table : ∀ k v, t.translationTable.find? k = some v → timestamp k = timestamp v
  timeouts : ∃ types : List TimeoutType, t.timeouts = t₀.timeouts ++ types.map (me, ·) ∧
    ∀ type ∈ types, starts type
  results : ∃ l, t.results = t₀.results ++ l ∧ ∀ e ∈ l, timestamp e.2 = T
  sends : ∃ l, t.sendingMessages = t₀.sendingMessages ++ l ∧ ∀ e ∈ l, timestamp e.1.uuid = T
  origins : ∀ k, timestamp k ≠ T → t.originSet.find? k = t₀.originSet.find? k
  translations : ∀ k, timestamp k ≠ T → t.translationTable.find? k = t₀.translationTable.find? k

/-- The log is kept, unless the program faults. -/
abbrev Logs {α : Type} (me : HandlerId) (T : Nat) (starts : TimeoutType → Prop) (t₀ : Thread)
    (p : ThreadM α) : Prop := Maintains (Thread.Logged me T starts t₀) p

/-! ## Statements -/

section Statements

variable {me : HandlerId} {T : Nat} {starts : TimeoutType → Prop} {t₀ t : Thread} {env : Env}
  {peers : List Handler}

/-- Nothing is appended to a log. -/
theorem append_nothing {α : Type} (l : List α) {P : α → Prop} :
    ∃ added, l = l ++ added ∧ ∀ e ∈ added, P e :=
  ⟨[], (List.append_nil l).symm, fun _ h => absurd h List.not_mem_nil⟩

theorem Thread.Logged.start (hT : timestamp t.self.uuid = T)
    (htable : ∀ k v, t.translationTable.find? k = some v → timestamp k = timestamp v) :
    Thread.Logged me T starts t t :=
  ⟨hT, htable, ⟨[], (List.append_nil _).symm, fun _ h => absurd h List.not_mem_nil⟩,
    append_nothing _, append_nothing _, fun _ _ => rfl, fun _ _ => rfl⟩

/-- Changes of the handler itself, of its reservation and of the store. -/
theorem modify_logs {f : Thread → Thread}
    (hf : ∀ t, (f t).self.uuid = t.self.uuid ∧ (f t).toShared =
      { t.toShared with store := (f t).store, resources := (f t).resources }) :
    Logs me T starts t₀ (Prog.modify f) := by
  refine .modify fun t ht => ?_
  obtain ⟨huuid, hshared⟩ := hf t
  refine ⟨?_, ?_, ?_, ?_, ?_, ?_, ?_⟩
  · rw [huuid]
    exact ht.session
  all_goals rw [hshared]
  · exact ht.table
  · exact ht.timeouts
  · exact ht.results
  · exact ht.sends
  · exact ht.origins
  · exact ht.translations

theorem setState_logs (state : HandlerState) : Logs me T starts t₀ (setState state) :=
  modify_logs fun _ => ⟨rfl, rfl⟩

theorem stop_logs : Logs me T starts t₀ stop := modify_logs fun _ => ⟨rfl, rfl⟩

theorem setReservation_logs (p : ReservationPtr) : Logs me T starts t₀ (setReservation p) :=
  modify_logs fun _ => ⟨rfl, rfl⟩

theorem onReservation_logs {α : Type} (p : HeldM α) : Logs me T starts t₀ (onReservation p) := by
  refine .zoom (J := fun _ => True) ?_ (fun _ _ => trivial) fun t s ht _ => ?_
  · intro s _
    rcases p.run s with ⟨_ | _, _⟩ <;> trivial
  · exact ⟨ht.session, ht.table, ht.timeouts, ht.results, ht.sends, ht.origins, ht.translations⟩

theorem initiateTimeout_logs {type : TimeoutType} (hs : starts type) :
    Logs me T starts t₀ (initiateTimeout me type) := by
  refine .modify fun t ht => ?_
  obtain ⟨types, htypes, hall⟩ := ht.timeouts
  refine { ht with timeouts := ⟨types ++ [type], ?_, ?_⟩ }
  · show t.timeouts ++ [(me, type)] = _
    rw [htypes, List.map_append, List.append_assoc]
    rfl
  · rw [List.forall_mem_append, List.forall_mem_singleton]
    exact ⟨hall, hs⟩

theorem communicateResult_logs {code : ApiResult} {uuid : UUIDv4} (hu : timestamp uuid = T) :
    Logs me T starts t₀ (communicateResult code uuid) := by
  refine .modify fun t ht => ?_
  obtain ⟨l, hl, hall⟩ := ht.results
  refine { ht with results := ⟨l ++ [(code, uuid)], ?_, ?_⟩ }
  · show t.results ++ [(code, uuid)] = _
    rw [hl, List.append_assoc]
  · rw [List.forall_mem_append, List.forall_mem_singleton]
    exact ⟨hall, hu⟩

theorem sendMessage_logs {m : Message} (hm : timestamp m.uuid = T) (target : Bytes)
    (type : IdentifierType) : Logs me T starts t₀ (sendMessage m target type) := by
  refine .bind (.readOnly (.ensure _ _)) fun _ => .modify fun t ht => ?_
  obtain ⟨l, hl, hall⟩ := ht.sends
  refine { ht with sends := ⟨l ++ [(m, target, type)], ?_, ?_⟩ }
  · show t.sendingMessages ++ [(m, target, type)] = _
    rw [hl, List.append_assoc]
  · rw [List.forall_mem_append, List.forall_mem_singleton]
    exact ⟨hall, hm⟩

theorem removeAsOrigin_logs {uuid : UUIDv4} (hu : timestamp uuid = T) :
    Logs me T starts t₀ (removeAsOrigin uuid) := by
  refine .modify fun t ht => { ht with origins := fun k hk => ?_ }
  have hne : k ≠ uuid := by
    rintro rfl
    exact hk hu
  rw [← ht.origins k hk]
  show (if t.originSet.contains uuid then t.originSet.erase uuid else t.originSet).find? k = _
  split_ifs
  · rw [OrdMap.find?_erase, if_neg hne]
  · rfl

theorem finish_logs (state : HandlerState) (exit : Exit) :
    Logs me T starts t₀ (do setState state; stop; return exit) :=
  .bind (setState_logs _) fun _ => .bind stop_logs fun _ => .pure _

theorem stopped_logs (exit : Exit) : Logs me T starts t₀ (do stop; return exit) :=
  .bind stop_logs fun _ => .pure _

theorem setPastNode_logs (node : NodeIdentifier) : Logs me T starts t₀ (setPastNode node) :=
  .bind (onReservation_logs _) fun _ => .bind (onReservation_logs _) fun _ =>
    .readOnly (.ensure _ _)

theorem addNextNode_logs (node : NodeIdentifier) : Logs me T starts t₀ (addNextNode node) :=
  .bind (onReservation_logs _) fun _ => .bind (onReservation_logs _) fun _ =>
    .readOnly (.ensure _ _)

theorem refuseToSource_logs : Logs me T starts t₀ (refuseToSource env) :=
  .get fun _ ht => .bind (.readOnly nearestToSource_readOnly) fun _ =>
    sendMessage_logs (m := newRef _) ht.session _ _

theorem buildReservation_logs (r : Request) (address : Bytes) :
    Logs me T starts t₀ (buildReservation env r address) := by
  unfold buildReservation
  split
  · exact .bind (setReservation_logs _) fun _ => .pure _
  · exact .ite (.pure _) (.fault _)
  · exact .fault _

theorem setReservationUuid_logs : Logs me T starts t₀ setReservationUuid :=
  .get fun _ _ => onReservation_logs _

/-- The first byte, where there is one. -/
theorem firstByte_logs {α : Type} {bytes : Bytes} {f : UInt8 → ThreadM α}
    (hf : ∀ b, bytes.head? = some b → Logs me T starts t₀ (f b)) :
    Logs me T starts t₀ (firstByte bytes >>= f) := by
  rcases bytes with _ | ⟨b, rest⟩
  · exact .fault _
  · exact hf b rfl

/-- A value that is there, as no exception was thrown. -/
theorem liftExcept_logs {α β : Type} {r : Except Fault α} {f : α → ThreadM β}
    (hf : ∀ a, r = .ok a → Logs me T starts t₀ (f a)) :
    Logs me T starts t₀ (liftExcept r >>= f) := by
  cases r with
  | ok a => exact hf a rfl
  | error e => exact .fault _

theorem leaveSwitch_logs (exit : Exit) : Logs me T starts t₀ (leaveSwitch exit) := by
  cases exit with
  | breaks => exact modify_logs fun _ => ⟨rfl, rfl⟩
  | returns => exact .pure _
  | waits => exact .pure _

end Statements

/-! ## Branches -/

section Branches

variable {me : HandlerId} {T : Nat} {starts : TimeoutType → Prop} {t₀ : Thread} {env : Env}
  {peers : List Handler}

theorem earListener_logs (r : Request) : Logs me T starts t₀ (earListener env r) := by
  refine .bind (onReservation_logs _) fun position => ?_
  cases position with
  | some address =>
    refine .bind (setReservation_logs _) fun _ => .bind (onReservation_logs _) fun _ => ?_
    refine .get fun _ ht => .bind (.readOnly nearestToSource_readOnly) fun _ => ?_
    exact .bind (sendMessage_logs (m := newAcc _) ht.session _ _) fun _ => finish_logs _ _
  | none => exact .bind refuseToSource_logs fun _ => finish_logs _ _

theorem earForward_logs {address : Bytes} (hear : starts .ear)
    (hmar : ∀ b, address.head? = some b →
      2 ≤ (nearestConnections (getConnectionsTo env b)).length → starts .mar) :
    Logs me T starts t₀ (earForward env me address) := by
  refine firstByte_logs fun b hb => .get fun t ht => ?_
  rcases hc : nearestConnections (getConnectionsTo env b) with _ | ⟨c, _ | ⟨d, cs⟩⟩
  · exact .bind (sendMessage_logs (m := newRef _) ht.session _ _) fun _ => finish_logs _ _
  · refine .bind (onReservation_logs _) fun _ => ?_
    refine .bind (sendMessage_logs (m := .ear ..) ht.session _ _) fun _ => ?_
    refine .bind (setState_logs _) fun _ => .bind (setPastNode_logs _) fun _ => ?_
    exact .bind (initiateTimeout_logs hear) fun _ => stopped_logs _
  · have hstarts : starts .mar := hmar b hb (by rw [hc]; exact Nat.le_add_left _ _)
    refine .bind (modify_logs fun _ => ⟨rfl, rfl⟩) fun _ => ?_
    refine .bind (.forEach fun _ => .bind (onReservation_logs _) fun _ =>
      sendMessage_logs (m := .mar ..) ht.session _ _) fun _ => ?_
    refine .bind (setState_logs _) fun _ => .bind (setPastNode_logs _) fun _ => ?_
    exact .bind (initiateTimeout_logs hstarts) fun _ => stopped_logs _

theorem earRelay_logs {address : Bytes} (hear : starts .ear)
    (hmar : ∀ b, address.head? = some b →
      2 ≤ (nearestConnections (getConnectionsTo env b)).length → starts .mar)
    (uuid : UUIDv4) (r : Request) : Logs me T starts t₀ (earRelay env me peers uuid r address) := by
  refine .get fun _ _ => .ite ?_ ?_
  · exact .bind (setReservation_logs _) fun _ => earForward_logs hear hmar
  · refine .bind (onReservation_logs _) fun position => ?_
    cases position with
    | none =>
      refine .bind (setReservation_logs _) fun _ => .bind refuseToSource_logs fun _ => ?_
      exact finish_logs _ _
    | some _ =>
      refine .bind (onReservation_logs _) fun _ => .bind (setReservation_logs _) fun _ => ?_
      exact earForward_logs hear hmar

theorem earBranch_logs (uuid : UUIDv4) (v : UInt8) (r : Request) :
    Logs me T (Message.starts env (.ear v uuid r)) t₀ (earBranch env me peers uuid r) := by
  refine .bind (.get fun _ _ => .ite (.pure _) (setState_logs _)) fun _ => ?_
  refine liftExcept_logs fun address hl => ?_
  refine .bind (.get fun _ _ => .ite (.pure _) (buildReservation_logs _ _)) fun built => ?_
  cases built with
  | true =>
    refine .bind (.get fun _ _ => .ite (.pure _) setReservationUuid_logs) fun _ => ?_
    refine Triple.ite (fun _ => earListener_logs _) fun hme => ?_
    refine earRelay_logs (Or.inl rfl) (fun b hb hlength => Or.inr ⟨rfl, address, b, hl, ?_⟩) _ _
    exact ⟨Bool.eq_false_iff.mpr hme, hb, hlength⟩
  | false => exact finish_logs _ _

theorem marBid_logs (hbid : starts .bid) (r : Request) : Logs me T starts t₀ (marBid env me r) := by
  refine .bind (onReservation_logs _) fun position => ?_
  cases position with
  | some address =>
    refine .bind (setReservation_logs _) fun _ => .bind (onReservation_logs _) fun _ => ?_
    refine .get fun _ ht => .bind (.readOnly sourceFirst_readOnly) fun _ => ?_
    refine .bind (.readOnly (portTo_readOnly _)) fun _ => ?_
    refine .bind (sendMessage_logs (m := newBid _ _) ht.session _ _) fun _ => ?_
    refine .bind (setState_logs _) fun _ => .bind (onReservation_logs _) fun _ => ?_
    refine .bind (onReservation_logs _) fun _ => .bind (setReservation_logs _) fun _ => ?_
    exact .bind (initiateTimeout_logs hbid) fun _ => stopped_logs _
  | none =>
    refine .get fun _ ht => .bind (.readOnly sourceFirst_readOnly) fun _ => ?_
    refine .bind (.readOnly (portTo_readOnly _)) fun _ => ?_
    exact .bind (sendMessage_logs (m := newBid _ _) ht.session _ _) fun _ => finish_logs _ _

theorem marBranch_logs (hbid : starts .bid) (r : Request) :
    Logs me T starts t₀ (marBranch env me r) := by
  refine .bind (setState_logs _) fun _ => .bind (.readOnly (liftExcept_readOnly _)) fun _ => ?_
  refine .bind (buildReservation_logs _ _) fun built => ?_
  cases built with
  | true => exact .bind setReservationUuid_logs fun _ => marBid_logs hbid r
  | false => exact finish_logs _ _

theorem bidBranch_logs (hauct : starts .auct) (value : BitVec 32) :
    Logs me T starts t₀ (bidBranch me value) := by
  refine .get fun _ _ => .ite ?_ (finish_logs _ _)
  refine .bind (modify_logs fun _ => ⟨rfl, rfl⟩) fun _ => ?_
  refine .bind (initiateTimeout_logs hauct) fun _ => ?_
  exact .bind (modify_logs fun _ => ⟨rfl, rfl⟩) fun _ => .pure _

theorem sendAuctionEar_logs {uuid : UUIDv4} (hu : timestamp uuid = T) (winner : NodeIdentifier) :
    Logs me T starts t₀ (sendAuctionEar env uuid winner) := by
  refine .bind (onReservation_logs _) fun _ => .bind (.readOnly (firstByte_readOnly _)) fun _ => ?_
  refine .bind (.readOnly sourceFirst_readOnly) fun _ => ?_
  refine .bind (.readOnly (portTo_readOnly _)) fun _ => ?_
  exact sendMessage_logs (m := .ear ..) hu _ _

theorem tieRound_logs (hear : starts .ear) (winner : NodeIdentifier × Nat) :
    Logs me T starts t₀ (tieRound env me winner) := by
  refine .get fun t ht => ?_
  have hnew : timestamp (translation env winner.2 t.self.uuid) = T := by
    rw [timestamp_translation, ht.session]
  show Logs me T starts t₀ (Prog.modify _ >>= fun _ => do
    sendAuctionEar env (translation env winner.2 t.self.uuid) winner.1
    setState .preReserved
    initiateTimeout me .ear)
  refine .bind (.modify fun s hs => ?_) fun _ => ?_
  · refine { hs with table := ?_, translations := ?_ }
    · intro k v hkv
      rw [OrdMap.find?_insertNew] at hkv
      split_ifs at hkv with hk
      · obtain rfl := hk
        rcases hold : s.translationTable.find? (translation env winner.2 t.self.uuid) with _ | w
        · rw [hold] at hkv
          cases hkv
          exact hnew.trans ht.session.symm
        · rw [hold] at hkv
          cases hkv
          exact hs.table _ _ hold
      · exact hs.table k v hkv
    · intro k hk
      have hne : k ≠ translation env winner.2 t.self.uuid := by
        rintro rfl
        exact hk hnew
      rw [OrdMap.find?_insertNew, if_neg hne]
      exact hs.translations k hk
  · refine .bind (sendAuctionEar_logs hnew _) fun _ => .bind (setState_logs _) fun _ => ?_
    exact initiateTimeout_logs hear

theorem auctionEnd_logs (hear : starts .ear) : Logs me T starts t₀ (auctionEnd env me) := by
  have htie : ∀ winners : List NodeIdentifier, Logs me T starts t₀
      (do Prog.forEach winners.zipIdx (tieRound env me); stop; return Exit.breaks) :=
    fun _ => .bind (.forEach fun _ => tieRound_logs hear _) fun _ => stopped_logs _
  refine .get fun t ht => .ite ?_ ?_
  · exact .bind (sendMessage_logs (m := newRef _) ht.session _ _) fun _ => finish_logs _ _
  split
  · refine .bind (sendAuctionEar_logs ht.session _) fun _ => .bind (setState_logs _) fun _ => ?_
    exact .bind (initiateTimeout_logs hear) fun _ => stopped_logs _
  · exact htie _

theorem wake_logs (hear : starts .ear) : Logs me T starts t₀ (wake env me) :=
  .bind (modify_logs fun _ => ⟨rfl, rfl⟩) fun _ => .bind (auctionEnd_logs hear) fun _ =>
    leaveSwitch_logs _

theorem accRelay_logs : Logs me T starts t₀ (accRelay env) := by
  refine .get fun _ ht => .bind (.readOnly pastNodePort_readOnly) fun port => ?_
  cases port with
  | none => exact stopped_logs _
  | some target =>
    refine .bind (sendMessage_logs (m := newAcc _) ht.session _ _) fun _ => ?_
    refine .bind (setState_logs _) fun _ => .bind (addNextNode_logs _) fun _ => stopped_logs _

/-- Filing the handler under an UUID of its session. -/
theorem rekeyToOriginal_logs {original : UUIDv4} (hT : timestamp original = T) :
    Logs me T starts t₀ (rekeyToOriginal original) := by
  refine .get fun _ _ => .bind (.readOnly (.ensure _ _)) fun _ => .modify fun t ht => ?_
  exact ⟨hT, ht.table, ht.timeouts, ht.results, ht.sends, ht.origins, ht.translations⟩

theorem accBranch_logs : Logs me T starts t₀ (accBranch env) := by
  refine .get fun t ht => .ite (stopped_logs _) (.bind (onReservation_logs _) fun _ => ?_)
  split
  next original ho =>
    have hT : timestamp original = T := (ht.table _ _ ho).symm.trans ht.session
    exact .bind (rekeyToOriginal_logs hT) fun _ => accRelay_logs
  next =>
    refine .ite (.bind (communicateResult_logs ht.session) fun _ => ?_) accRelay_logs
    exact .bind (addNextNode_logs _) fun _ => finish_logs _ _

theorem refRelay_logs : Logs me T starts t₀ (refRelay env) := by
  refine .get fun _ ht => .bind (.readOnly sourcePort_readOnly) fun port => ?_
  cases port with
  | none => exact stopped_logs _
  | some target =>
    exact .bind (sendMessage_logs (m := newRef _) ht.session _ _) fun _ => finish_logs _ _

/-- The handler takes the original of its UUID, which has the same timestamp. -/
theorem untranslate_logs {original : UUIDv4} (hT : timestamp original = T) :
    Logs me T starts t₀ (Prog.modify fun t => { t with
      translationTable := t.translationTable.erase t.self.uuid
      self := { t.self with uuid := original } }) := by
  refine .modify fun t ht => ⟨hT, ?_, ht.timeouts, ht.results, ht.sends, ht.origins, ?_⟩
  · intro k v hkv
    rw [OrdMap.find?_erase] at hkv
    split_ifs at hkv
    exact ht.table k v hkv
  · intro k hk
    have hne : k ≠ t.self.uuid := by
      rintro rfl
      exact hk ht.session
    rw [OrdMap.find?_erase, if_neg hne]
    exact ht.translations k hk

theorem refReply_logs : Logs me T starts t₀ (refReply env) := by
  refine .get fun t ht => ?_
  split
  next original ho =>
    have hT : timestamp original = T := (ht.table _ _ ho).symm.trans ht.session
    refine .bind (untranslate_logs hT) fun _ => .get fun _ _ => ?_
    exact .ite refRelay_logs (finish_logs _ _)
  next =>
    refine .ite (.bind (communicateResult_logs ht.session) fun _ => ?_) refRelay_logs
    exact .bind (removeAsOrigin_logs ht.session) fun _ => finish_logs _ _

theorem repForward_logs (hrep : starts .rep) : Logs me T starts t₀ (repForward env me) := by
  refine .get fun _ ht => .bind (onReservation_logs _) fun _ => ?_
  refine .bind (.forEach fun _ => ?_) fun _ => .bind (initiateTimeout_logs hrep) fun _ =>
    stopped_logs _
  refine .bind (.readOnly (firstByte_readOnly _)) fun _ => ?_
  refine .bind (.readOnly sourceFirst_readOnly) fun _ => ?_
  refine .bind (.readOnly (portTo_readOnly _)) fun _ => ?_
  exact sendMessage_logs (m := .rep ..) ht.session _ _

theorem repBranch_logs (hrep : starts .rep) (listenerLength : UInt8) (listener : ListenerArray) :
    Logs me T starts t₀ (repBranch env me listenerLength listener) := by
  refine .bind (setState_logs _) fun _ => .bind (.readOnly (liftExcept_readOnly _)) fun _ => ?_
  refine .get fun _ ht => .ite ?_ (.ite (repForward_logs hrep) (finish_logs _ _))
  refine .bind (.readOnly sourceFirst_readOnly) fun _ => ?_
  refine .bind (.readOnly (portTo_readOnly _)) fun _ => ?_
  exact .bind (sendMessage_logs (m := newRef _) ht.session _ _) fun _ => finish_logs _ _

/-- **The message switch.** -/
theorem messageSwitch_logs (message : Message) :
    Logs me T (message.starts env) t₀ (messageSwitch env me peers message) := by
  cases message with
  | ear v u r => exact earBranch_logs u v r
  | mar v u r => exact marBranch_logs (show Message.starts env (.mar v u r) .bid from rfl) r
  | bid v u value =>
    exact bidBranch_logs (show Message.starts env (.bid v u value) .auct from rfl) value
  | acc v u => exact accBranch_logs
  | ref v u => exact .bind (.of_ok refErase_ok) fun _ => refReply_logs
  | rep v u length reserved listener =>
    exact repBranch_logs
      (show Message.starts env (.rep v u length reserved listener) .rep from rfl) _ _

theorem operatorCall_logs (message : Message) :
    Logs me T (message.starts env) t₀ (operatorCall env me peers message) := by
  refine .bind ?_ fun _ => .bind (.readOnly checkReservation_readOnly) fun _ => ?_
  · exact .get fun _ _ => .bind (onReservation_logs _) fun _ => setReservation_logs _
  · exact .bind (messageSwitch_logs message) fun _ => leaveSwitch_logs _

end Branches

/-! ## Rounds of a node -/

section Rounds

variable {env : Env} {n n₁ : Node} {h : HandlerId} {message : Message} {source : NodeIdentifier}
  {t : Thread}

/-- The log of a round that a message starts. -/
theorem Node.Hands.logged (hh : Node.Hands env message n n₁ h) (hn : n.Inv)
    (hrun : (operatorCall env h (n₁.accepting h message source).handlers message).run
      (n₁.startThread h message source) = (.ok (), t)) :
    Thread.Logged h (timestamp message.uuid) (message.starts env) (n₁.thread h) t := by
  have hstart : Thread.Logged h (timestamp message.uuid) (message.starts env)
      (n₁.startThread h message source) (n₁.startThread h message source) := by
    refine .start ?_ (hh.inv hn).table
    rw [Node.startThread_uuid]
    exact hh.timestamp_eq hn
  exact { (operatorCall_logs message).ok hstart hrun with }

/-- The log of a round that goes on after its auction. -/
theorem Node.Inv.wake_logged (hn : n.Inv)
    (hrun : (Rankd.wake env h).run (n.thread h) = (.ok (), t)) :
    Thread.Logged h (timestamp (n.handler h).uuid) (Action.starts env (.wake h))
    (n.thread h) t := by
  have hear : Action.starts env (.wake h) .ear := rfl
  exact (wake_logs hear).ok (Thread.Logged.start rfl hn.table) hrun

end Rounds

end Rankd

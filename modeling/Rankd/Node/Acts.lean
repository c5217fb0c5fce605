import Rankd.Node.Steps

/-!
# What a round may do

For each message, the states in which its round may leave the handler, the messages that it may send
and the results that it may report (`Message.scope`). A step of a node does nothing else
(`Node.Inv.acted`).
-/

namespace Rankd

open Infra Prog

/-- The states that may be entered, the messages that may be sent and the results. -/
structure Scope where
  states : HandlerState → Prop
  sends : Message → Prop
  results : ApiResult → Prop

/-- The node is the listener of the request. -/
def Request.forMe (env : Env) (r : Request) : Bool :=
  match listenerAddress env r.listenerLength r.listener with
  | .ok address => iAmListener env r.listenerLength address
  | .error _ => false

/-- The listener grants or refuses an EAR. -/
def Scope.listener : Scope where
  states s := s = .assessing ∨ s = .reserved ∨ s = .closed
  sends m := ∃ u, m = newAcc u ∨ m = newRef u
  results _ := False

/-- Other nodes send an EAR on, start an auction or refuse. -/
def Scope.relay (env : Env) : Scope where
  states s := s = .assessing ∨ s = .preReserved ∨ s = .auctionWaiting ∨ s = .closed
  sends m := ∃ u, m = newRef u ∨ ∃ r, m = .ear headerVersion u (relayedRequest env r) ∨
    m = .mar headerVersion u (relayedRequest env r)
  results _ := False

def Message.scope (env : Env) : Message → Scope
  | .ear _ _ r => if r.forMe env then .listener else .relay env
  | .mar .. =>
    { states := fun s => s = .auctionBidding ∨ s = .preReserved ∨ s = .closed
      sends := fun m => ∃ u value, m = newBid u value
      results := fun _ => False }
  | .bid .. => ⟨(· = .closed), fun _ => False, fun _ => False⟩
  | .acc .. => ⟨(· = .reserved), fun m => ∃ u, m = newAcc u, (· = .ok)⟩
  | .ref .. => ⟨(· = .closed), fun m => ∃ u, m = newRef u, (· = .fail)⟩
  | .rep .. =>
    { states := fun s => s = .replenishing ∨ s = .closed
      sends := fun m => ∃ u, m = newRef u ∨
        ∃ length reserved listener, m = .rep headerVersion u length reserved listener
      results := fun _ => False }

/-- The end of an auction. -/
def Scope.auction : Scope where
  states s := s = .preReserved ∨ s = .closed
  sends m := ∃ u, m = newRef u ∨ ∃ r, m = .ear headerVersion u (auctionRequest r)
  results _ := False

def Action.scope (env : Env) : Action → Scope
  | .receive message _ => message.scope env
  | .wake _ => .auction
  | .timeout .. => ⟨(· = .closed), fun _ => False, fun _ => False⟩
  | .markOrigin .. => ⟨fun _ => False, fun _ => False, fun _ => False⟩

/-- A thread on its way from `t₀` that has done what it may. -/
structure Thread.Acted (σ : Scope) (t₀ t : Thread) : Prop where
  state : t.self.state = t₀.self.state ∨ σ.states t.self.state
  sends : ∃ l, t.sendingMessages = t₀.sendingMessages ++ l ∧ ∀ e ∈ l, σ.sends e.1 ∧ e.2.1 ≠ []
  results : ∃ l, t.results = t₀.results ++ l ∧ ∀ e ∈ l, σ.results e.1

abbrev Acts {α : Type} (σ : Scope) (t₀ : Thread) (p : ThreadM α) : Prop :=
  Maintains (Thread.Acted σ t₀) p

/-! ## Statements -/

section Statements

variable {σ : Scope} {t₀ t : Thread} {env : Env} {me : HandlerId} {peers : List Handler}

theorem Thread.Acted.start : Thread.Acted σ t t :=
  ⟨Or.inl rfl, ⟨[], (List.append_nil _).symm, fun _ h => absurd h List.not_mem_nil⟩,
    ⟨[], (List.append_nil _).symm, fun _ h => absurd h List.not_mem_nil⟩⟩

theorem Thread.Acted.trans {t₁ t' : Thread} (h : Thread.Acted σ t t₁) (h' : Thread.Acted σ t₁ t') :
    Thread.Acted σ t t' := by
  obtain ⟨l, hl, hsent⟩ := h.sends
  obtain ⟨l', hl', hsent'⟩ := h'.sends
  obtain ⟨r, hr, hreported⟩ := h.results
  obtain ⟨r', hr', hreported'⟩ := h'.results
  refine ⟨?_, ⟨l ++ l', ?_, ?_⟩, ⟨r ++ r', ?_, ?_⟩⟩
  · rcases h'.state with hsame | hstate
    · rw [hsame]
      exact h.state
    · exact Or.inr hstate
  · rw [hl', hl, List.append_assoc]
  · exact List.forall_mem_append.mpr ⟨hsent, hsent'⟩
  · rw [hr', hr, List.append_assoc]
  · exact List.forall_mem_append.mpr ⟨hreported, hreported'⟩

theorem Thread.Acted.of_run {α : Type} {p : ThreadM α} {a : α} {t' : Thread}
    (hrun : p.run t = (.ok a, t')) (hp : Acts σ t p) : Thread.Acted σ t t' := hp.ok .start hrun

/-- Changes of anything else. -/
theorem modify_acts {f : Thread → Thread} (hf : ∀ t, (f t).self.state = t.self.state ∧
    (f t).sendingMessages = t.sendingMessages ∧ (f t).results = t.results) :
    Acts σ t₀ (Prog.modify f) := by
  refine .modify fun t ht => ?_
  obtain ⟨hstate, hsends, hresults⟩ := hf t
  refine ⟨?_, ?_, ?_⟩
  · rw [hstate]
    exact ht.state
  · rw [hsends]
    exact ht.sends
  · rw [hresults]
    exact ht.results

theorem setState_acts {s : HandlerState} (hs : σ.states s) : Acts σ t₀ (setState s) :=
  .modify fun _ ht => ⟨Or.inr hs, ht.sends, ht.results⟩

theorem stop_acts : Acts σ t₀ stop := modify_acts fun _ => ⟨rfl, rfl, rfl⟩

theorem setReservation_acts (p : ReservationPtr) : Acts σ t₀ (setReservation p) :=
  modify_acts fun _ => ⟨rfl, rfl, rfl⟩

theorem initiateTimeout_acts (type : TimeoutType) : Acts σ t₀ (initiateTimeout me type) :=
  modify_acts fun _ => ⟨rfl, rfl, rfl⟩

theorem onReservation_acts {α : Type} (p : HeldM α) : Acts σ t₀ (onReservation p) := by
  refine .zoom (J := fun _ => True) ?_ (fun _ _ => trivial) fun t s ht _ => ?_
  · intro s _
    rcases p.run s with ⟨_ | _, _⟩ <;> trivial
  · exact ⟨ht.state, ht.sends, ht.results⟩

theorem sendMessage_acts {m : Message} (hm : σ.sends m) (target : Bytes) (type : IdentifierType) :
    Acts σ t₀ (sendMessage m target type) := by
  rcases target with _ | ⟨b, rest⟩
  · exact .fault _
  · refine .bind (.pure _) fun _ => .modify fun t ht => ?_
    obtain ⟨l, hl, hall⟩ := ht.sends
    refine ⟨ht.state, ⟨l ++ [(m, b :: rest, type)], ?_, ?_⟩, ht.results⟩
    · show t.sendingMessages ++ _ = _
      rw [hl, List.append_assoc]
    · rw [List.forall_mem_append, List.forall_mem_singleton]
      exact ⟨hall, hm, List.cons_ne_nil b rest⟩

theorem communicateResult_acts {code : ApiResult} (hcode : σ.results code) (uuid : UUIDv4) :
    Acts σ t₀ (communicateResult code uuid) := by
  refine .modify fun t ht => ?_
  obtain ⟨l, hl, hall⟩ := ht.results
  refine ⟨ht.state, ht.sends, l ++ [(code, uuid)], ?_, ?_⟩
  · show t.results ++ _ = _
    rw [hl, List.append_assoc]
  · rw [List.forall_mem_append, List.forall_mem_singleton]
    exact ⟨hall, hcode⟩

theorem finish_acts {s : HandlerState} (hs : σ.states s) (exit : Exit) :
    Acts σ t₀ (do setState s; stop; return exit) :=
  .bind (setState_acts hs) fun _ => .bind stop_acts fun _ => .pure _

theorem stopped_acts (exit : Exit) : Acts σ t₀ (do stop; return exit) :=
  .bind stop_acts fun _ => .pure _

theorem setPastNode_acts (node : NodeIdentifier) : Acts σ t₀ (setPastNode node) :=
  .bind (onReservation_acts _) fun _ => .bind (onReservation_acts _) fun _ =>
    .readOnly (.ensure _ _)

theorem addNextNode_acts (node : NodeIdentifier) : Acts σ t₀ (addNextNode node) :=
  .bind (onReservation_acts _) fun _ => .bind (onReservation_acts _) fun _ =>
    .readOnly (.ensure _ _)

theorem refuseToSource_acts (href : ∀ u, σ.sends (newRef u)) : Acts σ t₀ (refuseToSource env) :=
  .get fun _ _ => .bind (.readOnly nearestToSource_readOnly) fun _ => sendMessage_acts (href _) _ _

theorem buildReservation_acts (r : Request) (address : Bytes) :
    Acts σ t₀ (buildReservation env r address) := by
  unfold buildReservation
  split
  · exact .bind (setReservation_acts _) fun _ => .pure _
  · exact .ite (.pure _) (.fault _)
  · exact .fault _

/-- A value that is there, as no exception was thrown. -/
theorem liftExcept_acts {α β : Type} {r : Except Fault α} {f : α → ThreadM β}
    (hf : ∀ a, r = .ok a → Acts σ t₀ (f a)) : Acts σ t₀ (liftExcept r >>= f) := by
  cases r with
  | ok a => exact hf a rfl
  | error e => exact .fault _

theorem setReservationUuid_acts : Acts σ t₀ setReservationUuid :=
  .get fun _ _ => onReservation_acts _

theorem leaveSwitch_acts (exit : Exit) : Acts σ t₀ (leaveSwitch exit) := by
  cases exit with
  | breaks => exact modify_acts fun _ => ⟨rfl, rfl, rfl⟩
  | returns => exact .pure _
  | waits => exact .pure _

end Statements

/-! ## Branches -/

section Branches

variable {t₀ : Thread} {env : Env} {me : HandlerId} {peers : List Handler}

theorem earListener_acts (r : Request) : Acts .listener t₀ (earListener env r) := by
  have hacc (u : UUIDv4) : Scope.listener.sends (newAcc u) := ⟨u, Or.inl rfl⟩
  refine .bind (onReservation_acts _) fun position => ?_
  cases position with
  | some address =>
    refine .bind (setReservation_acts _) fun _ => .bind (onReservation_acts _) fun _ => ?_
    refine .get fun _ _ => .bind (.readOnly nearestToSource_readOnly) fun _ => ?_
    refine .bind (sendMessage_acts (hacc _) _ _) fun _ => ?_
    exact finish_acts (Or.inr (Or.inl rfl)) _
  | none =>
    refine .bind (refuseToSource_acts fun u => ⟨u, Or.inr rfl⟩) fun _ => ?_
    exact finish_acts (Or.inr (Or.inr rfl)) _

theorem earForward_acts (address : Bytes) : Acts (.relay env) t₀ (earForward env me address) := by
  have hclosed : (Scope.relay env).states .closed := Or.inr (Or.inr (Or.inr rfl))
  have href (u : UUIDv4) : (Scope.relay env).sends (newRef u) := ⟨u, Or.inl rfl⟩
  have hear (u : UUIDv4) (r : Reservation) :
      (Scope.relay env).sends (.ear headerVersion u (relayedRequest env r)) :=
    ⟨u, Or.inr ⟨r, Or.inl rfl⟩⟩
  have hmar (u : UUIDv4) (r : Reservation) :
      (Scope.relay env).sends (.mar headerVersion u (relayedRequest env r)) :=
    ⟨u, Or.inr ⟨r, Or.inr rfl⟩⟩
  refine .bind (.readOnly (firstByte_readOnly _)) fun b => .get fun t _ => ?_
  split
  · refine .bind (sendMessage_acts (href _) _ _) fun _ => ?_
    exact finish_acts hclosed _
  · refine .bind (onReservation_acts _) fun r => ?_
    refine .bind (sendMessage_acts (hear _ r) _ _) fun _ => ?_
    refine .bind (setState_acts (Or.inr (Or.inl rfl))) fun _ => ?_
    refine .bind (setPastNode_acts _) fun _ => .bind (initiateTimeout_acts _) fun _ => ?_
    exact stopped_acts _
  · refine .bind (modify_acts fun _ => ⟨rfl, rfl, rfl⟩) fun _ => ?_
    refine .bind (.forEach fun _ => .bind (onReservation_acts _) fun r =>
      sendMessage_acts (hmar _ r) _ _) fun _ => ?_
    refine .bind (setState_acts (Or.inr (Or.inr (Or.inl rfl)))) fun _ => ?_
    refine .bind (setPastNode_acts _) fun _ => .bind (initiateTimeout_acts _) fun _ => ?_
    exact stopped_acts _

theorem earRelay_acts (uuid : UUIDv4) (r : Request) (address : Bytes) :
    Acts (.relay env) t₀ (earRelay env me peers uuid r address) := by
  refine .get fun _ _ => .ite ?_ ?_
  · exact .bind (setReservation_acts _) fun _ => earForward_acts _
  · refine .bind (onReservation_acts _) fun position => ?_
    cases position with
    | none =>
      refine .bind (setReservation_acts _) fun _ => ?_
      refine .bind (refuseToSource_acts fun u => ⟨u, Or.inl rfl⟩) fun _ => ?_
      exact finish_acts (Or.inr (Or.inr (Or.inr rfl))) _
    | some _ =>
      refine .bind (onReservation_acts _) fun _ => .bind (setReservation_acts _) fun _ => ?_
      exact earForward_acts _

/-- An EAR is granted by the listener only. -/
theorem earBranch_acts (v : UInt8) (uuid : UUIDv4) (r : Request) :
    Acts (Message.scope env (.ear v uuid r)) t₀ (earBranch env me peers uuid r) := by
  have hassessing : (Message.scope env (.ear v uuid r)).states .assessing := by
    rw [Message.scope]
    split_ifs
    · exact Or.inl rfl
    · exact Or.inl rfl
  have hclosed : (Message.scope env (.ear v uuid r)).states .closed := by
    rw [Message.scope]
    split_ifs
    · exact Or.inr (Or.inr rfl)
    · exact Or.inr (Or.inr (Or.inr rfl))
  refine .bind (.get fun _ _ => .ite (.pure _) (setState_acts hassessing)) fun _ => ?_
  refine liftExcept_acts fun address hl => ?_
  have hme : r.forMe env = iAmListener env r.listenerLength address := by
    rw [Request.forMe, hl]
  refine .bind (.get fun _ _ => .ite (.pure _) (buildReservation_acts _ _)) fun built => ?_
  refine .ite (.bind ?_ fun _ => ?_) (finish_acts hclosed _)
  · exact .get fun _ _ => .ite (.pure _) setReservationUuid_acts
  · rw [Message.scope, hme]
    split_ifs
    · exact earListener_acts _
    · exact earRelay_acts _ _ _

theorem marBranch_acts (v : UInt8) (uuid : UUIDv4) (r : Request) :
    Acts (Message.scope env (.mar v uuid r)) t₀ (marBranch env me r) := by
  have hpre : (Message.scope env (.mar v uuid r)).states .preReserved := Or.inr (Or.inl rfl)
  have hclosed : (Message.scope env (.mar v uuid r)).states .closed := Or.inr (Or.inr rfl)
  have hbid (u : UUIDv4) (value : BitVec 32) :
      (Message.scope env (.mar v uuid r)).sends (newBid u value) := ⟨u, value, rfl⟩
  have hmarBid : Acts (Message.scope env (.mar v uuid r)) t₀ (marBid env me r) := by
    refine .bind (onReservation_acts _) fun position => ?_
    cases position with
    | some address =>
      refine .bind (setReservation_acts _) fun _ => .bind (onReservation_acts _) fun _ => ?_
      refine .get fun _ _ => .bind (.readOnly sourceFirst_readOnly) fun _ => ?_
      refine .bind (.readOnly (portTo_readOnly _)) fun _ => ?_
      refine .bind (sendMessage_acts (hbid _ _) _ _) fun _ => ?_
      refine .bind (setState_acts hpre) fun _ => .bind (onReservation_acts _) fun _ => ?_
      refine .bind (onReservation_acts _) fun _ => .bind (setReservation_acts _) fun _ => ?_
      exact .bind (initiateTimeout_acts _) fun _ => stopped_acts _
    | none =>
      refine .get fun _ _ => .bind (.readOnly sourceFirst_readOnly) fun _ => ?_
      refine .bind (.readOnly (portTo_readOnly _)) fun _ => ?_
      exact .bind (sendMessage_acts (hbid _ _) _ _) fun _ => finish_acts hclosed _
  refine .bind (setState_acts (Or.inl rfl)) fun _ => ?_
  refine .bind (.readOnly (liftExcept_readOnly _)) fun _ => ?_
  refine .bind (buildReservation_acts _ _) fun built => .ite ?_ (finish_acts hclosed _)
  exact .bind setReservationUuid_acts fun _ => hmarBid

theorem bidBranch_acts (v : UInt8) (uuid : UUIDv4) (value : BitVec 32) :
    Acts (Message.scope env (.bid v uuid value)) t₀ (bidBranch me value) := by
  refine .get fun _ _ => .ite ?_ (finish_acts rfl _)
  refine .bind (modify_acts fun _ => ⟨rfl, rfl, rfl⟩) fun _ => ?_
  refine .bind (initiateTimeout_acts _) fun _ => ?_
  exact .bind (modify_acts fun _ => ⟨rfl, rfl, rfl⟩) fun _ => .pure _

theorem sendAuctionEar_acts (uuid : UUIDv4) (winner : NodeIdentifier) :
    Acts .auction t₀ (sendAuctionEar env uuid winner) := by
  have hear (u : UUIDv4) (r : Reservation) :
      Scope.auction.sends (.ear headerVersion u (auctionRequest r)) := ⟨u, Or.inr ⟨r, rfl⟩⟩
  refine .bind (onReservation_acts _) fun _ => .bind (.readOnly (firstByte_readOnly _)) fun _ => ?_
  refine .bind (.readOnly sourceFirst_readOnly) fun _ => ?_
  exact .bind (.readOnly (portTo_readOnly _)) fun _ => sendMessage_acts (hear _ _) _ _

theorem tieRound_acts (winner : NodeIdentifier × Nat) :
    Acts .auction t₀ (tieRound env me winner) := by
  refine .get fun t _ => .bind (modify_acts fun _ => ⟨rfl, rfl, rfl⟩) fun _ => ?_
  refine .bind (sendAuctionEar_acts _ _) fun _ => .bind (setState_acts (Or.inl rfl)) fun _ => ?_
  exact initiateTimeout_acts _

theorem auctionEnd_acts : Acts .auction t₀ (auctionEnd env me) := by
  have href (u : UUIDv4) : Scope.auction.sends (newRef u) := ⟨u, Or.inl rfl⟩
  refine .get fun t _ => .ite ?_ ?_
  · exact .bind (sendMessage_acts (href _) _ _) fun _ => finish_acts (Or.inr rfl) _
  split
  · refine .bind (sendAuctionEar_acts _ _) fun _ => ?_
    refine .bind (setState_acts (Or.inl rfl)) fun _ => ?_
    exact .bind (initiateTimeout_acts _) fun _ => stopped_acts _
  · exact .bind (.forEach fun _ => tieRound_acts _) fun _ => stopped_acts _

theorem wake_acts : Acts .auction t₀ (wake env me) :=
  .bind (modify_acts fun _ => ⟨rfl, rfl, rfl⟩) fun _ => .bind auctionEnd_acts fun _ =>
    leaveSwitch_acts _

theorem accBranch_acts (v : UInt8) (uuid : UUIDv4) :
    Acts (Message.scope env (.acc v uuid)) t₀ (accBranch env) := by
  have hacc (u : UUIDv4) : (Message.scope env (.acc v uuid)).sends (newAcc u) := ⟨u, rfl⟩
  have hreserved : (Message.scope env (.acc v uuid)).states .reserved := rfl
  have hrelay : Acts (Message.scope env (.acc v uuid)) t₀ (accRelay env) := by
    refine .get fun _ _ => .bind (.readOnly pastNodePort_readOnly) fun port => ?_
    cases port with
    | none => exact stopped_acts _
    | some target =>
      refine .bind (sendMessage_acts (hacc _) _ _) fun _ => ?_
      refine .bind (setState_acts hreserved) fun _ => ?_
      exact .bind (addNextNode_acts _) fun _ => stopped_acts _
  refine .get fun t _ => .ite (stopped_acts _) (.bind (onReservation_acts _) fun _ => ?_)
  split
  · refine .bind (.get fun _ _ => .bind (.readOnly (.ensure _ _)) fun _ => ?_) fun _ => hrelay
    exact modify_acts fun _ => ⟨rfl, rfl, rfl⟩
  · refine .ite (.bind (communicateResult_acts rfl _) fun _ => ?_) hrelay
    exact .bind (addNextNode_acts _) fun _ => finish_acts hreserved _

theorem refBranch_acts (v : UInt8) (uuid : UUIDv4) :
    Acts (Message.scope env (.ref v uuid)) t₀ (refBranch env me peers) := by
  have href (u : UUIDv4) : (Message.scope env (.ref v uuid)).sends (newRef u) := ⟨u, rfl⟩
  have hclosed : (Message.scope env (.ref v uuid)).states .closed := rfl
  have hrelay : Acts (Message.scope env (.ref v uuid)) t₀ (refRelay env) := by
    refine .get fun _ _ => .bind (.readOnly sourcePort_readOnly) fun port => ?_
    cases port with
    | none => exact stopped_acts _
    | some target =>
      exact .bind (sendMessage_acts (href _) _ _) fun _ => finish_acts hclosed _
  refine .bind (.of_ok refErase_ok) fun _ => .get fun t _ => ?_
  split
  · refine .bind (modify_acts fun _ => ⟨rfl, rfl, rfl⟩) fun _ => .get fun _ _ => ?_
    exact .ite hrelay (finish_acts hclosed _)
  · refine .ite (.bind (communicateResult_acts rfl _) fun _ => ?_) hrelay
    exact .bind (modify_acts fun _ => ⟨rfl, rfl, rfl⟩) fun _ => finish_acts hclosed _

theorem repBranch_acts (v : UInt8) (uuid : UUIDv4) (listenerLength reserved : UInt8)
    (listener : ListenerArray) :
    Acts (Message.scope env (.rep v uuid listenerLength reserved listener)) t₀
      (repBranch env me listenerLength listener) := by
  let σ := Message.scope env (.rep v uuid listenerLength reserved listener)
  have href (u : UUIDv4) : σ.sends (newRef u) := ⟨u, Or.inl rfl⟩
  have hrep (u : UUIDv4) (length r : UInt8) (l : ListenerArray) :
      σ.sends (.rep headerVersion u length r l) := ⟨u, Or.inr ⟨length, r, l, rfl⟩⟩
  have hclosed : σ.states .closed := Or.inr rfl
  refine .bind (setState_acts (Or.inl rfl)) fun _ => ?_
  refine .bind (.readOnly (liftExcept_readOnly _)) fun _ => .get fun _ _ => .ite ?_ (.ite ?_ ?_)
  · refine .bind (.readOnly sourceFirst_readOnly) fun _ => ?_
    refine .bind (.readOnly (portTo_readOnly _)) fun _ => ?_
    exact .bind (sendMessage_acts (href _) _ _) fun _ => finish_acts hclosed _
  · refine .get fun _ _ => .bind (onReservation_acts _) fun _ => ?_
    refine .bind (.forEach fun _ => ?_) fun _ => .bind (initiateTimeout_acts _) fun _ =>
      stopped_acts _
    refine .bind (.readOnly (firstByte_readOnly _)) fun _ => ?_
    refine .bind (.readOnly sourceFirst_readOnly) fun _ => ?_
    exact .bind (.readOnly (portTo_readOnly _)) fun _ => sendMessage_acts (hrep _ _ _ _) _ _
  · exact finish_acts hclosed _

/-- **The message switch.** -/
theorem messageSwitch_acts (message : Message) :
    Acts (message.scope env) t₀ (messageSwitch env me peers message) := by
  cases message with
  | ear v u r => exact earBranch_acts v u r
  | mar v u r => exact marBranch_acts v u r
  | bid v u value => exact bidBranch_acts v u value
  | acc v u => exact accBranch_acts v u
  | ref v u => exact refBranch_acts v u
  | rep v u length reserved listener => exact repBranch_acts v u length reserved listener

theorem operatorCall_acts (message : Message) :
    Acts (message.scope env) t₀ (operatorCall env me peers message) := by
  refine .bind ?_ fun _ => .bind (.readOnly checkReservation_readOnly) fun _ => ?_
  · exact .get fun _ _ => .bind (onReservation_acts _) fun _ => setReservation_acts _
  · exact .bind (messageSwitch_acts message) fun _ => leaveSwitch_acts _

end Branches

/-! ## Steps of a node -/

section Steps

variable {σ : Scope} {env : Env} {n n₁ n' : Node} {h : HandlerId} {t₀ t : Thread} {action : Action}

/-- What a node has done. -/
structure Node.Acted (σ : Scope) (n n' : Node) : Prop where
  states : ∀ h, (n'.handler h).state = (n.handler h).state ∨ σ.states (n'.handler h).state
  sends : ∃ l, n'.sendingMessages = n.sendingMessages ++ l ∧ ∀ e ∈ l, σ.sends e.1 ∧ e.2.1 ≠ []
  results : ∃ l, n'.results = n.results ++ l ∧ ∀ e ∈ l, σ.results e.1

/-- A node on which nothing was done yet. -/
structure Node.Still (n n₁ : Node) : Prop where
  states : ∀ h, (n₁.handler h).state = (n.handler h).state
  sends : n₁.sendingMessages = n.sendingMessages
  results : n₁.results = n.results

theorem Node.Still.acted (hs : Node.Still n n₁) : Node.Acted σ n n₁ :=
  ⟨fun h => Or.inl (hs.states h),
    ⟨[], by rw [hs.sends, List.append_nil], fun _ h => absurd h List.not_mem_nil⟩,
    ⟨[], by rw [hs.results, List.append_nil], fun _ h => absurd h List.not_mem_nil⟩⟩

theorem Node.Still.found {id : UUIDv4} (hf : Node.Found id n n₁) (hn : n.Inv) :
    Node.Still n n₁ where
  states h := by
    obtain ⟨u, hu, -⟩ := hf.handler hn h
    rw [hu]
  sends := hf.sendingMessages
  results := by
    cases hf with
    | same => rfl
    | rekeyed hk => rw [Node.rekey_eq hk]; rfl

theorem Node.Still.hands {message : Message} (hh : Node.Hands env message n n₁ h) (hn : n.Inv) :
    Node.Still n n₁ := by
  cases hh with
  | resumed hf => exact .found hf hn
  | created hfree =>
    refine ⟨fun i => ?_, rfl, rfl⟩
    by_cases hi : i = n.handlers.length
    · rw [hi, Node.handler_created_self, Node.handler_of_ge le_rfl]
      rfl
    · rw [Node.handler_created_ne hi]

theorem Node.startThread_state {message : Message} {source : NodeIdentifier} :
    (n.startThread h message source).self.state = (n.handler h).state := by
  cases message <;> rfl

/-- A thread of the node has done what it may. -/
theorem Node.Still.putThread (hs : Node.Still n n₁)
    (hstate : t₀.self.state = (n₁.handler h).state)
    (hsends : t₀.sendingMessages = n₁.sendingMessages)
    (hresults : t₀.results = n₁.results) (ht : Thread.Acted σ t₀ t) :
    Node.Acted σ n (Node.putThread t h n₁) := by
  refine ⟨fun i => ?_, ?_, ?_⟩
  · by_cases hi : i = h
    · subst hi
      by_cases hh : i < n₁.handlers.length
      · rw [Node.handler_putThread_self hh, ← hs.states i, ← hstate]
        exact ht.state
      · have hlength : (Node.putThread t i n₁).handlers.length ≤ i := by
          rw [Node.length_putThread]
          exact not_lt.mp hh
        rw [← hs.states i, Node.handler_of_ge hlength, Node.handler_of_ge (not_lt.mp hh)]
        exact Or.inl rfl
    · rw [Node.handler_putThread_ne hi]
      exact Or.inl (hs.states i)
  · obtain ⟨l, hl, hall⟩ := ht.sends
    exact ⟨l, by rw [← hs.sends, ← hsends, ← hl]; rfl, hall⟩
  · obtain ⟨l, hl, hall⟩ := ht.results
    exact ⟨l, by rw [← hs.results, ← hresults, ← hl]; rfl, hall⟩

theorem Thread.TimedOut.acted {type : TimeoutType} {r : Except Fault Unit}
    (ht : t₀.TimedOut type r t) :
    Thread.Acted ⟨(· = .closed), fun _ => False, fun _ => False⟩ t₀ t := by
  have hnothing : ∀ {α : Type} (l : List α) {P : α → Prop},
      ∃ added, l = l ++ added ∧ ∀ e ∈ added, P e :=
    fun l => ⟨[], (List.append_nil l).symm, fun _ h => absurd h List.not_mem_nil⟩
  cases ht with
  | idle => exact .start
  | failed => exact ⟨Or.inl rfl, hnothing _, hnothing _⟩
  | released => exact ⟨Or.inr rfl, hnothing _, hnothing _⟩

/-- **A step of a node does what its scope allows.** -/
theorem Node.Inv.acted (hn : n.Inv)
    (hrun : (perform env action).run n = (.ok (), n')) : Node.Acted (action.scope env) n n' := by
  have hstill : Node.Still n n := ⟨fun _ => rfl, rfl, rfl⟩
  have hstepped := hn.stepped hrun
  generalize hr : (.ok () : Except Fault Unit) = r at hstepped
  cases hstepped with
  | dropped hf => exact (Node.Still.found hf hn).acted
  | stopped hf he => cases hr
  | bid hf hk hs hrunning hb =>
    rename_i message source n₁ h bid
    have hs₁ := Node.Still.found hf hn
    refine Node.Still.acted ⟨fun i => ?_, hs₁.sends, hs₁.results⟩
    rw [← hs₁.states i]
    by_cases hi : i = h
    · rw [hi, Node.withBid, Node.handler_modify_self ((hf.inv hn).stored _ _ hk).1]
    · rw [Node.withBid, Node.handler_modify_ne hi]
  | round hh hcall =>
    cases hr
    exact (Node.Still.hands hh hn).putThread Node.startThread_state rfl rfl
      ((operatorCall_acts _).ok .start hcall)
  | woken hcall =>
    cases hr
    exact hstill.putThread rfl rfl rfl (wake_acts.ok .start hcall)
  | fired hcall hr' he =>
    rename_i h type r t
    have hexpire : Node.Still n (n.expire h type) := ⟨fun _ => rfl, rfl, rfl⟩
    exact hexpire.putThread rfl rfl rfl (onTimeout_timedOut hcall).acted
  | marked => exact Node.Still.acted ⟨fun _ => rfl, rfl, rfl⟩

end Steps

end Rankd

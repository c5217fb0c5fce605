import Rankd.Node.ReplyRun
import Rankd.Node.Steps

/-!
# What a handler keeps of its auctions

The bids and the two counters of a handler, its `tally`. Most statements leave it alone, and a round
changes it in two ways only: an EAR may open an auction, which sets the counters, and a BID that the
handler waits for is added.

* `operatorCall_tallied` — what a round does to the tally of its handler
* `Node.Inv.step_tally` — what a step of the node does to it
-/

namespace Rankd

open Infra Infra.Prog

/-- `_bids`, `_waiting_bids` and `_arriving_bids`. -/
structure Tally where
  bids : BidSet
  waiting : UInt8
  arriving : UInt8

def Handler.tally (s : Handler) : Tally := ⟨s.bids, s.waitingBids, s.arrivingBids⟩

/-- `new_bid`. -/
def Tally.add (bid : Bid) (tally : Tally) : Tally where
  bids := BidSet.insert tally.bids bid
  waiting := tally.waiting
  arriving := tally.arriving + 1

def Message.isMar : Message → Bool
  | .mar .. => true
  | .ear .. | .bid .. | .acc .. | .ref .. | .rep .. => false

/-! ## Statements that leave the tally alone -/

/-- The tally is kept, with or without a fault. -/
abbrev KeepsTally {α : Type} (p : ThreadM α) : Prop := Preserves (fun t => t.self.tally) p

section Statements

variable {env : Env} {me : HandlerId} {peers : List Handler}

theorem setState_tally (state : HandlerState) : KeepsTally (setState state) := .modify fun _ => rfl

theorem stop_tally : KeepsTally stop := .modify fun _ => rfl

theorem setReservation_tally (p : ReservationPtr) : KeepsTally (setReservation p) :=
  .modify fun _ => rfl

theorem initiateTimeout_tally (type : TimeoutType) : KeepsTally (initiateTimeout me type) :=
  .modify fun _ => rfl

theorem onReservation_tally {α : Type} (p : HeldM α) : KeepsTally (onReservation p) :=
  .zoom fun _ _ => rfl

theorem sendMessage_tally (message : Message) (target : Bytes) (type : IdentifierType) :
    KeepsTally (sendMessage message target type) :=
  .bind (.readOnly (.ensure _ _)) fun _ => .modify fun _ => rfl

/-- The ends of the branches. -/
theorem finish_tally (state : HandlerState) (exit : Exit) :
    KeepsTally (do setState state; stop; return exit) :=
  .bind (setState_tally _) fun _ => .bind stop_tally fun _ => .pure _

theorem stopped_tally (exit : Exit) : KeepsTally (do stop; return exit) :=
  .bind stop_tally fun _ => .pure _

theorem refuseToSource_tally : KeepsTally (refuseToSource env) :=
  .get fun _ => .bind (.readOnly nearestToSource_readOnly) fun _ => sendMessage_tally _ _ _

/-- `set_past_node` and `add_next_node`. -/
theorem writeAndPrint_tally (f : Reservation → Reservation) : KeepsTally (do
    onReservation (writeThrough f)
    let reservation ← onReservation deref
    Prog.ensure reservation.printable .outOfRange) :=
  .bind (onReservation_tally _) fun _ => .bind (onReservation_tally _) fun _ =>
    .readOnly (.ensure _ _)

theorem buildReservation_tally (r : Request) (address : Bytes) :
    KeepsTally (buildReservation env r address) := by
  unfold buildReservation
  split
  · exact .bind (setReservation_tally _) fun _ => .pure _
  · exact .ite (.pure _) (.fault _)
  · exact .fault _

theorem setReservationUuid_tally : KeepsTally setReservationUuid :=
  .get fun _ => onReservation_tally _

theorem leaveSwitch_tally (exit : Exit) : KeepsTally (leaveSwitch exit) := by
  cases exit with
  | breaks => exact .modify fun _ => rfl
  | returns => exact .pure _
  | waits => exact .pure _

end Statements

/-! ## Branches that leave the tally alone -/

section Branches

variable {env : Env} {me : HandlerId} {peers : List Handler}

theorem earListener_tally (r : Request) : KeepsTally (earListener env r) := by
  refine .bind (onReservation_tally _) fun position => ?_
  cases position with
  | some address =>
    refine .bind (setReservation_tally _) fun _ => .bind (onReservation_tally _) fun _ => ?_
    refine .get fun _ => .bind (.readOnly nearestToSource_readOnly) fun _ => ?_
    exact .bind (sendMessage_tally _ _ _) fun _ => finish_tally _ _
  | none => exact .bind refuseToSource_tally fun _ => finish_tally _ _

theorem marBid_tally (r : Request) : KeepsTally (marBid env me r) := by
  refine .bind (onReservation_tally _) fun position => ?_
  cases position with
  | some address =>
    refine .bind (setReservation_tally _) fun _ => .bind (onReservation_tally _) fun _ => ?_
    refine .get fun _ => .bind (.readOnly sourceFirst_readOnly) fun _ => ?_
    refine .bind (.readOnly (portTo_readOnly _)) fun _ =>
      .bind (sendMessage_tally _ _ _) fun _ => ?_
    refine .bind (setState_tally _) fun _ => .bind (onReservation_tally _) fun _ => ?_
    refine .bind (onReservation_tally _) fun _ => .bind (setReservation_tally _) fun _ => ?_
    exact .bind (initiateTimeout_tally _) fun _ => stopped_tally _
  | none =>
    refine .get fun _ => .bind (.readOnly sourceFirst_readOnly) fun _ => ?_
    refine .bind (.readOnly (portTo_readOnly _)) fun _ =>
      .bind (sendMessage_tally _ _ _) fun _ => ?_
    exact finish_tally _ _

theorem marBranch_tally (r : Request) : KeepsTally (marBranch env me r) := by
  refine .bind (setState_tally _) fun _ => .bind (.readOnly (liftExcept_readOnly _)) fun _ => ?_
  refine .bind (buildReservation_tally _ _) fun built => ?_
  cases built with
  | true => exact .bind setReservationUuid_tally fun _ => marBid_tally r
  | false => exact finish_tally _ _

theorem sendAuctionEar_tally (uuid : UUIDv4) (winner : NodeIdentifier) :
    KeepsTally (sendAuctionEar env uuid winner) := by
  refine .bind (onReservation_tally _) fun _ => .bind (.readOnly (firstByte_readOnly _)) fun _ => ?_
  refine .bind (.readOnly sourceFirst_readOnly) fun _ => ?_
  exact .bind (.readOnly (portTo_readOnly _)) fun _ => sendMessage_tally _ _ _

theorem tieRound_tally (winner : NodeIdentifier × Nat) : KeepsTally (tieRound env me winner) := by
  refine .get fun _ => .bind (.bind (.modify fun _ => rfl) fun _ => .pure _) fun _ => ?_
  refine .bind (sendAuctionEar_tally _ _) fun _ => .bind (setState_tally _) fun _ => ?_
  exact initiateTimeout_tally _

/-- **The end of an auction keeps the bids and the counters.** -/
theorem auctionEnd_tally : KeepsTally (auctionEnd env me) := by
  have htie : ∀ winners : List NodeIdentifier, KeepsTally
      (do Prog.forEach winners.zipIdx (tieRound env me); stop; return Exit.breaks) :=
    fun _ => .bind (.forEach fun _ => tieRound_tally _) fun _ => stopped_tally _
  refine .get fun t => .ite (.bind (sendMessage_tally _ _ _) fun _ => finish_tally _ _) ?_
  split
  · refine .bind (sendAuctionEar_tally _ _) fun _ => .bind (setState_tally _) fun _ => ?_
    exact .bind (initiateTimeout_tally _) fun _ => stopped_tally _
  · exact htie _

theorem wake_tally : KeepsTally (wake env me) :=
  .bind (.modify fun _ => rfl) fun _ => .bind auctionEnd_tally fun exit => leaveSwitch_tally exit

theorem accRelay_tally : KeepsTally (accRelay env) := by
  refine .get fun _ => .bind (.readOnly pastNodePort_readOnly) fun port => ?_
  cases port with
  | none => exact stopped_tally _
  | some target =>
    refine .bind (sendMessage_tally _ _ _) fun _ => .bind (setState_tally _) fun _ => ?_
    exact .bind (writeAndPrint_tally _) fun _ => stopped_tally _

theorem accBranch_tally : KeepsTally (accBranch env) := by
  refine .get fun t => .ite (stopped_tally _) (.bind (onReservation_tally _) fun _ => ?_)
  split
  · refine .bind (.get fun _ => .bind (.readOnly (.ensure _ _)) fun _ => .modify fun _ => rfl) ?_
    exact fun _ => accRelay_tally
  · refine .ite (.bind (.modify fun _ => rfl) fun _ => .bind (writeAndPrint_tally _) fun _ => ?_)
      accRelay_tally
    exact finish_tally _ _

theorem refErase_tally : KeepsTally (refErase me peers) := by
  refine .get fun t => ?_
  split
  · exact .pure _
  · refine .bind (.readOnly (isPreReserving_readOnly _ _)) fun _ => .ite ?_ (.pure _)
    exact .bind (.modify fun _ => rfl) fun _ => .fault _

theorem refRelay_tally : KeepsTally (refRelay env) := by
  refine .get fun _ => .bind (.readOnly sourcePort_readOnly) fun port => ?_
  cases port with
  | none => exact stopped_tally _
  | some target => exact .bind (sendMessage_tally _ _ _) fun _ => finish_tally _ _

theorem refBranch_tally : KeepsTally (refBranch env me peers) := by
  refine .bind refErase_tally fun _ => .get fun t => ?_
  split
  · refine .bind (.modify fun _ => rfl) fun _ => .get fun _ => ?_
    exact .ite refRelay_tally (finish_tally _ _)
  · refine .ite (.bind (.modify fun _ => rfl) fun _ => .bind (.modify fun _ => rfl) fun _ => ?_)
      refRelay_tally
    exact finish_tally _ _

theorem repBranch_tally (listenerLength : UInt8) (listener : ListenerArray) :
    KeepsTally (repBranch env me listenerLength listener) := by
  refine .bind (setState_tally _) fun _ => .bind (.readOnly (liftExcept_readOnly _)) fun _ => ?_
  refine .get fun _ => .ite ?_ (.ite ?_ (finish_tally _ _))
  · refine .bind (.readOnly sourceFirst_readOnly) fun _ => ?_
    refine .bind (.readOnly (portTo_readOnly _)) fun _ =>
      .bind (sendMessage_tally _ _ _) fun _ => ?_
    exact finish_tally _ _
  · refine .get fun _ => .bind (onReservation_tally _) fun _ => ?_
    refine .bind (.forEach fun _ => ?_) fun _ => .bind (initiateTimeout_tally _) fun _ =>
      stopped_tally _
    refine .bind (.readOnly (firstByte_readOnly _)) fun _ => ?_
    refine .bind (.readOnly sourceFirst_readOnly) fun _ => ?_
    exact .bind (.readOnly (portTo_readOnly _)) fun _ => sendMessage_tally _ _ _

end Branches

/-! ## Rounds -/

/-- An auction that was opened: the MARs are sent, the counters are set and the bids are kept. -/
structure Thread.Opened (mars : SendingQueue) (t t' : Thread) : Prop where
  requests : ∀ e ∈ mars, e.1.isMar = true
  several : 2 ≤ mars.length
  sends : t'.sendingMessages = t.sendingMessages ++ mars
  state : t'.self.state = .auctionWaiting
  tally : t'.self.tally = ⟨t.self.bids, UInt8.ofNat mars.length, 0⟩

/-- What a round for the given message does to the tally of its handler. -/
inductive Thread.Tallied (message : Message) (t t' : Thread) : Prop
  | kept (hear : ∀ v u r, message = .ear v u r → t'.self.state ≠ .auctionWaiting)
    (hbid : ∀ v u value, message = .bid v u value → t.self.state ≠ .auctionWaiting)
    (htally : t'.self.tally = t.self.tally)
  | opened {v : UInt8} {u : UUIDv4} {r : Request} {mars : SendingQueue}
    (hm : message = .ear v u r) (ho : t.Opened mars t')
  | bid {v : UInt8} {u : UUIDv4} {value : BitVec 32} (hm : message = .bid v u value)
    (hstate : t.self.state = .auctionWaiting)
    (htally : t'.self.tally = t.self.tally.add (value, t.self.sourceIdentifier))

section Rounds

variable {env : Env} {me : HandlerId} {peers : List Handler} {t t' : Thread} {exit : Exit}
  {message : Message}

/-- The MARs of an auction, one for each connection. -/
theorem sendMars_length {connections : List NodeIdentifier} {uuid : UUIDv4}
    (hrun : (Prog.forEach connections fun intermediate => do
      let reservation ← onReservation deref
      sendMessage (.mar headerVersion uuid (relayedRequest env reservation)) intermediate.1
        intermediate.2).run t = (.ok (), t')) :
    ∃ mars : SendingQueue, mars.length = connections.length ∧ (∀ e ∈ mars, e.1.isMar = true) ∧
      t'.sendingMessages = t.sendingMessages ++ mars ∧ t'.self.tally = t.self.tally := by
  induction connections generalizing t with
  | nil =>
    cases hrun
    exact ⟨[], rfl, by simp, by simp, rfl⟩
  | cons c rest ih =>
    rw [forEach_cons] at hrun
    obtain ⟨⟨⟩, t₁, hfirst, hrest⟩ := bind_eq_ok.mp hrun
    obtain ⟨x, t₂, hread, hsend⟩ := bind_eq_ok.mp hfirst
    obtain ⟨s, -, rfl⟩ := onReservation_ok hread
    obtain ⟨-, rfl⟩ := sendMessage_ok hsend
    obtain ⟨mars, hlength, hmars, hsends, htally⟩ := ih hrest
    refine ⟨(.mar headerVersion uuid (relayedRequest env x), c.1, c.2) :: mars, ?_, ?_, ?_, htally⟩
    · rw [List.length_cons, List.length_cons, hlength]
    · rintro e (_ | ⟨_, he⟩)
      · rfl
      · exact hmars e he
    · rw [hsends]
      simp [Thread.sent, Thread.sentAll, Thread.loaded]

/-- A handler that goes on toward the listener opens an auction, or does not wait for bids. -/
theorem earForward_tallied {address : Bytes}
    (hrun : (earForward env me address).run t = (.ok exit, t')) :
    (t'.self.state ≠ .auctionWaiting ∧ t'.self.tally = t.self.tally) ∨
      ∃ mars, t.Opened mars t' := by
  rw [earForward] at hrun
  obtain ⟨target, t₁, hfirst, hrun₁⟩ := bind_eq_ok.mp hrun
  obtain ⟨rfl, -⟩ := firstByte_ok hfirst
  rw [bind_ok (run_get _)] at hrun₁
  rcases hc : nearestConnections (getConnectionsTo env target) with _ | ⟨c, _ | ⟨d, cs⟩⟩
  · simp only [hc] at hrun₁
    obtain ⟨⟨⟩, t₂, hsend, hend⟩ := bind_eq_ok.mp hrun₁
    obtain ⟨-, rfl⟩ := sendMessage_ok hsend
    cases hend
    exact Or.inl ⟨(by simp), rfl⟩
  · simp only [hc] at hrun₁
    obtain ⟨x, t₂, hread, hrun₂⟩ := bind_eq_ok.mp hrun₁
    obtain ⟨s, -, rfl⟩ := onReservation_ok hread
    obtain ⟨⟨⟩, t₃, hsend, hrun₃⟩ := bind_eq_ok.mp hrun₂
    obtain ⟨-, rfl⟩ := sendMessage_ok hsend
    obtain ⟨R, p, rfl⟩ := forwarded_ok hrun₃
    exact Or.inl ⟨(fun h => by cases h), rfl⟩
  · simp only [hc] at hrun₁
    obtain ⟨⟨⟩, t₂, hcount, hrun₂⟩ := bind_eq_ok.mp hrun₁
    cases hcount
    obtain ⟨⟨⟩, t₃, hloop, hrun₃⟩ := bind_eq_ok.mp hrun₂
    obtain ⟨mars, hlength, hmars, hsends, htally⟩ := sendMars_length hloop
    obtain ⟨R, p, rfl⟩ := forwarded_ok hrun₃
    refine Or.inr ⟨mars, hmars, by rw [hlength]; simp, hsends, rfl, ?_⟩
    rw [hlength]
    exact htally

theorem earRelay_tallied {uuid : UUIDv4} {r : Request} {address : Bytes}
    (hrun : (earRelay env me peers uuid r address).run t = (.ok exit, t')) :
    (t'.self.state ≠ .auctionWaiting ∧ t'.self.tally = t.self.tally) ∨
      ∃ mars, t.Opened mars t' := by
  rw [earRelay, bind_ok (run_get t)] at hrun
  split_ifs at hrun
  · rw [bind_ok (run_setReservation _)] at hrun
    rcases earForward_tallied hrun with h | ⟨mars, ho⟩
    · exact Or.inl h
    · exact Or.inr ⟨mars, ho.requests, ho.several, ho.sends, ho.state, ho.tally⟩
  obtain ⟨position, t₁, hposition, hrun₁⟩ := bind_eq_ok.mp hrun
  obtain ⟨s, -, rfl⟩ := onReservation_ok hposition
  cases position with
  | none =>
    rw [bind_ok (run_setReservation _)] at hrun₁
    obtain ⟨⟨⟩, t₂, href, hend⟩ := bind_eq_ok.mp hrun₁
    have htally := refuseToSource_tally.ok href
    cases hend
    exact Or.inl ⟨(by simp), htally⟩
  | some a =>
    obtain ⟨b, t₂, hmark, hrun₂⟩ := bind_eq_ok.mp hrun₁
    obtain ⟨s', -, rfl⟩ := onReservation_ok hmark
    rw [bind_ok (run_setReservation _)] at hrun₂
    rcases earForward_tallied hrun₂ with h | ⟨mars, ho⟩
    · exact Or.inl h
    · exact Or.inr ⟨mars, ho.requests, ho.several, ho.sends, ho.state, ho.tally⟩

/-- A listener grants or refuses. -/
theorem earListener_state {r : Request} (hrun : (earListener env r).run t = (.ok exit, t')) :
    t'.self.state = .reserved ∨ t'.self.state = .closed := by
  rw [earListener] at hrun
  obtain ⟨position, t₁, -, hrun₁⟩ := bind_eq_ok.mp hrun
  cases position with
  | none =>
    obtain ⟨⟨⟩, t₂, -, hend⟩ := bind_eq_ok.mp hrun₁
    cases hend
    exact Or.inr rfl
  | some a =>
    obtain ⟨⟨⟩, t₂, -, hrun₂⟩ := bind_eq_ok.mp hrun₁
    obtain ⟨⟨⟩, t₃, -, hrun₃⟩ := bind_eq_ok.mp hrun₂
    rw [bind_ok (run_get _)] at hrun₃
    obtain ⟨target, t₄, -, hrun₄⟩ := bind_eq_ok.mp hrun₃
    obtain ⟨⟨⟩, t₅, -, hend⟩ := bind_eq_ok.mp hrun₄
    cases hend
    exact Or.inl rfl

/-! The statements before the listener is asked for send nothing. -/

theorem startAssessing_books :
    Preserves (fun t => (t.self.tally, t.sendingMessages)) startAssessing :=
  .get fun _ => .ite (.pure _) (.modify fun _ => rfl)

theorem earReservation_books (r : Request) (address : Bytes) :
    Preserves (fun t => (t.self.tally, t.sendingMessages)) (earReservation env r address) := by
  refine .get fun _ => .ite (.pure _) ?_
  unfold buildReservation
  split
  · exact .bind (.modify fun _ => rfl) fun _ => .pure _
  · exact .ite (.pure _) (.fault _)
  · exact .fault _

theorem identifyReservation_books :
    Preserves (fun t => (t.self.tally, t.sendingMessages)) identifyReservation :=
  .get fun _ => .ite (.pure _) (.get fun _ => .zoom fun _ _ => rfl)

theorem earBranch_tallied {uuid : UUIDv4} {r : Request}
    (hrun : (earBranch env me peers uuid r).run t = (.ok exit, t')) :
    (t'.self.state ≠ .auctionWaiting ∧ t'.self.tally = t.self.tally) ∨
      ∃ mars, t.Opened mars t' := by
  rw [earBranch] at hrun
  obtain ⟨⟨⟩, t₁, hassess, hrun₁⟩ := bind_eq_ok.mp hrun
  obtain ⟨address, t₂, hlift, hrun₂⟩ := bind_eq_ok.mp hrun₁
  obtain ⟨rfl, -⟩ := liftExcept_ok hlift
  obtain ⟨built, t₃, hbuilt, hrun₃⟩ := bind_eq_ok.mp hrun₂
  obtain ⟨htally₁, hsends₁⟩ := Prod.mk.inj (startAssessing_books.ok hassess)
  obtain ⟨htally₂, hsends₂⟩ := Prod.mk.inj ((earReservation_books r address).ok hbuilt)
  cases built with
  | false =>
    cases hrun₃
    exact Or.inl ⟨(by simp), htally₂.trans htally₁⟩
  | true =>
    obtain ⟨⟨⟩, t₄, hidentify, hrun₄⟩ := bind_eq_ok.mp hrun₃
    obtain ⟨htally₃, hsends₃⟩ := Prod.mk.inj (identifyReservation_books.ok hidentify)
    have htally : t₄.self.tally = t.self.tally := htally₃.trans (htally₂.trans htally₁)
    split_ifs at hrun₄
    · refine Or.inl ⟨?_, ((earListener_tally r).ok hrun₄).trans htally⟩
      rcases earListener_state hrun₄ with hstate | hstate <;> simp [hstate]
    · rcases earRelay_tallied hrun₄ with ⟨hstate, hkept⟩ | ⟨mars, ho⟩
      · exact Or.inl ⟨hstate, hkept.trans htally⟩
      · refine Or.inr ⟨mars, ho.requests, ho.several, ?_, ho.state, ?_⟩
        · rw [ho.sends, hsends₃, hsends₂, hsends₁]
        · rw [ho.tally, show t₄.self.bids = t.self.bids from congrArg Tally.bids htally]

theorem bidBranch_tallied {value : BitVec 32} (hrun : (bidBranch me value).run t = (.ok exit, t')) :
    (t.self.state ≠ .auctionWaiting ∧ t'.self.tally = t.self.tally) ∨
      (t.self.state = .auctionWaiting ∧
        t'.self.tally = t.self.tally.add (value, t.self.sourceIdentifier)) := by
  rw [bidBranch, bind_ok (run_get t)] at hrun
  split_ifs at hrun with hs
  · cases hrun
    exact Or.inr ⟨hs, rfl⟩
  · cases hrun
    exact Or.inl ⟨hs, rfl⟩

/-- The branch of the message. -/
theorem messageSwitch_tallied
    (hrun : (messageSwitch env me peers message).run t = (.ok exit, t')) :
    t.Tallied message t' := by
  cases message with
  | ear v u r =>
    rcases earBranch_tallied hrun with ⟨hstate, htally⟩ | ⟨mars, ho⟩
    · exact .kept (fun _ _ _ _ => hstate) nofun htally
    · exact .opened rfl ho
  | mar v u r => exact .kept nofun nofun ((marBranch_tally r).ok hrun)
  | bid v u value =>
    rcases bidBranch_tallied hrun with ⟨hstate, htally⟩ | ⟨hstate, htally⟩
    · exact .kept nofun (fun _ _ _ _ => hstate) htally
    · exact .bid rfl hstate htally
  | acc v u => exact .kept nofun nofun (accBranch_tally.ok hrun)
  | ref v u => exact .kept nofun nofun (refBranch_tally.ok hrun)
  | rep v u length reserved listener => exact .kept nofun nofun ((repBranch_tally _ _).ok hrun)

/-- The reservation is loaded before the switch, and the message is dropped after it. -/
theorem Thread.Tallied.framed {t₁ t₂ : Thread} (h : t₁.Tallied message t₂)
    (hloaded : t₁.self = { t.self with reservation := t₁.self.reservation })
    (hqueue : t₁.sendingMessages = t.sendingMessages) (exit : Exit) :
    t.Tallied message (t₂.left exit) := by
  have hstate : (t₂.left exit).self.state = t₂.self.state := by cases exit <;> rfl
  have htally : (t₂.left exit).self.tally = t₂.self.tally := by cases exit <;> rfl
  have hsends : (t₂.left exit).sendingMessages = t₂.sendingMessages := by cases exit <;> rfl
  have hself : t₁.self.state = t.self.state ∧ t₁.self.tally = t.self.tally ∧
      t₁.self.sourceIdentifier = t.self.sourceIdentifier := by
    rw [hloaded]
    exact ⟨rfl, rfl, rfl⟩
  obtain ⟨hstate₁, htally₁, hsource₁⟩ := hself
  cases h with
  | kept hear hbid hkept =>
    refine .kept (fun v u r hm => ?_) (fun v u value hm => ?_) ?_
    · rw [hstate]
      exact hear v u r hm
    · rw [← hstate₁]
      exact hbid v u value hm
    · rw [htally, hkept, htally₁]
  | opened hm ho =>
    refine .opened hm ⟨ho.requests, ho.several, ?_, ?_, ?_⟩
    · rw [hsends, ho.sends, hqueue]
    · rw [hstate, ho.state]
    · rw [htally, ho.tally, show t₁.self.bids = t.self.bids from congrArg Tally.bids htally₁]
  | bid hm hs hadd =>
    refine .bid hm (hstate₁.symm.trans hs) ?_
    rw [htally, hadd, htally₁, hsource₁]

/-- **What a round does to the tally of its handler.** -/
theorem operatorCall_tallied (hrun : (operatorCall env me peers message).run t = (.ok (), t')) :
    t.Tallied message t' := by
  rw [operatorCall] at hrun
  obtain ⟨⟨⟩, t₁, hload, hrun₁⟩ := bind_eq_ok.mp hrun
  obtain ⟨⟨⟩, t₂, hcheck, hrun₂⟩ := bind_eq_ok.mp hrun₁
  obtain ⟨exit, t₃, hswitch, hleave⟩ := bind_eq_ok.mp hrun₂
  cases checkReservation_ok hcheck
  rw [loadReservation, bind_ok (run_get t)] at hload
  obtain ⟨pointer, t₄, hget, hset⟩ := bind_eq_ok.mp hload
  obtain ⟨s, -, rfl⟩ := onReservation_ok hget
  cases hset
  rw [run_leaveSwitch] at hleave
  cases hleave
  exact Thread.Tallied.framed (t := t) (messageSwitch_tallied hswitch) rfl rfl exit

end Rounds

/-! ## Steps of a node -/

section Steps

variable {env : Env} {action : Action} {n n₁ n' : Node} {h i : HandlerId} {message : Message}
  {source : NodeIdentifier} {mars : SendingQueue} {bid : Bid}

/-- A step in which the handler `h` opens an auction with these MARs. -/
def Node.Opens (env : Env) (action : Action) (n n' : Node) (h : HandlerId) (mars : SendingQueue) :
    Prop :=
  ∃ v u r source, action = .receive (.ear v u r) source ∧
    Node.Delivers env (.ear v u r) source h n n' ∧ (n'.handler h).state = .auctionWaiting ∧
    n'.sendingMessages = n.sendingMessages ++ mars

/-- A step in which the handler `h` takes a bid. -/
inductive Node.TakesBid (env : Env) (n : Node) (h : HandlerId) : Action → Node → Bid → Prop
  /-- The first BID, through the BID branch. -/
  | first {v : UInt8} {u : UUIDv4} {value : BitVec 32} {source : NodeIdentifier} {n' : Node}
    (hd : Node.Delivers env (.bid v u value) source h n n')
    (hs : (n.handler h).state = .auctionWaiting) :
    Node.TakesBid env n h (.receive (.bid v u value) source) n' (value, source)
  /-- The others, through `new_bid`. -/
  | later {message : Message} {source : NodeIdentifier} {n₁ : Node} {bid : Bid}
    (hf : Node.Found message.uuid n n₁)
    (hk : n₁.store.find? (handledUuid env n message) = some h)
    (hs : (n₁.handler h).state = .auctionWaiting) (hr : (n₁.handler h).running = true)
    (hb : message.Bids env source n₁ bid) :
    Node.TakesBid env n h (.receive message source) (n₁.withBid h bid) bid

/-- A lookup changes neither tally nor state. -/
theorem Node.Found.tally {id : UUIDv4} (hf : Node.Found id n n₁) (hn : n.Inv) :
    (n₁.handler i).tally = (n.handler i).tally := by
  obtain ⟨u, hu, -⟩ := hf.handler hn i
  rw [hu]
  rfl

theorem Node.Hands.tally (hh : Node.Hands env message n n₁ h) (hn : n.Inv) (i : HandlerId) :
    (n₁.handler i).tally = (n.handler i).tally ∧ (n₁.handler i).state = (n.handler i).state := by
  obtain ⟨u, hu⟩ := hh.handler_at hn i
  rw [hu]
  exact ⟨rfl, rfl⟩

theorem Node.startThread_tally : (n.startThread h message source).self.tally = (n.handler h).tally ∧
    (n.startThread h message source).self.state = (n.handler h).state := by
  cases message <;> exact ⟨rfl, rfl⟩

/-- A round, seen from the node. -/
theorem Node.Delivers.tallied (hd : Node.Delivers env message source h n n') (hn : n.Inv) :
    ∃ t t' : Thread, t.Tallied message t' ∧ t.self.tally = (n.handler h).tally ∧
      t.self.state = (n.handler h).state ∧ t.sendingMessages = n.sendingMessages ∧
      (∀ v u value, message = .bid v u value → t.self.sourceIdentifier = source) ∧
      n'.handler h = t'.self ∧ n'.sendingMessages = t'.sendingMessages := by
  obtain ⟨n₁, t, hh, hcall, rfl⟩ := hd
  obtain ⟨htally, hstate⟩ := hh.tally hn h
  have hqueue : n₁.sendingMessages = n.sendingMessages := hh.sendingMessages
  refine ⟨_, t, operatorCall_tallied hcall, Node.startThread_tally.1.trans htally,
    Node.startThread_tally.2.trans hstate, hqueue, ?_, Node.handler_putThread_self (hh.lt hn), rfl⟩
  rintro v u value rfl
  rfl

/-- A round for an EAR that ends in an auction has opened it. -/
theorem Node.Delivers.opens {v : UInt8} {u : UUIDv4} {r : Request} (hn : n.Inv)
    (hd : Node.Delivers env (.ear v u r) source h n n')
    (hs : (n'.handler h).state = .auctionWaiting) :
    ∃ mars, Node.Opens env (.receive (.ear v u r) source) n n' h mars ∧
      n'.sendingMessages = n.sendingMessages ++ mars := by
  obtain ⟨t, t', htallied, -, -, hqueue, -, hself, hqueue'⟩ := hd.tallied hn
  cases htallied with
  | kept hear => exact absurd (hself ▸ hs) (hear v u r rfl)
  | opened hm ho =>
    have hsends := hqueue'.trans (ho.sends.trans (congrArg (· ++ _) hqueue))
    exact ⟨_, ⟨v, u, r, source, rfl, hd, hs, hsends⟩, hsends⟩
  | bid hm => cases hm

/-- **An auction that is opened** counts its MARs, and keeps the bids that are there. -/
theorem Node.Opens.effect (ho : Node.Opens env action n n' h mars) (hn : n.Inv) :
    (∀ e ∈ mars, e.1.isMar = true) ∧ 2 ≤ mars.length ∧
      (n'.handler h).tally = ⟨(n.handler h).bids, UInt8.ofNat mars.length, 0⟩ := by
  obtain ⟨v, u, r, source, rfl, hd, hstate, hsends⟩ := ho
  obtain ⟨t, t', htallied, htally, -, hqueue, -, hself, hqueue'⟩ := hd.tallied hn
  cases htallied with
  | kept hear => exact absurd (hself ▸ hstate) (hear v u r rfl)
  | opened hm hopen =>
    rename_i sent
    have heq : mars = sent := by
      rw [hqueue', hopen.sends, hqueue] at hsends
      exact (List.append_cancel_left hsends).symm
    subst heq
    refine ⟨hopen.requests, hopen.several, ?_⟩
    rw [hself, hopen.tally, show t.self.bids = (n.handler h).bids from congrArg Tally.bids htally]
  | bid hm => cases hm

/-- **A bid that is taken** is added and counted. -/
theorem Node.TakesBid.effect (ht : Node.TakesBid env n h action n' bid) (hn : n.Inv) :
    (n'.handler h).tally = (n.handler h).tally.add bid := by
  cases ht with
  | first hd hs =>
    obtain ⟨t, t', htallied, htally, hstate, -, hsource, hself, -⟩ := hd.tallied hn
    cases htallied with
    | kept hear hbid => exact absurd (hstate.trans hs) (hbid _ _ _ rfl)
    | opened hm => cases hm
    | bid hm hwaiting hadd =>
      cases hm
      rw [hself, hadd, htally, hsource _ _ _ rfl]
  | later hf hk hs hr hb =>
    rw [← hf.tally hn, Node.withBid, Node.handler_modify_self ((hf.inv hn).stored _ _ hk).1]
    rfl

/-- A thread of one handler keeps the tallies of the others. -/
theorem Node.putThread_tally {t : Thread}
    (h : i < n.handlers.length → t.self.tally = (n.handler i).tally) (j : HandlerId) :
    ((Node.putThread t i n).handler j).tally = (n.handler j).tally := by
  by_cases hj : j = i
  · subst hj
    by_cases hlt : j < n.handlers.length
    · rw [Node.handler_putThread_self hlt]
      exact h hlt
    · rw [Node.handler, Node.putThread, List.set_eq_of_length_le (not_lt.mp hlt)]
      rfl
  · rw [Node.handler_putThread_ne hj]

/-- **Any other step** keeps the counters, and keeps the bids or drops them all. -/
theorem Node.Inv.step_tally (hn : n.Inv) (hrun : (perform env action).run n = (.ok (), n'))
    (hopens : ∀ mars, ¬Node.Opens env action n n' h mars)
    (htakes : ∀ bid, ¬Node.TakesBid env n h action n' bid) :
    (n'.handler h).tally = (n.handler h).tally ∨
      (n'.handler h).tally = { (n.handler h).tally with bids := [] } := by
  cases hn.stepped hrun with
  | dropped hf => exact Or.inl (hf.tally hn)
  | bid hf hk hs hr hb =>
    rename_i n₁ i bid
    by_cases hi : h = i
    · subst hi
      exact absurd (.later hf hk hs hr hb) (htakes bid)
    · rw [Node.withBid, Node.handler_modify_ne hi]
      exact Or.inl (hf.tally hn)
  | round hh hcall =>
    rename_i message source n₁ i t
    by_cases hi : h = i
    · subst hi
      have hd : Node.Delivers env message source h n (Node.putThread t h n₁) :=
        ⟨n₁, t, hh, hcall, rfl⟩
      obtain ⟨t₀, t', htallied, htally, hstate, hqueue, hsource, hself, hqueue'⟩ := hd.tallied hn
      cases htallied with
      | kept hear hbid hkept => exact Or.inl (by rw [hself, hkept, htally])
      | opened hm ho =>
        subst hm
        obtain ⟨mars, hopened, -⟩ := hd.opens hn (by rw [hself]; exact ho.state)
        exact absurd hopened (hopens mars)
      | bid hm hwaiting hadd =>
        subst hm
        exact absurd (.first hd (hstate.symm.trans hwaiting)) (htakes _)
    · rw [Node.handler_putThread_ne hi]
      exact Or.inl (hh.tally hn h).1
  | woken hwake =>
    rename_i i t
    exact Or.inl (Node.putThread_tally (fun _ => wake_tally.ok hwake) h)
  | fired hfire hr he =>
    rename_i i type r t
    have hbids : t.self.tally = (n.handler i).tally ∨
        t.self.tally = { (n.handler i).tally with bids := [] } := by
      cases onTimeout_timedOut hfire with
      | idle => exact Or.inl rfl
      | failed => cases type <;> first | exact Or.inl rfl | exact Or.inr rfl
      | released => cases type <;> first | exact Or.inl rfl | exact Or.inr rfl
    by_cases hi : h = i
    · subst hi
      by_cases hlt : h < n.handlers.length
      · rw [Node.handler_putThread_self (n := n.expire h type) hlt]
        exact hbids
      · exact Or.inl (Node.putThread_tally (n := n.expire h type) (fun hi => absurd hi hlt) h)
    · rw [Node.handler_putThread_ne hi]
      exact Or.inl rfl
  | marked => exact Or.inl rfl

end Steps

end Rankd

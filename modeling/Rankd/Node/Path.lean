import Rankd.Node.Chain
import Rankd.Node.Ending

/-!
# One request at a node

What one request does to the nodes on its path, as far as it has come.

* `Node.Fresh`: the request has not come to the node
* `Node.Awaits`: the request went on, and the node waits for the answer
* `Node.Shut`: the handler of the request is closed, so it takes no messages
* `Node.Secure`: the node has a reservation that no timer takes

EAR timers may fire at any time. Those of other requests change nothing about these, and those of
the request shut a node that waits.
-/

namespace Rankd

open Infra Prog

/-- No handler of the session has come to the node. -/
structure Node.Fresh (u : UUIDv4) (origin : Bool) (n : Node) : Prop where
  unstored : ∀ k ∈ n.store.keys, timestamp k ≠ timestamp u
  free : n.resources.Free (timestamp u)
  timers : ∀ i, (i, .ear) ∈ n.timeouts → timestamp (n.handler i).uuid ≠ timestamp u
  untranslated : n.translationTable.find? u = none
  origin : n.originSet.contains u = origin

/-- The handler `h` has sent the request on, which came from `source`. -/
structure Node.Awaits (u : UUIDv4) (origin : Bool) (source : NodeIdentifier) (h : HandlerId)
    (n : Node) : Prop where
  stored : n.store.find? u = some h
  uuid : (n.handler h).uuid = u
  state : (n.handler h).state = .preReserved
  idle : (n.handler h).running = false
  sourceIdentifier : (n.handler h).sourceIdentifier = source
  reservation : ∃ a x, (n.handler h).reservation = .listed a ∧
    n.resources.Sole (timestamp u) a x ∧ x.state = .preReserved ∧ x.uuid = u ∧ x.pastNode = source
  timers : ∀ i, (i, .ear) ∈ n.timeouts → timestamp (n.handler i).uuid = timestamp u → i = h
  untranslated : n.translationTable.find? u = none
  origin : n.originSet.contains u = origin

/-- The handler of the session is closed. -/
def Node.Shut (u : UUIDv4) (n : Node) : Prop :=
  ∃ h, n.store.find? u = some h ∧ (n.handler h).state = .closed

/-- There is a reservation, and the timers of the session are those of reserved handlers. -/
structure Node.Secure (u : UUIDv4) (n : Node) : Prop where
  reserves : n.Reserves u
  timers : ∀ i, (i, .ear) ∈ n.timeouts → timestamp (n.handler i).uuid = timestamp u →
    (n.handler i).state = .reserved

/-- What the path behind an answer has done. -/
def Node.Done (u : UUIDv4) : ApiResult → Node → Prop
  | .ok, n => n.Secure u
  | .fail, n => ¬n.Reserves u

/-! ## Timers -/

/-- The step from `n` to `n'` is the callback of an EAR timer of the handler `h`. -/
def Node.Fires (h : HandlerId) (n n' : Node) : Prop :=
  ∃ r t, ((n.expire h .ear).thread h).TimedOut .ear r t ∧
    Thread.Frame (timestamp (n.handler h).uuid) ((n.expire h .ear).thread h) t ∧
    n' = Node.putThread t h (n.expire h .ear)

section Timers

variable {env : Env} {n n' : Node} {h i : HandlerId} {u : UUIDv4} {origin : Bool}
  {source : NodeIdentifier}

theorem Node.Fires.of_run (hn : n.Inv)
    (hrun : (perform env (.timeout h .ear)).run n = (.ok (), n')) :
    Node.Fires h n n' := by
  obtain ⟨r, hr⟩ := fireTimeout_run hrun
  obtain ⟨t, ht, rfl⟩ := runThread_run hr
  exact ⟨r, t, onTimeout_timedOut ht, ((hn.expire h .ear).callback ht).toFrame, rfl⟩

/-- A callback changes nothing that the handlers share, but for the reservations. -/
theorem Thread.TimedOut.shared {type : TimeoutType} {r : Except Fault Unit} {t t' : Thread}
    (ht : t.TimedOut type r t') : t'.toShared = { t.toShared with resources := t'.resources } := by
  cases ht <;> rfl

theorem Node.Fires.shared (hf : Node.Fires h n n') : n'.toShared =
    { n.toShared with
      timeouts := n.timeouts.erase (h, .ear)
      resources := n'.resources } := by
  obtain ⟨r, t, ht, -, rfl⟩ := hf
  exact ht.shared

theorem Node.Fires.handler_ne (hf : Node.Fires h n n') (hi : i ≠ h) :
    n'.handler i = n.handler i := by
  obtain ⟨r, t, -, -, rfl⟩ := hf
  exact Node.handler_putThread_ne hi

theorem Node.Fires.handler (hf : Node.Fires h n n') (i : HandlerId) :
    (n'.handler i).uuid = (n.handler i).uuid ∧
      ((n'.handler i).state = (n.handler i).state ∨ (n'.handler i).state = .closed) := by
  by_cases hi : i = h
  · subst hi
    obtain ⟨r, t, ht, -, rfl⟩ := hf
    by_cases hlt : i < n.handlers.length
    · rw [Node.handler_putThread_self (n := n.expire i .ear) hlt]
      cases ht with
      | idle => exact ⟨rfl, Or.inl rfl⟩
      | failed => exact ⟨rfl, Or.inl rfl⟩
      | released => exact ⟨rfl, Or.inr rfl⟩
    · have hlength : (Node.putThread t i (n.expire i .ear)).handlers.length ≤ i := by
        rw [Node.length_putThread]
        exact not_lt.mp hlt
      rw [Node.handler_of_ge (not_lt.mp hlt), Node.handler_of_ge hlength]
      exact ⟨rfl, Or.inl rfl⟩
  · rw [hf.handler_ne hi]
    exact ⟨rfl, Or.inl rfl⟩

theorem Node.Fires.timers (hf : Node.Fires h n n') (hi : (i, .ear) ∈ n'.timeouts) :
    (i, .ear) ∈ n.timeouts := by
  rw [hf.shared] at hi
  exact List.mem_of_mem_erase hi

/-- What another session does with the reservations. -/
theorem Node.Fires.confined (hf : Node.Fires h n n') : n'.resources.Valid ∧
    Resources.Confined (timestamp (n.handler h).uuid) n.resources n'.resources := by
  obtain ⟨r, t, -, hframe, rfl⟩ := hf
  exact ⟨hframe.valid, hframe.confined⟩

/-- A handler that is reserved or closed keeps what it has. -/
theorem Node.Fires.eq_of_idle (hf : Node.Fires h n n') (hs : rollbackNeeded (n.handler h) = false) :
    n' = n.expire h .ear := by
  obtain ⟨r, t, ht, -, rfl⟩ := hf
  have hself : ((n.expire h .ear).thread h).self = n.handler h := rfl
  cases ht with
  | idle => exact Node.putThread_thread
  | failed hneeded =>
    rw [TimeoutType.needed, hself, hs] at hneeded
    cases hneeded
  | released hneeded =>
    rw [TimeoutType.needed, hself, hs] at hneeded
    cases hneeded

/-- What is left after a reservation was given back was there before, or is cleared. -/
theorem Held.mem_released {s : Held} {a : Nat} {y : Reservation} {e : Nat × Reservation}
    (he : e ∈ (s.released a y).resources.reservations) :
    e ∈ s.resources.reservations ∨ e.2 = y := by
  obtain ⟨resources, pointer⟩ := s
  have hmem := ReservationList.mem_eraseAt he
  cases pointer with
  | null => exact Or.inl hmem
  | own z => exact Or.inl hmem
  | listed b =>
    have hupdate : e ∈ ReservationList.update resources.reservations b fun _ => y := hmem
    rcases ReservationList.mem_update hupdate with hold | ⟨x, -, rfl⟩
    · exact Or.inl hold
    · exact Or.inr rfl

/-- No reservation comes from a timeout. -/
theorem Node.Fires.not_reserves (hf : Node.Fires h n n') (hn : ¬n.Reserves u) : ¬n'.Reserves u := by
  rintro ⟨e, he, hu, hs⟩
  refine hn ⟨e, ?_, hu, hs⟩
  obtain ⟨r, t, ht, -, rfl⟩ := hf
  cases ht with
  | idle => exact he
  | failed => exact he
  | released hneeded hx hy =>
    rename_i a x y
    refine (Held.mem_released he).resolve_right ?_
    rintro rfl
    unfold Reservation.replenish at hy
    split_ifs at hy
    rw [← Option.some.inj hy] at hs
    cases hs

theorem Node.Shut.fires (hs : n.Shut u) (hf : Node.Fires h n n') : n'.Shut u := by
  obtain ⟨i, hi, hclosed⟩ := hs
  refine ⟨i, by rw [hf.shared]; exact hi, ?_⟩
  rcases (hf.handler i).2 with hsame | hsame
  · exact hsame.trans hclosed
  · exact hsame

theorem Node.Fresh.fires (hs : n.Fresh u origin) (hen : (h, .ear) ∈ n.timeouts)
    (hf : Node.Fires h n n') : n'.Fresh u origin where
  unstored := by
    rw [hf.shared]
    exact hs.unstored
  free := hs.free.of_confined (hs.timers h hen).symm hf.confined.1 hf.confined.2
  timers i hi := by
    rw [(hf.handler i).1]
    exact hs.timers i (hf.timers hi)
  untranslated := by
    rw [hf.shared]
    exact hs.untranslated
  origin := by
    rw [hf.shared]
    exact hs.origin

/-- **A timeout leaves a reserved path alone.** -/
theorem Node.Secure.fires (hs : n.Secure u) (hen : (h, .ear) ∈ n.timeouts)
    (hf : Node.Fires h n n') : n'.Secure u := by
  by_cases hT : timestamp (n.handler h).uuid = timestamp u
  · have hstate := hs.timers h hen hT
    rw [hf.eq_of_idle (by simp [rollbackNeeded, hstate])]
    exact ⟨hs.reserves, fun i hi => hs.timers i (List.mem_of_mem_erase hi)⟩
  · refine ⟨?_, ?_⟩
    · obtain ⟨e, he, hu, hreserved⟩ := hs.reserves
      have hsession := ReservationList.mem_session.mpr ⟨he, congrArg timestamp hu⟩
      rw [← ReservationList.session_of_others (Ne.symm hT) hf.confined.2.others] at hsession
      exact ⟨e, (ReservationList.mem_session.mp hsession).1, hu, hreserved⟩
    · intro i hi hiT
      rw [(hf.handler i).1] at hiT
      have hne : i ≠ h := by
        rintro rfl
        exact hT hiT
      rw [hf.handler_ne hne]
      exact hs.timers i (hf.timers hi) hiT

theorem Node.Done.fires {code : ApiResult} (hd : n.Done u code) (hen : (h, .ear) ∈ n.timeouts)
    (hf : Node.Fires h n n') : n'.Done u code := by
  cases code with
  | ok => exact Node.Secure.fires hd hen hf
  | fail => exact hf.not_reserves hd

/-- **A timeout shuts a node that waits**, or is one of another session. -/
theorem Node.Awaits.fires (hs : n.Awaits u origin source i) (hn : n.Inv)
    (hen : (h, .ear) ∈ n.timeouts) (hf : Node.Fires h n n') :
    n'.Awaits u origin source i ∨ n'.Shut u := by
  obtain ⟨a, x, hp, hsole, hx, hu, hpast⟩ := hs.reservation
  by_cases hT : timestamp (n.handler h).uuid = timestamp u
  · obtain rfl := hs.timers h hen hT
    refine Or.inr ⟨h, by rw [hf.shared]; exact hs.stored, ?_⟩
    obtain ⟨r, t, ht, -, rfl⟩ := hf
    rw [Node.handler_putThread_self (n := n.expire h .ear) (hn.stored u h hs.stored).1]
    have hneeded : rollbackNeeded (n.handler h) = true := by simp [rollbackNeeded, hs.state]
    cases ht with
    | idle hidle =>
      have hidle' : rollbackNeeded (n.handler h) = false := hidle
      rw [hneeded] at hidle'
      cases hidle'
    | failed _ he =>
      -- The reservation is there, so it is given back.
      have hreplenish : x.replenish = some { x with state := .cleared } := by
        rw [Reservation.replenish, if_pos (Or.inr (Or.inl hx))]
      have hheld : ((n.expire h .ear).thread h).held = ⟨n.resources, .listed a⟩ := by
        rw [← hp]
        rfl
      rw [hheld, replenishReservation_run hsole hreplenish] at he
      cases he
    | released => rfl
  · have hne : i ≠ h := by
      rintro rfl
      exact hT (by rw [hs.uuid])
    refine Or.inl ?_
    refine
      { stored := by rw [hf.shared]; exact hs.stored
        uuid := by rw [hf.handler_ne hne]; exact hs.uuid
        state := by rw [hf.handler_ne hne]; exact hs.state
        idle := by rw [hf.handler_ne hne]; exact hs.idle
        sourceIdentifier := by rw [hf.handler_ne hne]; exact hs.sourceIdentifier
        reservation := ⟨a, x, by rw [hf.handler_ne hne]; exact hp,
          hsole.of_confined (Ne.symm hT) hf.confined.1 hf.confined.2, hx, hu, hpast⟩
        timers := ?_
        untranslated := by rw [hf.shared]; exact hs.untranslated
        origin := by rw [hf.shared]; exact hs.origin }
    intro j hj hjT
    rw [(hf.handler j).1] at hjT
    exact hs.timers j (hf.timers hj) hjT

end Timers

/-! ## Messages -/

section Messages

variable {env : Env} {n n₁ n' : Node} {h : HandlerId} {u : UUIDv4} {origin : Bool}
  {source source' : NodeIdentifier} {message : Message}

/-- The lookup of a key of the store finds that key. -/
theorem Node.Found.eq_of_stored {id : UUIDv4} (hf : Node.Found id n n₁) (hn : n.Inv)
    (hk : n.store.find? id = some h) : n₁ = n := by
  cases hf with
  | same => rfl
  | rekeyed hk' hts hne =>
    exact absurd
      (hn.unique _ (OrdMap.mem_keys.mpr ⟨_, hk'⟩) _ (OrdMap.mem_keys.mpr ⟨_, hk⟩) hts) hne

/-- A round of the handler that is filed under the UUID of the message. -/
theorem Node.Delivers.round (hd : Node.Delivers env message source h n n') (hn : n.Inv)
    (hk : n.store.find? message.uuid = some h) : ∃ t,
      (operatorCall env h (n.accepting h message source).handlers message).run
        (n.startThread h message source) = (.ok (), t) ∧ n' = Node.putThread t h n := by
  obtain ⟨n₁, t, hh, hrun, rfl⟩ := hd
  cases hh with
  | resumed hf =>
    obtain rfl := hf.eq_of_stored hn hk
    exact ⟨t, hrun, rfl⟩
  | created hfree => exact absurd rfl (hfree _ (OrdMap.mem_keys.mpr ⟨_, hk⟩))

/-- A closed handler takes no messages. -/
theorem Node.Shut.receive (message : Message) (hs : n.Shut message.uuid) (hn : n.Inv)
    (hbid : ∀ v u value, message ≠ .bid v u value)
    (hrun : (perform env (.receive message source)).run n = (.ok (), n')) : n' = n := by
  obtain ⟨h, hk, hclosed⟩ := hs
  cases hn.stepped hrun with
  | dropped hf => exact hf.eq_of_stored hn hk
  | bid hf hk' hstate hrunning hb =>
    obtain ⟨v, u, hm⟩ := hb.value
    exact absurd hm (hbid v u _)
  | round hh hcall =>
    rename_i n₁ i t
    have hopen := hh.resumable
    cases hh with
    | resumed hf hk' =>
      obtain rfl := hf.eq_of_stored hn hk
      obtain rfl : i = h := by
        refine hn.eq_of_stored hk' hk ?_
        rw [(hn.stored _ _ hk').2, (hn.stored _ _ hk).2, handledUuid_timestamp hn]
      rw [hclosed] at hopen
      cases hopen
    | created hfree => exact absurd rfl (hfree _ (OrdMap.mem_keys.mpr ⟨h, hk⟩))

/-- The thread of a new handler that takes its first message. -/
def Node.opening (message : Message) (source : NodeIdentifier) (n : Node) : Thread :=
  ⟨(n.created message.uuid).toShared,
    acceptMessage message source { Handler.new message.uuid with running := true }⟩

/-- The first message of a session. -/
theorem Node.Fresh.receive (message : Message) (hs : n.Fresh message.uuid origin) (hn : n.Inv)
    (hrun : (perform env (.receive message source)).run n = (.ok (), n')) : ∃ peers t,
      (operatorCall env n.handlers.length peers message).run (n.opening message source) =
        (.ok (), t) ∧ n' = Node.putThread t n.handlers.length (n.created message.uuid) := by
  obtain ⟨n₁, t, hh, hcall, rfl⟩ := Node.Delivers.of_free hs.unstored hrun
  cases hh with
  | resumed hf hk =>
    obtain ⟨j, hj, hts⟩ := (hf.renames hn).find?_eq_some hk
    refine absurd ?_ (hs.unstored j (OrdMap.mem_keys.mpr ⟨_, hj⟩))
    rw [hts, handledUuid_timestamp hn]
  | created =>
    rw [Node.startThread, Node.handler_created_self] at hcall
    exact ⟨_, t, hcall, rfl⟩

theorem Node.not_reserves_of_free (hf : n.resources.Free (timestamp u)) : ¬n.Reserves u := by
  rintro ⟨e, he, hu, -⟩
  have hmem := ReservationList.mem_session.mpr ⟨he, congrArg timestamp hu⟩
  rw [hf.session] at hmem
  cases hmem

end Messages

/-! ## The request -/

/-- The port of the nearest connection to a node. -/
def Env.Nearest (env : Env) (node : NodeIdentifier) (target : Bytes) : Prop :=
  ∃ first front, node.1.head? = some first ∧
    (nearestConnections (getConnectionsTo env first)).head? = some front ∧ target = front.1

/-- A node that a request has come to, and what it sends. -/
inductive Node.Asked (env : Env) (u : UUIDv4) (origin : Bool)
    (source : NodeIdentifier) (r : Request)
    (n : Node) : SendingQueue → Prop
  | unreadable (hs : n.Shut u) (hr : ¬n.Reserves u) : Node.Asked env u origin source r n []
  | refused {target : Bytes} (hs : n.Shut u) (hr : ¬n.Reserves u) (ht : env.Nearest source target) :
    Node.Asked env u origin source r n [(newRef u, target, source.2)]
  | accepted {address target : Bytes}
    (hl : listenerAddress env r.listenerLength r.listener = .ok address)
    (hme : iAmListener env r.listenerLength address = true) (hg : n.Secure u)
    (ht : env.Nearest source target) :
    Node.Asked env u origin source r n [(newAcc u, target, source.2)]
  | forwarded {h : HandlerId} {address : Bytes} {b : UInt8} {connection : NodeIdentifier}
    {capabilities : RequestingCapabilities} {x : Reservation}
    (hl : listenerAddress env r.listenerLength r.listener = .ok address)
    (hme : iAmListener env r.listenerLength address = false) (hb : address.head? = some b)
    (hc : nearestConnections (getConnectionsTo env b) = [connection])
    (hx : x = { admittedReservation env u r address capabilities with state := .preReserved })
    (ha : n.Awaits u origin source h) :
    Node.Asked env u origin source r n
      [(.ear headerVersion u (relayedRequest env x), connection.1, connection.2)]

section Requests

variable {env : Env} {n n' : Node} {u : UUIDv4} {origin : Bool} {source : NodeIdentifier}
  {v : UInt8} {r : Request}

/-- **The first node and every other node on the way to the listener**, with one
connection to it. -/
theorem Node.Fresh.ear (hs : n.Fresh u origin) (hn : n.Inv)
    (hone : ∀ address b, listenerAddress env r.listenerLength r.listener = .ok address →
      iAmListener env r.listenerLength address = false → address.head? = some b →
      (nearestConnections (getConnectionsTo env b)).length = 1)
    (hrun : (perform env (.receive (.ear v u r) source)).run n = (.ok (), n')) :
    n'.results = n.results ∧ ∃ sends, n'.sendingMessages = n.sendingMessages ++ sends ∧
      Node.Asked env u origin source r n' sends := by
  obtain ⟨peers, t, hcall, rfl⟩ : ∃ peers t,
      (operatorCall env n.handlers.length peers (.ear v u r)).run (n.opening (.ear v u r) source) =
        (.ok (), t) ∧ n' = Node.putThread t n.handlers.length (n.created u) :=
    Node.Fresh.receive (.ear v u r) hs hn hrun
  have hload : (loadReservation env).run (n.opening (.ear v u r) source) =
      (.ok (), (n.opening (.ear v u r) source).loaded n.resources .null) :=
    loadReservation_free hs.free rfl
  obtain ⟨exit, t₂, hswitch, rfl⟩ := operatorCall_ok hload hcall
  have hstored : (n.created u).store.find? u = some n.handlers.length := by
    rw [Node.created, OrdMap.find?_assign, if_pos rfl]
  have htaken : EarTaken env n.handlers.length r
      ((n.opening (.ear v u r) source).loaded n.resources .null) exit t₂ := by
    refine earBranch_ok hs.free rfl (fun h => by cases h) ?_ hswitch
    intro h hh
    rw [← Option.some.injEq, ← hh]
    exact hstored
  have hlt : n.handlers.length < (n.created u).handlers.length := by simp [Node.created]
  -- The timers of the session are those of the new handler.
  have htimers : ∀ {t : Thread} {i : HandlerId}, (i, .ear) ∈ n.timeouts →
      timestamp ((Node.putThread t n.handlers.length (n.created u)).handler i).uuid = timestamp u →
      i = n.handlers.length := by
    intro t i hi hT
    by_contra hne
    rw [Node.handler_putThread_ne hne, Node.handler_created_ne hne] at hT
    exact hs.timers i hi hT
  have hshut : ∀ {t : Thread}, t.store = (n.created u).store → t.self.state = .closed →
      (Node.putThread t n.handlers.length (n.created u)).Shut u := by
    intro t hstore hstate
    refine ⟨n.handlers.length, (congrArg (·.find? u) hstore).trans hstored, ?_⟩
    rw [Node.handler_putThread_self hlt]
    exact hstate
  cases htaken with
  | unreadable =>
    refine ⟨rfl, [], (List.append_nil _).symm, .unreadable (hshut rfl rfl) ?_⟩
    exact Node.not_reserves_of_free hs.free
  | refused hnear =>
    refine ⟨rfl, _, rfl, .refused (hshut rfl rfl) ?_ hnear⟩
    exact Node.not_reserves_of_free hs.free
  | accepted hl hme hnear =>
    refine ⟨rfl, _, rfl, .accepted hl hme ⟨?_, ?_⟩ hnear⟩
    · exact ⟨_, List.mem_append_right _ (List.mem_singleton_self _), rfl, rfl⟩
    · intro i hi hT
      obtain rfl := htimers hi hT
      rw [Node.handler_putThread_self hlt]
      rfl
  | forwarded hl hme hu ha ht hf =>
    rename_i address capabilities b
    -- with one connection the request is neither stuck nor put up for auction
    have hlength := hone address b hl hme ht
    cases hf with
    | stuck hc =>
      rw [hc] at hlength
      cases hlength
    | auction hc =>
      rw [hlength] at hc
      exact absurd hc (by decide)
    | single hc =>
      refine ⟨rfl, _, rfl, .forwarded (h := n.handlers.length) hl hme ht hc rfl ?_⟩
      have hsole := (hs.free.push (x := { admittedReservation env u r address capabilities with
        state := .preReserved }) rfl).put (y := Reservation.setPastNode
          { admittedReservation env u r address capabilities with state :=
            .preReserved } source) rfl
      refine
        { stored := hstored
          uuid := by rw [Node.handler_putThread_self hlt]; rfl
          state := by rw [Node.handler_putThread_self hlt]; rfl
          idle := by rw [Node.handler_putThread_self hlt]; rfl
          sourceIdentifier := by rw [Node.handler_putThread_self hlt]; rfl
          reservation := ⟨_, _, by rw [Node.handler_putThread_self hlt]; rfl, hsole, rfl, rfl, rfl⟩
          timers := ?_
          untranslated := hs.untranslated
          origin := hs.origin }
      intro i hi hT
      rcases List.mem_append.mp hi with hold | hnew
      · exact htimers hold hT
      · exact (Prod.mk.inj (List.mem_singleton.mp hnew)).1

end Requests

/-! ## The answer -/

/-- The message that answers a request. -/
def answer (u : UUIDv4) : ApiResult → Message
  | .ok => newAcc u
  | .fail => newRef u

/-- What an answer does to a node that waits, by whether it is the origin. -/
inductive Node.Answered (env : Env) (u : UUIDv4) (source : NodeIdentifier) (code : ApiResult)
    (n n' : Node) : Bool → Prop
  | reported (hd : n'.Done u code) (hr : n'.results = n.results ++ [(code, u)])
    (hs : n'.sendingMessages = n.sendingMessages) : Node.Answered env u source code n n' true
  | stuck (hr : n'.results = n.results) (hs : n'.sendingMessages = n.sendingMessages) :
    Node.Answered env u source code n n' false
  | relayed {target : Bytes} (hd : n'.Done u code) (hport : simulatedPort env source = some target)
    (hr : n'.results = n.results)
    (hs : n'.sendingMessages = n.sendingMessages ++ [(answer u code, target, .simulation)]) :
    Node.Answered env u source code n n' false

section Answers

variable {env : Env} {n n' : Node} {h : HandlerId} {u : UUIDv4} {origin : Bool}
  {source source' : NodeIdentifier}

/-- The round of the handler that waits, from the message switch on. -/
theorem Node.Awaits.round (message : Message) (hs : n.Awaits u origin source h) (hn : n.Inv)
    (hm : message.uuid = u)
    (hq : requestingMessage message = false)
    (hrun : (perform env (.receive message source')).run n = (.ok (), n')) :
    ∃ a x peers exit t, n.resources.Sole (timestamp u) a x ∧ x.state = .preReserved ∧ x.uuid = u ∧
      x.pastNode = source ∧
      (messageSwitch env h peers message).run
        ((n.startThread h message source').loaded n.resources (.listed a)) = (.ok exit, t) ∧
      n' = Node.putThread (t.left exit) h n := by
  obtain ⟨a, x, hp, hsole, hx, hu, hpast⟩ := hs.reservation
  have hk : n.store.find? message.uuid = some h := by
    rw [hm]
    exact hs.stored
  have hresumable : (n.handler h).state.resumable = true := by
    rw [hs.state]
    rfl
  obtain ⟨t, hcall, rfl⟩ :=
    (Node.Delivers.of_stored hn hk hq hs.idle hresumable hrun).round hn hk
  have hself : (n.startThread h message source').self.uuid = u :=
    Node.startThread_uuid.trans hs.uuid
  have hload : (loadReservation env).run (n.startThread h message source') =
      (.ok (), (n.startThread h message source').loaded n.resources (.listed a)) := by
    rw [loadReservation_sole (t := n.startThread h message source') hsole
      (congrArg timestamp hself),
      hself]
    -- The reservation has the UUID of the handler already.
    have hsame : x.setUuid u = x := by
      rw [← hu]
      rfl
    rw [hsame]
    exact congrArg (fun R => (_, Thread.loaded R _ _)) hsole.put_self
  obtain ⟨exit, t₂, hswitch, rfl⟩ := operatorCall_ok hload hcall
  exact ⟨a, x, _, exit, t₂, hsole, hx, hu, hpast, hswitch, rfl⟩

/-- A handler that is reserved and has a reservation. -/
theorem Node.Awaits.secure (hs : n.Awaits u origin source h) (hn : n.Inv) {t : Thread} {a : Nat}
    {x : Reservation} (hsole : t.resources.Sole (timestamp u) a x) (hx : x.state = .reserved)
    (hu : x.uuid = u) (hstate : t.self.state = .reserved) (htimers : t.timeouts = n.timeouts) :
    (Node.putThread t h n).Secure u := by
  refine ⟨⟨(a, x), hsole.mem.1, hu, hx⟩, ?_⟩
  intro i hi hT
  have hi' : (i, .ear) ∈ n.timeouts := by
    rw [← htimers]
    exact hi
  by_cases hih : i = h
  · subst hih
    rw [Node.handler_putThread_self (hn.stored u i hs.stored).1]
    exact hstate
  · rw [Node.handler_putThread_ne hih] at hT
    exact absurd (hs.timers i hi' hT) hih

/-- **An ACC at a node that waits** is reported at the origin, and goes to the past
node elsewhere. -/
theorem Node.Awaits.acc (hs : n.Awaits u origin source h) (hn : n.Inv)
    (hrun : (perform env (.receive (newAcc u) source')).run n = (.ok (), n')) :
    Node.Answered env u source .ok n n' origin := by
  obtain ⟨a, x, peers, exit, t, hsole, hx, hu, rfl, hswitch, rfl⟩ :=
    hs.round (newAcc u) hn rfl rfl hrun
  set t₁ := (n.startThread h (newAcc u) source').loaded n.resources (.listed a)
  have huuid : t₁.self.uuid = u := hs.uuid
  have hstate : t₁.self.state ≠ .reserved := by
    have hpre : t₁.self.state = .preReserved := hs.state
    rw [hpre]
    nofun
  have htable : t₁.translationTable.find? t₁.self.uuid = none := by
    rw [huuid]
    exact hs.untranslated
  have horigin : t₁.originSet.contains t₁.self.uuid = origin := by
    rw [huuid]
    exact hs.origin
  have hmarked : (n.resources.put a { x with state := .reserved }).Sole (timestamp u) a
      { x with state := .reserved } := hsole.put hsole.mem.2
  have hbranch : (accBranch env).run t₁ = (.ok exit, t) := hswitch
  rw [accBranch, bind_ok (run_get _), if_neg hstate,
    bind_ok (run_markReservation hsole rfl (markItem_preReserved hx))] at hbranch
  simp only [htable] at hbranch
  cases origin with
  | true =>
    rw [if_pos horigin] at hbranch
    obtain ⟨⟨⟩, t₂, hresult, hbranch⟩ := bind_eq_ok.mp hbranch
    cases hresult
    obtain ⟨⟨⟩, t₃, hnext, hend⟩ := bind_eq_ok.mp hbranch
    obtain ⟨-, rfl⟩ := addNextNode_ok (T := timestamp u) (a := a) hmarked rfl hnext
    cases hend
    refine .reported (hs.secure hn (hmarked.put hmarked.mem.2) rfl hu rfl rfl) ?_ rfl
    exact congrArg (fun v => n.results ++ [(ApiResult.ok, v)]) huuid
  | false =>
    rw [if_neg (Bool.eq_false_iff.mp horigin)] at hbranch
    obtain ⟨rfl, ⟨target, hport, hprint, -⟩ | ⟨-, rfl⟩⟩ := accRelay_ok hmarked rfl hbranch
    · rw [accRelay_run hmarked rfl hport hprint] at hbranch
      cases hbranch
      refine .relayed (hs.secure hn (hmarked.put hmarked.mem.2) rfl hu rfl rfl) hport rfl ?_
      exact congrArg (fun v => n.sendingMessages ++ [(newAcc v, target, .simulation)]) huuid
    · exact .stuck rfl rfl

/-- **A node that waits does not survive a REF**: (F.1) erases its entry under the loop. -/
theorem Node.Awaits.ref (hs : n.Awaits u origin source h) (hn : n.Inv) :
    (perform env (.receive (newRef u) source')).run n ≠ (.ok (), n') := by
  intro hrun
  obtain ⟨a, x, peers, exit, t, hsole, hx, hu, rfl, hswitch, rfl⟩ :=
    hs.round (newRef u) hn rfl rfl hrun
  set t₁ := (n.startThread h (newRef u) source').loaded n.resources (.listed a)
  have hstored : t₁.store.find? t₁.self.uuid = some h := by
    rw [show t₁.self.uuid = u from hs.uuid]
    exact hs.stored
  have hbranch : (refBranch env h peers).run t₁ = (.ok exit, t) := hswitch
  rw [refBranch, bind_error (refErase_faults hstored rfl hsole.lookup hx)] at hbranch
  cases hbranch

theorem Node.Awaits.answered {code : ApiResult} (hs : n.Awaits u origin source h) (hn : n.Inv)
    (hrun : (perform env (.receive (answer u code) source')).run n = (.ok (), n')) :
    code = .ok ∧ Node.Answered env u source .ok n n' origin := by
  cases code with
  | ok => exact ⟨rfl, hs.acc hn hrun⟩
  | fail => exact absurd hrun (hs.ref hn)

/-- A REF that comes first has no source to go to. -/
theorem Node.Fresh.ref (hs : n.Fresh u false) (hn : n.Inv) :
    (perform env (.receive (newRef u) source')).run n ≠ (.ok (), n') := by
  intro hrun
  obtain ⟨peers, t, hcall, -⟩ := Node.Fresh.receive (newRef u) hs hn hrun
  have hload : (loadReservation env).run (n.opening (newRef u) source') =
      (.ok (), (n.opening (newRef u) source').loaded n.resources .null) :=
    loadReservation_free hs.free rfl
  obtain ⟨exit, t₂, hswitch, -⟩ := operatorCall_ok hload hcall
  set t₁ := (n.opening (newRef u) source').loaded n.resources .null
  have hkept : (refErase n.handlers.length peers).run t₁ = (.ok (), t₁) := by
    refine refErase_kept ?_ (Or.inl rfl)
    intro h hh
    have hcreated : (n.created u).store.find? u = some h := hh
    rw [Node.created, OrdMap.find?_assign, if_pos rfl] at hcreated
    exact (Option.some.inj hcreated).symm
  have htable : t₁.translationTable.find? t₁.self.uuid = none := hs.untranslated
  have horigin : ¬t₁.originSet.contains t₁.self.uuid = true := by
    rw [Bool.not_eq_true]
    exact hs.origin
  have hbranch : (refBranch env n.handlers.length peers).run t₁ = (.ok exit, t₂) := hswitch
  rw [refBranch, bind_ok hkept, refReply, bind_ok (run_get _)] at hbranch
  simp only [htable] at hbranch
  rw [if_neg horigin, refRelay, bind_ok (run_get _)] at hbranch
  obtain ⟨port, t₃, hport, -⟩ := bind_eq_ok.mp hbranch
  have hsource : t₁.self.sourceIdentifier = ([], .simulation) := rfl
  rw [sourcePort, bind_ok (run_get _), hsource, if_pos rfl] at hport
  obtain ⟨first, t₄, hfirst, -⟩ := bind_eq_ok.mp hport
  cases (sourceFirst_ok hfirst).2

end Answers

end Rankd

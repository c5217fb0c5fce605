import Rankd.Node.Chain
import Rankd.Node.ReplyRun
import Rankd.Properties.Listener

/-!
# The end of a reserved path

A REP takes the reservations of a path back: each node passes it on and gives its reservation back
when its REP timeout fires. The listener starts no timer. It answers with a REF and keeps its
reservation, in every run (`replenish_listener`), so a path is never released as a whole.
-/

namespace Rankd

open Infra Infra.Prog

/-! ## What a replenishment is expected to do -/

/-- The node has a reservation of the session with timestamp `T`, as
`get_reservation_for` sees it. -/
def Node.Retains (T : Nat) (n : Node) : Prop :=
  ∃ e ∈ n.resources.reservations, timestamp e.2.uuid = T

/-- The origin issues the REP for a path on which every node holds a RESERVED reservation. -/
structure Replenishing {k : Nat} (c : Chain k) (u : UUIDv4) (b : UInt8) (net : ChainNet k) :
    Prop where
  reachable : ∀ i, (net.party i).Reachable
  reserved : ∀ i, (net.party i).Reserves u
  listener : ∀ i, ∀ e ∈ (net.party i).resources.reservations, timestamp e.2.uuid = timestamp u →
    e.2.listener.toList.headD 0 = b
  unstarted : ∀ i h, ¬(Action.timeout h .rep).enabled (net.party i)
  issued : ∃ source v reserved listener, listener.toList.headD 0 = b ∧
    net.flight = [(0, source, .rep v u 0 reserved listener)]
  identity : ∀ env, c.site (Fin.last k) env → env.identity b = true

/-- No message is in flight and every REP timeout that was started has fired. -/
structure Settles {k : Nat} (net : ChainNet k) : Prop where
  flight : net.flight = []
  fired : ∀ i h, ¬(Action.timeout h .rep).enabled (net.party i)

/-- No node of the path has a reservation for the UUID. -/
def Released {k : Nat} (u : UUIDv4) (net : ChainNet k) : Prop :=
  ∀ i, ¬(net.party i).Retains (timestamp u)

/-! ## The messages of a replenishment -/

/-- A REF of the session, or a REP of the session for the simulated listener `b`. -/
inductive Message.Releases (T : Nat) (b : UInt8) : Message → Prop
  | ref {v : UInt8} {u : UUIDv4} (hT : timestamp u = T) : Message.Releases T b (.ref v u)
  | rep {v reserved : UInt8} {u : UUIDv4} {listener : ListenerArray} (hT : timestamp u = T)
    (hl : listener.toList.headD 0 = b) : Message.Releases T b (.rep v u 0 reserved listener)

section Rounds

variable {T a : Nat} {b : UInt8} {env : Env} {me : HandlerId} {peers : List Handler}
  {message : Message} {t t' : Thread} {R : Resources} {x : Reservation} {exit : Exit}

theorem Message.Releases.timestamp_eq (h : message.Releases T b) : timestamp message.uuid = T := by
  cases h with
  | ref hT => exact hT
  | rep hT => exact hT

/-- All reservations of the list are for the listener `b`, if they are of the session. -/
def Resources.Listens (T : Nat) (b : UInt8) (R : Resources) : Prop :=
  ∀ e ∈ R.reservations, e.2.Listens T (some b)

theorem Resources.Listens.put (h : R.Listens T b) (hx : x.Listens T (some b)) :
    (R.put a x).Listens T b := by
  intro e (he : e ∈ ReservationList.update R.reservations a fun _ => x)
  rcases ReservationList.mem_update he with he | ⟨y, -, rfl⟩
  · exact h e he
  · exact hx

/-- What a round of the replenishment leaves of the session. -/
structure Thread.Releasing (env : Env) (T : Nat) (b : UInt8) (t t' : Thread) : Prop where
  resources : t'.resources = t.resources
  sent : ∃ sends, t'.sendingMessages = t.sendingMessages ++ sends ∧
    ∀ e ∈ sends, e.1.Releases T b
  timeouts : env.identity b = true → t'.timeouts = t.timeouts

theorem refBranch_releases (hT : timestamp t.self.uuid = T)
    (htable : ∀ k v, t.translationTable.find? k = some v → timestamp k = timestamp v)
    (hrun : (refBranch env me peers).run t = (.ok exit, t')) : t.Releasing env T b t' := by
  rw [refBranch] at hrun
  obtain ⟨⟨⟩, t₁, herase, hreply⟩ := bind_eq_ok.mp hrun
  have hsame : t₁.self = t.self ∧ t₁.resources = t.resources ∧ t₁.timeouts = t.timeouts ∧
      t₁.sendingMessages = t.sendingMessages ∧ t₁.translationTable = t.translationTable := by
    obtain ⟨store, rfl⟩ := refErase_ok herase
    exact ⟨rfl, rfl, rfl, rfl, rfl⟩
  obtain ⟨hself, hresources, htimeouts, hsending, htable₁⟩ := hsame
  obtain ⟨-, hans⟩ := refReply_ok hreply
  obtain ⟨htimeouts', sends, hsent, hall⟩ := refReply_sends hreply
  refine ⟨hans.resources.trans hresources, ⟨sends, by rw [hsent, hsending], ?_⟩,
    fun _ => htimeouts'.trans htimeouts⟩
  intro e he
  obtain ⟨u, hu, hm⟩ := hall e he
  rw [hm]
  refine .ref ?_
  rw [hself, htable₁] at hu
  rcases hu with rfl | hu
  · exact hT
  · rw [← htable _ _ hu, hT]

theorem repBranch_releases {listener : ListenerArray} (hT : timestamp t.self.uuid = T)
    (hl : listener.toList.headD 0 = b)
    (hx : ∀ x, t.held.read = .ok x → x.Listens T (some b) ∧ timestamp x.uuid = T)
    (hrun : (repBranch env me 0 listener).run t = (.ok exit, t')) : t.Releasing env T b t' := by
  obtain ⟨-, address, sends, haddress, ⟨-, hall, rfl⟩ | ⟨hme, -, hall, rfl⟩⟩ := repBranch_ok hrun
  · refine ⟨rfl, ⟨sends, rfl, ?_⟩, fun _ => rfl⟩
    intro e he
    rw [hall e he]
    exact .ref hT
  · refine ⟨rfl, ⟨sends, rfl, ?_⟩, ?_⟩
    · intro e he
      obtain ⟨x, reserved, hread, hm⟩ := hall e he
      obtain ⟨hlistens, hTx⟩ := hx x hread
      rw [hm, hlistens.code]
      exact .rep hT (hlistens.address b rfl hTx)
    · -- The listener does not pass the REP on.
      intro hb
      rw [listenerAddress_zero] at haddress
      cases haddress
      obtain ⟨⟨bytes⟩, hlen⟩ := listener
      rcases bytes with _ | ⟨c, rest⟩
      · cases hlen
      · obtain rfl : c = b := hl
        have hidentity : env.identity c = false := hme
        rw [hb] at hidentity
        cases hidentity

/-- The reservation that a round finds stays in its session. -/
theorem Resources.exists_put (hT : timestamp x.uuid = T)
    (h : ∃ e ∈ R.reservations, timestamp e.2.uuid = T) :
    ∃ e ∈ (R.put a x).reservations, timestamp e.2.uuid = T := by
  obtain ⟨e, he, heT⟩ := h
  refine ⟨_, List.mem_map_of_mem he, ?_⟩
  split_ifs
  · exact hT
  · exact heT

/-- A round begins with a reservation of its session, and leaves the others alone. -/
theorem loadReservation_listens (env : Env) (hT : timestamp t.self.uuid = T)
    (hv : t.resources.Valid) (hl : t.resources.Listens T b) :
    ∃ R p, (loadReservation env).run t = (.ok (), t.loaded R p) ∧ R.Listens T b ∧
      ((∃ e ∈ t.resources.reservations, timestamp e.2.uuid = T) →
        ∃ e ∈ R.reservations, timestamp e.2.uuid = T) ∧
      ∀ x, (t.loaded R p).held.read = .ok x → x.Listens T (some b) ∧ timestamp x.uuid = T := by
  rcases hf : t.resources.reservations.find?
    (fun e => isSameTimestamp env.ulid e.2.uuid t.self.uuid) with _ | ⟨a, x⟩
  · refine ⟨t.resources, .null, loadReservation_none hf, hl, fun h => h, ?_⟩
    intro x hread
    cases hread
  · have hmem := List.mem_of_find?_eq_some hf
    have hlookup := ReservationList.lookup_of_mem hv.nodup hmem
    have hsame := List.find?_some hf
    have hx : (x.setUuid t.self.uuid).Listens T (some b) := by
      refine Reservation.Listens.edited (.setUuid ?_) (hl _ hmem)
      exact (isSameTimestamp_iff.mp hsame).symm
    refine ⟨_, _, loadReservation_some hv hf, hl.put hx, Resources.exists_put hT, ?_⟩
    intro y hread
    have hy := ReservationList.lookup_update (f := fun _ => x.setUuid t.self.uuid) hlookup
    simp only [Thread.held, Thread.loaded, Held.read, Resources.put, hy] at hread
    cases hread
    exact ⟨hx, hT⟩

/-- **A round of the replenishment**, from its start to its end. -/
theorem operatorCall_releases (hT : timestamp t.self.uuid = T) (hv : t.resources.Valid)
    (htable : ∀ k v, t.translationTable.find? k = some v → timestamp k = timestamp v)
    (hl : t.resources.Listens T b) (hm : message.Releases T b)
    (hrun : (operatorCall env me peers message).run t = (.ok (), t')) :
    t'.resources.Listens T b ∧
      ((∃ e ∈ t.resources.reservations, timestamp e.2.uuid = T) →
        ∃ e ∈ t'.resources.reservations, timestamp e.2.uuid = T) ∧
      (∃ sends, t'.sendingMessages = t.sendingMessages ++ sends ∧
        ∀ e ∈ sends, e.1.Releases T b) ∧
      (env.identity b = true → t'.timeouts = t.timeouts) := by
  obtain ⟨R, p, hload, hR, hkept, hread⟩ := loadReservation_listens env hT hv hl
  obtain ⟨exit, t₂, hswitch, rfl⟩ := operatorCall_ok hload hrun
  have hround : (t.loaded R p).Releasing env T b t₂ := by
    cases hm with
    | ref => exact refBranch_releases (t := t.loaded R p) hT htable hswitch
    | rep hu hlistener => exact repBranch_releases (t := t.loaded R p) hT hlistener hread hswitch
  obtain ⟨hres, hsent, htimeouts⟩ := hround
  have hleft : (t₂.left exit).resources = R ∧ (t₂.left exit).sendingMessages = t₂.sendingMessages ∧
      (t₂.left exit).timeouts = t₂.timeouts := by
    cases exit <;> exact ⟨hres, rfl, rfl⟩
  obtain ⟨hR', hsent', htimeouts'⟩ := hleft
  rw [hR', hsent', htimeouts']
  exact ⟨hR, hkept, hsent, htimeouts⟩

end Rounds

/-! ## The nodes of a replenishment -/

/-- A node whose reservations of the session are for the listener `b`. -/
structure Node.Tended (T : Nat) (b : UInt8) (n : Node) : Prop where
  reachable : n.Reachable
  listens : n.resources.Listens T b

/-- A node that has a reservation of the session, and no timer to take it. -/
structure Node.Keeps (T : Nat) (n : Node) : Prop where
  retains : n.Retains T
  unstarted : ∀ h, ¬(Action.timeout h .rep).enabled n

section Nodes

variable {T : Nat} {b : UInt8} {env : Env} {message : Message} {source : NodeIdentifier}
  {n n' : Node} {h : HandlerId}

/-- **A REF or REP of the session**, as the node takes it. -/
theorem Node.Tended.receive (ht : n.Tended T b) (hm : message.Releases T b)
    (hrun : (perform env (.receive message source)).run n = (.ok (), n')) :
    n'.Tended T b ∧ (∀ e ∈ n.sentUntil n', e.1.Releases T b) ∧
      (env.identity b = true → n.Keeps T → n'.Keeps T) := by
  have hn := ht.reachable.inv
  have hreach : n'.Reachable := ht.reachable.tail ⟨env, .receive message source, trivial, hrun⟩
  have hquiet : ∀ {n₁ : Node}, Node.Found message.uuid n n₁ → n₁.resources = n.resources ∧
      n₁.timeouts = n.timeouts ∧ n.sentUntil n₁ = [] := by
    intro n₁ hf
    refine ⟨hf.resources, hf.timeouts, Node.sentUntil_eq ?_⟩
    rw [hf.sendingMessages, List.append_nil]
  have hstepped := hn.stepped hrun
  generalize hr : (.ok () : Except Fault Unit) = r at hstepped
  generalize haction : Action.receive message source = action at hstepped
  cases hstepped with
  | dropped hf =>
    cases haction
    obtain ⟨hres, htime, hsent⟩ := hquiet hf
    refine ⟨⟨hreach, ?_⟩, ?_, ?_⟩
    · rw [hres]
      exact ht.listens
    · rw [hsent]
      nofun
    · intro _ hk
      refine ⟨?_, ?_⟩
      · unfold Node.Retains
        rw [hres]
        exact hk.retains
      · intro h
        unfold Action.enabled
        rw [htime]
        exact hk.unstarted h
  | stopped => cases hr
  | bid hf hk hs hrunning hb =>
    cases haction
    -- a BID releases nothing
    obtain ⟨v, u, rfl⟩ := hb.value
    cases hm
  | round hh hcall =>
    rename_i n₁ h t
    cases haction
    cases hr
    have hinv := hh.inv hn
    have hT : timestamp (n₁.startThread h message source).self.uuid = T := by
      rw [Node.startThread_uuid, hh.timestamp_eq hn]
      exact hm.timestamp_eq
    have hlistens : (n₁.startThread h message source).resources.Listens T b := by
      show n₁.resources.Listens T b
      rw [hh.resources]
      exact ht.listens
    obtain ⟨hl, hkept, ⟨sends, hsent, hall⟩, htime⟩ :=
      operatorCall_releases hT hinv.valid hinv.table hlistens hm hcall
    have hsends : n.sentUntil (Node.putThread t h n₁) = sends := by
      refine Node.sentUntil_eq ?_
      rw [← hh.sendingMessages]
      exact hsent
    refine ⟨⟨hreach, hl⟩, ?_, ?_⟩
    · rw [hsends]
      exact hall
    · intro hb hk
      refine ⟨hkept ?_, ?_⟩
      · show ∃ e ∈ n₁.resources.reservations, timestamp e.2.uuid = T
        rw [hh.resources]
        exact hk.retains
      · intro i hi
        refine hk.unstarted i ?_
        have htimeouts : (Node.putThread t h n₁).timeouts = n.timeouts :=
          (htime hb).trans hh.timeouts
        unfold Action.enabled at hi ⊢
        rw [← htimeouts]
        exact hi
  | woken => cases haction
  | fired => cases haction
  | marked => cases haction

/-- A timeout takes reservations and changes the one that it takes. -/
theorem Thread.TimedOut.listens {type : TimeoutType} {r : Except Fault Unit} {t t' : Thread}
    (hl : t.resources.Listens T b) (ht : t.TimedOut type r t') : t'.resources.Listens T b := by
  cases ht with
  | idle => exact hl
  | failed => exact hl
  | released hn hx hy ha =>
    rename_i a x y
    intro e (he : e ∈ (t.held.released a y).resources.reservations)
    have hmem := ReservationList.mem_eraseAt he
    rcases hp : t.self.reservation with _ | c | z
    · simp only [Thread.held, hp, Held.write] at hmem
      exact hl e hmem
    · -- The reservation that is changed is one of the list.
      simp only [Thread.held, hp, Held.write] at hmem
      rcases ReservationList.mem_update hmem with hold | ⟨w, hw, rfl⟩
      · exact hl e hold
      · simp only [Thread.held, hp, Held.read] at hx
        rcases hlookup : ReservationList.lookup t.resources.reservations c with _ | v
        · rw [hlookup] at hx
          cases hx
        · rw [hlookup] at hx
          cases hx
          exact Reservation.Listens.edited (.replenish hy)
            (hl _ (ReservationList.lookup_mem hlookup))
    · simp only [Thread.held, hp, Held.write] at hmem
      exact hl e hmem

/-- **A timeout of a node** that replenishes. -/
theorem Node.Tended.timeout {type : TimeoutType} (ht : n.Tended T b)
    (hen : (Action.timeout h type).enabled n)
    (hrun : (perform env (.timeout h type)).run n = (.ok (), n')) :
    n'.Tended T b ∧ n.sentUntil n' = [] := by
  have hn := ht.reachable.inv
  have hreach : n'.Reachable := ht.reachable.tail ⟨env, .timeout h type, hen, hrun⟩
  have hstepped := hn.stepped hrun
  generalize haction : Action.timeout h type = action at hstepped
  cases hstepped with
  | dropped => cases haction
  | bid => cases haction
  | round => cases haction
  | woken => cases haction
  | fired hcall =>
    cases haction
    have htimed := onTimeout_timedOut hcall
    refine ⟨⟨hreach, htimed.listens ht.listens⟩, Node.sentUntil_eq ?_⟩
    cases htimed with
    | idle => exact (List.append_nil _).symm
    | failed => exact (List.append_nil _).symm
    | released => exact (List.append_nil _).symm
  | marked => cases haction

end Nodes

/-! ## Runs -/

section Runs

variable {k : Nat} {c : Chain k} {u : UUIDv4} {b : UInt8} {net net' : ChainNet k}

/-- The initial network: each node has reservations for the listener, and the
listener keeps its one. -/
theorem Replenishing.holds (h : Replenishing c u b net) :
    net.Holds (fun i n => n.Tended (timestamp u) b ∧
        (i = Fin.last k → n.Keeps (timestamp u)))
      (fun _ m => m.2.Releases (timestamp u) b) := by
  constructor
  · intro i
    refine ⟨⟨h.reachable i, ?_⟩, ?_⟩
    · intro e he
      refine ⟨((Node.Reachable.listens (h.reachable i) 0 0).session.listed e he).code, ?_⟩
      rintro _ ⟨⟩ hT
      exact h.listener i e he hT
    · rintro rfl
      obtain ⟨e, he, hu, -⟩ := h.reserved (Fin.last k)
      exact ⟨⟨e, he, by rw [hu]⟩, h.unstarted (Fin.last k)⟩
  · obtain ⟨source, v, reserved, listener, hl, hflight⟩ := h.issued
    rw [hflight]
    exact List.forall_mem_singleton.mpr (.rep rfl hl)

/-- **The listener keeps its reservation**, in every run of REPs, REFs and REP timeouts. -/
theorem Replenishing.listener_keeps (h : Replenishing c u b net)
    (hrun : Net.Run (c.protocol .rep) net net') :
    (net'.party (Fin.last k)).Retains (timestamp u) := by
  have hsent : ∀ {i : Fin (k + 1)} {sends : SendingQueue},
      (∀ e ∈ sends, e.1.Releases (timestamp u) b) →
        ∀ e ∈ c.arrivals i sends, e.2.2.Releases (timestamp u) b := by
    intro i sends hall e he
    obtain ⟨s, hs, hm⟩ := Chain.mem_arrivals he
    rw [hm]
    exact hall s hs
  have hholds := Net.Run.holds (P := c.protocol .rep) ?_ ?_ h.holds hrun
  · exact ((hholds.party (Fin.last k)).2 rfl).retains
  · rintro i m n n' sends ⟨ht, hk⟩ hm ⟨env, hsite, hreceive, rfl⟩
    obtain ⟨ht', hall, hkeeps⟩ := ht.receive hm hreceive
    refine ⟨⟨ht', ?_⟩, hsent hall⟩
    rintro rfl
    exact hkeeps (h.identity env hsite) (hk rfl)
  · rintro i n n' sends ⟨ht, hk⟩ ⟨env, handler, -, hen, htimeout, rfl⟩
    obtain ⟨ht', hnone⟩ := ht.timeout hen htimeout
    refine ⟨⟨ht', ?_⟩, ?_⟩
    · -- The listener has no REP timer that could fire.
      rintro rfl
      exact absurd hen ((hk rfl).unstarted handler)
    · rw [hnone, Chain.arrivals_nil]
      nofun

/--
**A path is never released as a whole**: whatever the order of messages and timeouts, the listener
still has its reservation.
-/
theorem not_released (h : Replenishing c u b net) (hrun : Net.Run (c.protocol .rep) net net') :
    ¬Released u net' := by
  intro hreleased
  exact hreleased (Fin.last k) (h.listener_keeps hrun)

end Runs

/-! ## A path of two nodes -/

/-- The origin has the identity 5 and the listener 9. -/
def sampleSite (i : Fin 2) : Env :=
  { Env.sample with
    connections := fun target => [(1, target)]
    identity := fun address => i = 1 && address = 9
    topology := [(if i = 0 then 9 else 5, 0)] }

def Chain.sample : Chain 1 where
  site i env := env = sampleSite i
  route _ target _ :=
    if target = [9] then some (1, [5], .simulation)
    else if target = [5] then some (0, [9], .simulation)
    else none

/-- The origin with the path reserved, and the listener. -/
def sampleParty (i : Fin 2) : Node :=
  (performAll (sampleSite i)
    (if i = 0 then
      [.markOrigin (sampleUuid 7 0) 0,
        .receive (.ear 1 (sampleUuid 7 0) (.sample 9)) ([5], .simulation),
        .receive (.acc 1 (sampleUuid 7 0)) ([9], .simulation)]
    else [.receive (.ear 1 (sampleUuid 7 0) (.sample 9)) ([5], .simulation)])
    .initial).getD .initial

/-- The REP as it comes to both nodes. -/
def sampleParcel : Parcel :=
  (([5], .simulation), .rep 1 (sampleUuid 7 0) 0 0 (Request.sample 9).listener)

/-- The REP at the origin. -/
def sampleRep : ChainNet 1 where
  party := sampleParty
  flight := [(0, sampleParcel)]

/-- The message in flight is taken. -/
def Chain.taken {k : Nat} (c : Chain k) (env : Env) (i : Fin (k + 1)) (parcel : Parcel)
    (net : ChainNet k) : ChainNet k :=
  let n' := ((perform env (.receive parcel.2 parcel.1)).run (net.party i)).2
  net.goes i n' (c.arrivals i ((net.party i).sentUntil n'))

theorem Chain.step_taken {k : Nat} {c : Chain k} {type : TimeoutType} {env : Env} {i : Fin (k + 1)}
    {parcel : Parcel} {net : ChainNet k} (hf : net.flight = [(i, parcel)]) (hsite : c.site i env)
    (hok : ((perform env (.receive parcel.2 parcel.1)).run (net.party i)).1 = .ok ()) :
    Net.Step (c.protocol type) net (c.taken env i parcel net) :=
  Net.Step.take (show net.flight = [] ++ (i, parcel) :: [] from hf)
    ⟨env, hsite, Prod.ext hok rfl, rfl⟩

/-- A REP timeout of a handler fires. -/
def Chain.fired {k : Nat} (c : Chain k) (env : Env) (i : Fin (k + 1)) (h : HandlerId)
    (net : ChainNet k) : ChainNet k :=
  let n' := ((perform env (.timeout h .rep)).run (net.party i)).2
  net.goes i n' (net.flight ++ c.arrivals i ((net.party i).sentUntil n'))

theorem Chain.step_fired {k : Nat} {c : Chain k} {env : Env} {i : Fin (k + 1)} {h : HandlerId}
    {net : ChainNet k} (hsite : c.site i env) (hen : (Action.timeout h .rep).enabled (net.party i))
    (hok : ((perform env (.timeout h .rep)).run (net.party i)).1 = .ok ()) :
    Net.Step (c.protocol .rep) net (c.fired env i h net) :=
  Net.Step.act ⟨env, h, hsite, hen, Prod.ext hok rfl, rfl⟩

/-- The origin and the listener have taken the REP. -/
def sampleRefused : ChainNet 1 :=
  Chain.sample.taken (sampleSite 1) 1 sampleParcel
    (Chain.sample.taken (sampleSite 0) 0 sampleParcel sampleRep)

/-- The timeout fires before the REF of the listener comes. -/
def sampleSettled : ChainNet 1 :=
  Chain.sample.taken (sampleSite 0) 0 (([9], .simulation), newRef (sampleUuid 7 0))
    (Chain.sample.fired (sampleSite 0) 0 0 sampleRefused)

/-- A request on its way to the origin of a path of two nodes. -/
def sampleAdmission : ChainNet 1 where
  party i := { Node.initial with
    originSet := if i = 0 then (∅ : OrdMap UUIDv4 UInt8).insertNew (sampleUuid 7 0) 0 else ∅ }
  flight := [(0, ([5], .simulation), .ear 1 (sampleUuid 7 0) (.sample 9))]

/-- The request as the origin sends it on. -/
def sampleAdmissionRelayed : ChainNet 1 :=
  Chain.sample.taken (sampleSite 0) 0 (([5], .simulation), .ear 1 (sampleUuid 7 0) (.sample 9))
    sampleAdmission

/-- The ACC of the listener. -/
def sampleAdmissionAnswered : ChainNet 1 :=
  Chain.sample.taken (sampleSite 1) 1 (([5], .simulation), .ear headerVersion (sampleUuid 7 0)
    (relayedRequest (sampleSite 0) ((Reservation.new default 1).markListener [9])))
    sampleAdmissionRelayed

/-- The ACC has come to the origin. -/
def sampleAdmissionReported : ChainNet 1 :=
  Chain.sample.taken (sampleSite 0) 0 (([9], .simulation), newAcc (sampleUuid 7 0))
    sampleAdmissionAnswered

theorem sampleParty_reachable (i : Fin 2) : (sampleParty i).Reachable := by
  have hrun : ∀ actions : List Action,
      (performAll (sampleSite i) actions .initial).isSome = true →
        ((performAll (sampleSite i) actions .initial).getD .initial).Reachable := by
    intro actions hsome
    obtain ⟨n, hn⟩ := Option.isSome_iff_exists.mp hsome
    rw [hn, Option.getD_some]
    exact performAll_steps hn
  refine hrun _ ?_
  match i with
  | 0 => decide +kernel
  | 1 => decide +kernel

theorem sampleRep_replenishing : Replenishing Chain.sample (sampleUuid 7 0) 9 sampleRep where
  reachable := sampleParty_reachable
  reserved := by
    have hreserved : ∀ i, ((sampleParty i).resources.reservations.any fun e =>
        e.2.uuid = sampleUuid 7 0 && e.2.state = .reserved) = true := by decide +kernel
    intro i
    obtain ⟨e, he, hstate⟩ := List.any_eq_true.mp (hreserved i)
    rw [Bool.and_eq_true, decide_eq_true_eq, decide_eq_true_eq] at hstate
    exact ⟨e, he, hstate⟩
  listener := by
    have hlisteners : ∀ i, ∀ e ∈ (sampleParty i).resources.reservations,
        e.2.listener.toList.headD 0 = 9 := by decide +kernel
    intro i e he _
    exact hlisteners i e he
  unstarted := by
    have hnone : ∀ i, ∀ e ∈ (sampleParty i).timeouts, e.2 ≠ .rep := by decide +kernel
    intro i h hen
    exact hnone i _ hen rfl
  issued := ⟨_, 1, 0, (Request.sample 9).listener, by decide, rfl⟩
  identity := by
    rintro env rfl
    decide

/-- The path settles. -/
theorem sampleRep_settles : Net.Run (Chain.sample.protocol .rep) sampleRep sampleSettled ∧
    Settles sampleSettled := by
  constructor
  · have hrep : Net.Step (Chain.sample.protocol .rep) sampleRep
        (Chain.sample.taken (sampleSite 0) 0 sampleParcel sampleRep) :=
      Chain.step_taken rfl rfl (by decide +kernel)
    have href : Net.Step (Chain.sample.protocol .rep)
        (Chain.sample.taken (sampleSite 0) 0 sampleParcel sampleRep) sampleRefused :=
      Chain.step_taken (by decide +kernel) rfl (by decide +kernel)
    have hfired : Net.Step (Chain.sample.protocol .rep) sampleRefused
        (Chain.sample.fired (sampleSite 0) 0 0 sampleRefused) :=
      Chain.step_fired rfl (by decide +kernel) (by decide +kernel)
    have hlast : Net.Step (Chain.sample.protocol .rep)
        (Chain.sample.fired (sampleSite 0) 0 0 sampleRefused) sampleSettled :=
      Chain.step_taken (by decide +kernel) rfl (by decide +kernel)
    exact .tail (.tail (.tail (.single hrep) href) hfired) hlast
  · have hnone : ∀ i, ∀ e ∈ (sampleSettled.party i).timeouts, e.2 ≠ .rep := by decide +kernel
    refine ⟨by decide +kernel, ?_⟩
    intro i h hen
    exact hnone i _ hen rfl

/-- The listener of a path of two nodes. -/
theorem not_released_two : ¬Released (sampleUuid 7 0) sampleSettled :=
  not_released sampleRep_replenishing sampleRep_settles.1

/-- A REP does not release a path: the listener has its reservation left. -/
theorem released_never : ¬∀ (k : Nat) (c : Chain k) (u : UUIDv4) (b : UInt8)
    (net net' : ChainNet k),
    Replenishing c u b net → Net.Run (c.protocol .rep) net net' → Settles net' →
      Released u net' := by
  intro hall
  have hreleased := hall 1 Chain.sample (sampleUuid 7 0) 9 sampleRep sampleSettled
    sampleRep_replenishing sampleRep_settles.1 sampleRep_settles.2
  exact hreleased 1 (sampleRep_replenishing.listener_keeps sampleRep_settles.1)

end Rankd

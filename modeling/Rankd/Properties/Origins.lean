import Rankd.Infra.Origin
import Rankd.Node.Marking
import Rankd.Properties.Causality

/-!
# The way of a grant

In a network of any shape, a node that reports success or reserves a handler for a session has got
the grant from a neighbour, that one from its own, and so on down to a listener that took a request
of the session. Each of them held a RESERVED reservation of the session when it got the grant
(`grants_traced`).

* `operatorCall_grants`: a round grants nothing, or leaves a RESERVED reservation
* `grant_sound`: what a turn of a node needs to grant
-/

namespace Rankd

open Infra Prog Relation

variable {k : Nat}

/-- A reservation of the sessions with timestamp `T` is RESERVED. -/
def Resources.Grants (T : Nat) (R : Resources) : Prop :=
  ∃ e ∈ R.reservations, timestamp e.2.uuid = T ∧ e.2.state = .reserved

/-- Nothing that grants. -/
def Scope.denial : Scope where
  states := (· ≠ .reserved)
  sends m := m.type ≠ .acc
  results := (· ≠ .ok)

theorem Scope.denial_ungranting : Scope.denial.Ungranting :=
  ⟨fun h => h rfl, fun _ h => h, fun h => h rfl⟩

/-! ## Rounds -/

section Rounds

variable {T a : Nat} {env : Env} {me : HandlerId} {peers : List Handler} {σ : Scope}
  {t t₁ t' : Thread} {x y : Reservation} {exit : Exit} {R : Resources}

theorem Resources.Grants.put (hl : ReservationList.lookup R.reservations a = some x)
    (hT : timestamp y.uuid = T) (hy : y.state = .reserved) : (R.put a y).Grants T :=
  ⟨(a, y), ReservationList.lookup_mem (ReservationList.lookup_update (f := fun _ => y) hl), hT, hy⟩

theorem Resources.Grants.push (hT : timestamp x.uuid = T) (hx : x.state = .reserved) :
    (R.push x).Grants T :=
  ⟨(R.nextAddress, x), List.mem_append_right _ List.mem_cons_self, hT, hx⟩

/-- What a narrower scope allows. -/
theorem Thread.Acted.denial (hσ : σ.Ungranting) (h : Thread.Acted σ t t') :
    Thread.Acted .denial t t' := by
  obtain ⟨l, hl, hsent⟩ := h.sends
  obtain ⟨r, hr, hreported⟩ := h.results
  refine ⟨h.state.imp_right fun hs => ?_, ⟨l, hl, fun e he => ?_⟩, ⟨r, hr, fun e he => ?_⟩⟩
  · intro hreserved
    rw [hreserved] at hs
    exact hσ.states hs
  · exact ⟨hσ.sends _ (hsent e he).1, (hsent e he).2⟩
  · intro hok
    have hreport := hreported e he
    rw [hok] at hreport
    exact hσ.results hreport

/-- **The listener grants with a reservation that it adds.** -/
theorem earListener_grants {r : Request} (htidy : t.resources.Tidy)
    (hT : ∀ z, t.held.read = .ok z → timestamp z.uuid = T)
    (hrun : (earListener env r).run t = (.ok exit, t')) :
    t'.resources.Grants T ∨ Thread.Acted .denial t t' := by
  rw [earListener] at hrun
  obtain ⟨position, t₁, havail, hrest⟩ := bind_eq_ok.mp hrun
  have hassessed : Thread.Acted .denial t t₁ := .of_run havail (onReservation_acts _)
  obtain ⟨s, hs, rfl⟩ := onReservation_ok havail
  obtain ⟨z, hz, ⟨-, rfl, -⟩ | ⟨-, rfl, rfl⟩⟩ := availableForPerformance_ok hs
  · have hrefuse : Acts .denial t (do
        refuseToSource env
        setState .closed
        stop
        return Exit.returns) :=
      .bind (refuseToSource_acts fun _ h => by cases h) fun _ => finish_acts (fun h => by cases h) _
    exact Or.inr (hrefuse.ok hassessed hrest)
  · -- The reservation that was added is the one that is marked.
    have hread : t.held.read = .ok z := hz
    have hv :=
      Held.write_valid (y := assessed env.assessment r.priority z) htidy.valid (s := t.held)
    have hm := Held.write_marked (y := assessed env.assessment r.priority z) htidy.marked hread rfl
    dsimp only at hrest
    rw [bind_ok (run_setReservation _)] at hrest
    obtain ⟨⟨⟩, t₂, hmark, hrest₁⟩ := bind_eq_ok.mp hrest
    obtain ⟨s, hs₁, rfl⟩ := onReservation_ok hmark
    have hpushed := markReservation_pushed hv hm
      (x := (assessed env.assessment r.priority z).copy) rfl
    rw [Held.write_nextAddress] at hpushed
    obtain ⟨-, rfl⟩ := Prod.mk.inj (hpushed.symm.trans hs₁)
    rw [bind_ok (run_get _)] at hrest₁
    obtain ⟨target, t₃, hnear, hsend⟩ := bind_eq_ok.mp hrest₁
    obtain ⟨rfl, -⟩ := nearestToSource_ok hnear
    obtain ⟨⟨⟩, t₄, hacc, hend⟩ := bind_eq_ok.mp hsend
    obtain ⟨-, rfl⟩ := sendMessage_ok hacc
    cases hend
    exact Or.inl (.push (hT z hread) rfl)

/-- An EAR grants at its listener only, and leaves a RESERVED reservation then. -/
theorem earBranch_grants_or_denies {r : Request} {uuid : UUIDv4} (hme : r.forMe env = true)
    (htidy : t.resources.Tidy) (hload : t.Loaded) (hT : timestamp t.self.uuid = T)
    (hrun : (earBranch env me peers uuid r).run t = (.ok exit, t')) :
    t'.resources.Grants T ∨ Thread.Acted .denial t t' := by
  by_cases hs : t.self.state = .preReserved
  · rw [earBranch, bind_ok (startAssessing_preReserved hs)] at hrun
    obtain ⟨address, t₁, haddress, hrest⟩ := bind_eq_ok.mp hrun
    obtain ⟨rfl, hl⟩ := liftExcept_ok haddress
    rw [Request.forMe, hl] at hme
    rw [bind_ok (earReservation_preReserved hs address), if_pos rfl,
      bind_ok (identifyReservation_loaded hload htidy.valid), if_pos hme] at hrest
    refine earListener_grants htidy (fun z hz => ?_) hrest
    rw [hload.session htidy.valid hz, hT]
  · obtain ⟨address, hl, ⟨-, -, rfl⟩ | ⟨capabilities, -, ⟨-, hbranch⟩ | ⟨hother, -⟩⟩⟩ :=
      earBranch_new hs hrun
    · have hclosed : Scope.denial.states .closed := fun h => by cases h
      exact Or.inr ⟨Or.inr hclosed, Thread.Acted.start.sends, Thread.Acted.start.results⟩
    · have hassessing : Scope.denial.states .assessing := fun h => by cases h
      have hbuilt : Thread.Acted .denial t (t.built r address capabilities) :=
        ⟨Or.inr hassessing, Thread.Acted.start.sends, Thread.Acted.start.results⟩
      have hgrants := earListener_grants (T := T) (t := t.built r address capabilities) htidy
        (by rintro z ⟨⟩; exact hT) hbranch
      exact hgrants.imp_right hbuilt.trans
    · rw [Request.forMe, hl] at hme
      cases hother.symm.trans hme

/-- An ACC grants the reservation that it marks. -/
theorem accBranch_grants (htidy : t.resources.Tidy) (hload : t.Loaded)
    (hT : timestamp t.self.uuid = T) (hs : t.self.state ≠ .reserved)
    (hrun : (accBranch env).run t = (.ok exit, t')) : t'.resources.Grants T := by
  obtain ⟨a, x, hfirst, -, htaken⟩ := accBranch_taken htidy hload hs hrun
  have hl := hfirst.lookup htidy.valid
  have hx : timestamp x.uuid = T := by
    rw [hfirst.uuid, hT]
  rcases htaken with ⟨-, hres⟩ | ⟨-, -, -, hres⟩
  · rw [hres]
    exact .put hl hx rfl
  · rw [hres]
    exact .put hl hx rfl

/-- **A round of a handler that is not RESERVED** grants nothing, or leaves a
RESERVED reservation. -/
theorem operatorCall_grants {message : Message} (htidy : t.resources.Tidy)
    (hT : timestamp t.self.uuid = T) (hs : t.self.state ≠ .reserved)
    (hrun : (operatorCall env me peers message).run t = (.ok (), t')) :
    t'.resources.Grants T ∨ Thread.Acted .denial t t' := by
  obtain ⟨R, p, hload, hR, hloaded⟩ := loadReservation_loaded env htidy
  obtain ⟨exit, t₂, hswitch, rfl⟩ := operatorCall_ok hload hrun
  have hstart : Thread.Acted .denial t (t.loaded R p) :=
    ⟨Or.inl rfl, Thread.Acted.start.sends, Thread.Acted.start.results⟩
  have hleft : Thread.Acted .denial t₂ (t₂.left exit) :=
    .of_run run_leaveSwitch (leaveSwitch_acts _)
  have hres : (t₂.left exit).resources = t₂.resources := by
    cases exit <;> rfl
  rw [hres]
  suffices h : t₂.resources.Grants T ∨ Thread.Acted .denial (t.loaded R p) t₂ from
    h.imp_right fun hacted => (hstart.trans hacted).trans hleft
  by_cases hacc : message.type = .acc
  · cases message with
    | acc v u => exact Or.inl (accBranch_grants hR hloaded hT hs hswitch)
    | ear | mar | bid | ref | rep => cases hacc
  by_cases hear : ∃ v u r, message = .ear v u r ∧ r.forMe env = true
  · obtain ⟨v, u, r, rfl, hme⟩ := hear
    exact earBranch_grants_or_denies hme hR hloaded hT hswitch
  · have hscope : (message.scope env).Ungranting := Message.scope_ungranting hacc fun v u r hm => by
      rw [← Bool.not_eq_true]
      exact fun hme => hear ⟨v, u, r, hm, hme⟩
    exact Or.inr (.denial hscope (.of_run hswitch (messageSwitch_acts message)))

end Rounds

/-! ## Steps of a node -/

section Steps

variable {T : Nat} {env : Env} {n n₁ n' : Node} {h : HandlerId} {message : Message}
  {source : NodeIdentifier} {action : Action}

/-- The handler that takes a message of a session that nothing was granted to. -/
theorem Node.Ungranted.hands (hu : n.Ungranted T) (hn : n.Inv) (hT : timestamp message.uuid = T)
    (hh : Node.Hands env message n n₁ h) : (n₁.handler h).state ≠ .reserved := by
  rcases hh.old_or_new (hh.lt hn) with hold | ⟨-, hnew⟩
  · obtain ⟨-, u, hsame, hsession⟩ := hh.handler hn hold
    have hts : timestamp u = T := by
      rw [← hT, ← hh.timestamp_eq hn, hsame]
    rw [hsame]
    exact hu.handlers h hold (hsession.symm.trans hts)
  · rw [hnew]
    exact fun hready => by cases hready

/-- **A step that grants** takes an ACC or a request for the node, and leaves a
RESERVED reservation. -/
theorem Node.Ungranted.granted (hu : n.Ungranted T) (hn : n.Reachable) (hen : action.enabled n)
    (hrun : (perform env action).run n = (.ok (), n'))
    (hnot : ¬(n'.Ungranted T ∧ ∀ e ∈ n.sentUntil n', e.1.Ungranting T)) :
    n'.resources.Grants T ∧ ∃ message source, action = .receive message source ∧
      timestamp message.uuid = T ∧
      (message.type = .acc ∨ ∃ v u r, message = .ear v u r ∧ r.forMe env = true) := by
  have hkept : ∀ h < n.handlers.length,
      timestamp (n'.handler h).uuid = timestamp (n.handler h).uuid :=
    fun h hh => (hn.inv.session_kept hn.timed hen hrun hh).2
  -- only an ACC or an EAR for this node can grant
  have hreceive : ∃ message source, action = .receive message source ∧
      timestamp message.uuid = T ∧
      (message.type = .acc ∨ ∃ v u r, message = .ear v u r ∧ r.forMe env = true) := by
    by_contra hno
    refine hnot (hu.step hn.inv hn.timed hen hrun fun message source ha hT => ⟨?_, ?_⟩)
    · exact fun hacc => hno ⟨message, source, ha, hT, Or.inl hacc⟩
    · intro v u r hear
      rw [← Bool.not_eq_true]
      exact fun hme => hno ⟨message, source, ha, hT, Or.inr ⟨v, u, r, hear, hme⟩⟩
  refine ⟨?_, hreceive⟩
  obtain ⟨message, source, rfl, hT, -⟩ := hreceive
  have hquiet : ∀ {σ : Scope}, σ.Ungranting → Node.Acted σ n n' → n'.resources.Grants T :=
    fun hσ hacted => absurd (hacted.ungranted hσ hu hkept) hnot
  have hstepped := hn.inv.stepped hrun
  generalize hr : (.ok () : Except Fault Unit) = r at hstepped
  cases hstepped with
  | dropped hf =>
    exact hquiet Scope.denial_ungranting (Node.Still.found hf hn.inv).acted
  | stopped hf he => cases hr
  | bid hf hk hs hrunning hb =>
    obtain ⟨v, u, hbid⟩ := hb.value
    refine hquiet (Message.scope_ungranting ?_ ?_) (hn.inv.acted hrun)
    · rw [hbid]
      exact fun hacc => by cases hacc
    · intro v u r hear
      rw [hbid] at hear
      cases hear
  | round hh hcall =>
    rename_i n₁ h t
    cases hr
    have htidy : (n₁.startThread h message source).resources.Tidy :=
      ⟨(hh.inv hn.inv).valid, show n₁.resources.Marked from hh.resources ▸ hn.marked⟩
    have hsession : timestamp (n₁.startThread h message source).self.uuid = T := by
      rw [Node.startThread_uuid, hh.timestamp_eq hn.inv, hT]
    have hstate : (n₁.startThread h message source).self.state ≠ .reserved := by
      rw [Node.startThread_state]
      exact hu.hands hn.inv hT hh
    rcases operatorCall_grants htidy hsession hstate hcall with hgrants | hacted
    · exact hgrants
    · exact hquiet Scope.denial_ungranting ((Node.Still.hands hh hn.inv).putThread
        Node.startThread_state rfl rfl hacted)

end Steps

/-! ## Networks -/

/--
How a grant spreads: it comes with an ACC of the session, it begins where the listener of a request
of the session takes it, and it leaves a RESERVED reservation.
-/
def Chain.grant (c : Chain k) (T : Nat) : Cause (Fin (k + 1)) Node Parcel where
  marked m := timestamp m.2.uuid = T ∧ m.2.type = .acc
  root i o n n' := ∃ env source v u r, c.site i env ∧ o = some (source, .ear v u r) ∧
    timestamp u = T ∧ r.forMe env = true ∧
    (perform env (.receive (.ear v u r) source)).run n = (.ok (), n')
  effect _ n := n.resources.Grants T

section Networks

variable {c : Chain k} {T : Nat} {net net' : ChainNet k}

/-- A node that grants, or sends what grants. -/
theorem Chain.grants_of_gets {i : Fin (k + 1)} {n n' : Node}
    (hgets : ¬n'.Ungranted T ∨ ∃ e ∈ c.arrivals i (n.sentUntil n'), (c.grant T).marked e.2) :
    ¬(n'.Ungranted T ∧ ∀ e ∈ n.sentUntil n', e.1.Ungranting T) := by
  rintro ⟨hafter, hsent⟩
  rcases hgets with hgranted | ⟨e, he, hT, hacc⟩
  · exact hgranted hafter
  · obtain ⟨s, hs, heq⟩ := Chain.mem_arrivals he
    rw [heq] at hT hacc
    exact hsent s hs hT hacc

theorem grant_sound : (c.grant T).Sound (c.world (Message.Ungranting T)) (fun _ n => n.Reachable)
    fun _ n => ¬n.Ungranted T where
  takes := by
    rintro i ⟨source, message⟩ n n' sends hn ⟨env, hsite, hperform, rfl⟩
    refine ⟨hn.tail ⟨env, .receive message source, trivial, hperform⟩, fun hbefore hgets => ?_⟩
    obtain ⟨hgrants, m, source', hreceive, hT, hkind⟩ :=
      (not_not.mp hbefore).granted hn
      (by trivial : (Action.receive message source).enabled n) hperform
        (Chain.grants_of_gets hgets)
    cases hreceive
    refine ⟨hgrants, ?_⟩
    rcases hkind with hacc | ⟨v, u, r, rfl, hme⟩
    · exact Or.inr ⟨hT, hacc⟩
    · exact Or.inl ⟨env, source, v, u, r, hsite, rfl, hT, hme, hperform⟩
  acts := by
    rintro i n n' sends hn (⟨env, action, -, hinternal, hen, hperform, rfl⟩ | ⟨rfl, hsends⟩)
    · refine ⟨hn.tail ⟨env, action, hen, hperform⟩, fun hbefore hgets => ?_⟩
      obtain ⟨-, m, source, rfl, -⟩ :=
        (not_not.mp hbefore).granted hn hen hperform (Chain.grants_of_gets hgets)
      exact False.elim hinternal
    · refine ⟨hn, fun hbefore hgets => ?_⟩
      rcases hgets with hgranted | ⟨e, he, hT, hacc⟩
      · exact absurd hgranted hbefore
      · exact absurd hacc (hsends e he hT)

/--
**Every grant has come down from a listener**: if a node reports success or has a RESERVED handler,
then it took a request as its listener or an ACC that a node had sent which had got the grant in the
same way, and each of these nodes had a RESERVED reservation of the session then. The network may
have any shape, with auctions, ties, losses, timers and other sessions, as long as no ACC of the
session is forged.
-/
theorem grants_traced (h : ∀ i, (net.party i).Reachable) (hu : Chain.Ungranted T net)
    (hrun : Net.Run (c.world (Message.Ungranting T)) net net') {i : Fin (k + 1)}
    (hg : ¬(net'.party i).Ungranted T) :
    Net.Traced (c.world (Message.Ungranting T)) (c.grant T) net net' i := by
  have hknown := Net.Run.origin grant_sound h (fun i hi => hi (hu.party i))
    (fun e he hacc => hu.flight e he hacc.1 hacc.2) hrun
  exact hknown.party i hg

end Networks

/-- The success that the origin of the sample reports has come down from the listener. -/
theorem grants_traced_sample : ∃ net', Net.Traced (Chain.sample.world (Message.Ungranting 7))
    (Chain.sample.grant 7) sampleAdmission net' 0 := by
  obtain ⟨net', hrun, hg⟩ := sampleAdmission_granted
  exact ⟨net', grants_traced sampleAdmission_starts.reachable sampleAdmission_ungranted hrun hg⟩

end Rankd

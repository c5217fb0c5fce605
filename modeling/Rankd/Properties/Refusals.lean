import Rankd.Properties.Auction
import Rankd.Properties.Origins
import Rankd.Properties.Unsolicited

/-!
# The way of a refusal

In a network of any shape, a node that reports failure for a session was told so by a neighbour,
that one by its own, and so on down to a node that refused by itself: it did not admit a request, it
had no connection to the listener, no bid came in its auction, or it is the listener of a REP. Each
of them closed its handler (`refusals_traced`).

* `operatorCall_declines`, `wake_declines`: a round refuses nothing, or closes its
  handler for a reason
* `refusal_sound`: what a turn of a node needs to refuse
-/

namespace Rankd

open Infra Prog Relation

variable {k : Nat}

/-- Nothing that refuses. -/
def Scope.assent : Scope where
  states _ := True
  sends m := m.type ≠ .ref
  results := (· ≠ .fail)

/-! ## Reasons -/

/-- There is no connection to the listener. -/
def Env.Cut (env : Env) (address : Bytes) : Prop :=
  ∃ b, address.head? = some b ∧ env.connections b = []

/--
Why a request is refused: there is no connection to its listener, or a reservation of the session is
not admitted, which has the requirements of the request or of a reservation that is held.
-/
def Request.Declined (env : Env) (T : Nat) (R : Resources) (r : Request) : Prop :=
  (∃ address, listenerAddress env r.listenerLength r.listener = .ok address ∧
    iAmListener env r.listenerLength address = false ∧ env.Cut address) ∨
  ∃ z, timestamp z.uuid = T ∧ env.assessment.admits r.priority z = false ∧
    (env.unmarshal r.payload = .ok z.requirements ∨
      ∃ e ∈ R.reservations, timestamp e.2.uuid = T ∧ e.2.requirements = z.requirements)

/-- Why a message is answered with a REF that nobody else has sent. -/
def Message.Declined (env : Env) (T : Nat) (R : Resources) : Message → Prop
  | .ear _ _ r => r.Declined env T R
  | .rep _ _ length _ listener => ∃ address, listenerAddress env length listener = .ok address ∧
      iAmListener env length address = true
  | .mar .. | .bid .. | .acc .. | .ref .. => False

/-- The step refuses by itself: it answers a message with a REF, or ends an auction without bids. -/
def Action.Declined (env : Env) (T : Nat) (n : Node) : Action → Prop
  | .receive message _ => timestamp message.uuid = T ∧ message.Declined env T n.resources
  | .wake h => timestamp (n.handler h).uuid = T ∧ (n.handler h).bids = []
  | .timeout .. | .markOrigin .. => False

/-! ## Rounds -/

section Rounds

variable {T a : Nat} {env : Env} {me : HandlerId} {peers : List Handler} {σ : Scope}
  {t t₁ t' : Thread} {exit : Exit} {R : Resources} {r : Request} {address : Bytes}

/-- What refuses nothing. -/
def Scope.Assenting (σ : Scope) : Prop := (∀ m, σ.sends m → m.type ≠ .ref) ∧ ¬σ.results .fail

theorem Thread.Acted.assent (hσ : σ.Assenting) (h : Thread.Acted σ t t') :
    Thread.Acted .assent t t' := by
  obtain ⟨l, hl, hsent⟩ := h.sends
  obtain ⟨results, hr, hreported⟩ := h.results
  refine ⟨Or.inr trivial, ⟨l, hl, fun e he => ?_⟩, ⟨results, hr, fun e he => ?_⟩⟩
  · exact ⟨hσ.1 _ (hsent e he).1, (hsent e he).2⟩
  · intro hfail
    have hreport := hreported e he
    rw [hfail] at hreport
    exact hσ.2 hreport

/-- The reservation of the handler is not admitted. -/
def Thread.Unfit (env : Env) (r : Request) (t : Thread) : Prop :=
  ∃ z, t.held.read = .ok z ∧ env.assessment.admits r.priority z = false

/-- **The listener** refuses what it does not admit. -/
theorem earListener_declines (hrun : (earListener env r).run t = (.ok exit, t')) :
    Thread.Acted .assent t t' ∨ t'.self.state = .closed ∧ t.Unfit env r := by
  rw [earListener] at hrun
  obtain ⟨position, t₁, havail, hrest⟩ := bind_eq_ok.mp hrun
  have hassessed : Thread.Acted .assent t t₁ := .of_run havail (onReservation_acts _)
  obtain ⟨s, hs, rfl⟩ := onReservation_ok havail
  obtain ⟨z, hz, ⟨ha, rfl, -⟩ | ⟨-, rfl, rfl⟩⟩ := availableForPerformance_ok hs
  · obtain ⟨⟨⟩, t₂, -, hend⟩ := bind_eq_ok.mp hrest
    cases hend
    exact Or.inr ⟨rfl, z, hz, ha⟩
  · have hacc (u : UUIDv4) : Scope.assent.sends (newAcc u) := fun h => by cases h
    have hgrant : ∀ a : Nat, Acts .assent t (do
        setReservation (.listed a)
        onReservation markReservation
        let t ← Prog.get
        let target ← nearestToSource env
        sendMessage (newAcc t.self.uuid) target t.self.sourceIdentifier.2
        setState .reserved
        stop
        return Exit.breaks) := fun a =>
      .bind (setReservation_acts _) fun _ => .bind (onReservation_acts _) fun _ =>
        .get fun _ _ => .bind (.readOnly nearestToSource_readOnly) fun _ =>
          .bind (sendMessage_acts (hacc _) _ _) fun _ => finish_acts trivial _
    exact Or.inl ((hgrant _).ok hassessed hrest)

/-- **On the way to the listener** a request is refused if there is no connection. -/
theorem earForward_declines (hrun : (earForward env me address).run t = (.ok exit, t')) :
    Thread.Acted .assent t t' ∨ t'.self.state = .closed ∧ env.Cut address := by
  have hear (u : UUIDv4) (x : Reservation) :
      Scope.assent.sends (.ear headerVersion u (relayedRequest env x)) := fun h => by cases h
  have hmar (u : UUIDv4) (x : Reservation) :
      Scope.assent.sends (.mar headerVersion u (relayedRequest env x)) := fun h => by cases h
  rw [earForward] at hrun
  obtain ⟨b, t₁, hfirst, hrest⟩ := bind_eq_ok.mp hrun
  obtain ⟨rfl, hb⟩ := firstByte_ok hfirst
  rw [bind_ok (run_get _)] at hrest
  rcases hc : nearestConnections (getConnectionsTo env b) with _ | ⟨c, _ | ⟨d, cs⟩⟩
  · simp only [hc] at hrest
    obtain ⟨⟨⟩, t₂, -, hend⟩ := bind_eq_ok.mp hrest
    cases hend
    exact Or.inr ⟨rfl, b, hb, nearestConnections_eq_nil.mp hc⟩
  · simp only [hc] at hrest
    refine Or.inl (.of_run hrest ?_)
    refine .bind (onReservation_acts _) fun x => .bind (sendMessage_acts (hear _ x) _ _) fun _ => ?_
    refine .bind (setState_acts trivial) fun _ => .bind (setPastNode_acts _) fun _ => ?_
    exact .bind (initiateTimeout_acts _) fun _ => stopped_acts _
  · simp only [hc] at hrest
    refine Or.inl (.of_run hrest ?_)
    refine .bind (modify_acts fun _ => ⟨rfl, rfl, rfl⟩) fun _ => ?_
    refine .bind (.forEach fun _ => .bind (onReservation_acts _) fun x =>
      sendMessage_acts (hmar _ x) _ _) fun _ => ?_
    refine .bind (setState_acts trivial) fun _ => .bind (setPastNode_acts _) fun _ => ?_
    exact .bind (initiateTimeout_acts _) fun _ => stopped_acts _

theorem earRelay_declines {uuid : UUIDv4}
    (hrun : (earRelay env me peers uuid r address).run t = (.ok exit, t')) :
    Thread.Acted .assent t t' ∨ t'.self.state = .closed ∧ (env.Cut address ∨ t.Unfit env r) := by
  -- What comes before the request goes on refuses nothing.
  have hforward : ∀ {t₁ : Thread}, Thread.Acted .assent t t₁ →
      (earForward env me address).run t₁ = (.ok exit, t') → Thread.Acted .assent t t' ∨
        t'.self.state = .closed ∧ (env.Cut address ∨ t.Unfit env r) := by
    intro t₁ hacted hrun
    rcases earForward_declines hrun with h | ⟨hclosed, hcut⟩
    · exact Or.inl (hacted.trans h)
    · exact Or.inr ⟨hclosed, Or.inl hcut⟩
  rw [earRelay, bind_ok (run_get t)] at hrun
  split_ifs at hrun
  · obtain ⟨⟨⟩, t₁, hset, hrest⟩ := bind_eq_ok.mp hrun
    exact hforward (.of_run hset (setReservation_acts _)) hrest
  · obtain ⟨position, t₁, havail, hrest⟩ := bind_eq_ok.mp hrun
    have hassessed : Thread.Acted .assent t t₁ := .of_run havail (onReservation_acts _)
    obtain ⟨s, hs, rfl⟩ := onReservation_ok havail
    obtain ⟨z, hz, ⟨ha, rfl, -⟩ | ⟨-, rfl, rfl⟩⟩ := availableForPerformance_ok hs
    · dsimp only at hrest
      rw [bind_ok (run_setReservation _)] at hrest
      obtain ⟨⟨⟩, t₂, -, hend⟩ := bind_eq_ok.mp hrest
      cases hend
      exact Or.inr ⟨rfl, Or.inr ⟨z, hz, ha⟩⟩
    · obtain ⟨b, t₂, hmark, hrest₁⟩ := bind_eq_ok.mp hrest
      obtain ⟨⟨⟩, t₃, hset, hrest₂⟩ := bind_eq_ok.mp hrest₁
      have hmarked : Thread.Acted .assent _ t₂ := .of_run hmark (onReservation_acts _)
      have hset' : Thread.Acted .assent t₂ t₃ := .of_run hset (setReservation_acts _)
      exact hforward ((hassessed.trans hmarked).trans hset') hrest₂

/-- A request is refused by the node that it comes to, for a reason. -/
theorem earBranch_declines {uuid : UUIDv4} (hload : t.Loaded) (hv : t.resources.Valid)
    (hrun : (earBranch env me peers uuid r).run t = (.ok exit, t')) :
    Thread.Acted .assent t t' ∨ t'.self.state = .closed ∧
      ((∃ address, listenerAddress env r.listenerLength r.listener = .ok address ∧
        iAmListener env r.listenerLength address = false ∧ env.Cut address) ∨
      ∃ z, z.uuid = t.self.uuid ∧ env.assessment.admits r.priority z = false ∧
        (env.unmarshal r.payload = .ok z.requirements ∨ t.held.read = .ok z)) := by
  by_cases hs : t.self.state = .preReserved
  · rw [earBranch, bind_ok (startAssessing_preReserved hs)] at hrun
    obtain ⟨address, t₁, haddress, hrest⟩ := bind_eq_ok.mp hrun
    obtain ⟨rfl, hl⟩ := liftExcept_ok haddress
    rw [bind_ok (earReservation_preReserved hs address), if_pos rfl,
      bind_ok (identifyReservation_loaded hload hv)] at hrest
    split_ifs at hrest with hme
    · refine (earListener_declines hrest).imp_right ?_
      rintro ⟨hclosed, z, hz, ha⟩
      exact ⟨hclosed, Or.inr ⟨z, hload.session hv hz, ha, Or.inr hz⟩⟩
    · refine (earRelay_declines hrest).imp_right ?_
      rintro ⟨hclosed, hcut | ⟨z, hz, ha⟩⟩
      · exact ⟨hclosed, Or.inl ⟨address, hl, Bool.not_eq_true _ ▸ hme, hcut⟩⟩
      · exact ⟨hclosed, Or.inr ⟨z, hload.session hv hz, ha, Or.inr hz⟩⟩
  · obtain ⟨address, hl, ⟨-, -, rfl⟩ | ⟨capabilities, hu, hbranch⟩⟩ := earBranch_new hs hrun
    · exact Or.inl ⟨Or.inr trivial, Thread.Acted.start.sends, Thread.Acted.start.results⟩
    have hbuilt : Thread.Acted .assent t (t.built r address capabilities) :=
      ⟨Or.inr trivial, Thread.Acted.start.sends, Thread.Acted.start.results⟩
    -- The reservation that is assessed is the new one.
    have hnew : (t.built r address capabilities).Unfit env r → ∃ z, z.uuid = t.self.uuid ∧
        env.assessment.admits r.priority z = false ∧
        (env.unmarshal r.payload = .ok z.requirements ∨ t.held.read = .ok z) := by
      rintro ⟨z, hz, ha⟩
      cases hz
      exact ⟨_, rfl, ha, Or.inl hu⟩
    rcases hbranch with ⟨-, hbranch⟩ | ⟨hother, hbranch⟩
    · rcases earListener_declines hbranch with hacted | ⟨hclosed, hunfit⟩
      · exact Or.inl (hbuilt.trans hacted)
      · exact Or.inr ⟨hclosed, Or.inr (hnew hunfit)⟩
    · rcases earRelay_declines (r := r) hbranch with hacted | ⟨hclosed, hcut | hunfit⟩
      · exact Or.inl (hbuilt.trans hacted)
      · exact Or.inr ⟨hclosed, Or.inl ⟨address, hl, hother, hcut⟩⟩
      · exact Or.inr ⟨hclosed, Or.inr (hnew hunfit)⟩

/-- A REF that is passed on or reported closes the handler. -/
theorem refRelay_declines (hrun : (refRelay env).run t = (.ok exit, t')) :
    Thread.Acted .assent t t' ∨ t'.self.state = .closed := by
  rw [refRelay, bind_ok (run_get t)] at hrun
  obtain ⟨port, t₁, hport, hrest⟩ := bind_eq_ok.mp hrun
  obtain ⟨rfl, -⟩ := sourcePort_ok hport
  cases port with
  | none => exact Or.inl (.of_run hrest (stopped_acts _))
  | some target =>
    obtain ⟨⟨⟩, t₂, -, hend⟩ := bind_eq_ok.mp hrest
    cases hend
    exact Or.inr rfl

theorem refBranch_declines (hrun : (refBranch env me peers).run t = (.ok exit, t')) :
    Thread.Acted .assent t t' ∨ t'.self.state = .closed := by
  rw [refBranch] at hrun
  obtain ⟨⟨⟩, t₁, herase, hreply⟩ := bind_eq_ok.mp hrun
  obtain ⟨store, rfl⟩ := refErase_ok herase
  rw [refReply, bind_ok (run_get _)] at hreply
  split at hreply
  · obtain ⟨⟨⟩, t₂, hmodify, hrest⟩ := bind_eq_ok.mp hreply
    rw [bind_ok (run_get _)] at hrest
    split_ifs at hrest
    · cases hmodify
      refine (refRelay_declines hrest).imp_left fun hacted => Thread.Acted.trans ?_ hacted
      exact ⟨Or.inl rfl, Thread.Acted.start.sends, Thread.Acted.start.results⟩
    · cases hrest
      exact Or.inr rfl
  · split_ifs at hreply
    · obtain ⟨⟨⟩, t₂, -, hrest⟩ := bind_eq_ok.mp hreply
      obtain ⟨⟨⟩, t₃, -, hend⟩ := bind_eq_ok.mp hrest
      cases hend
      exact Or.inr rfl
    · refine (refRelay_declines hreply).imp_left fun hacted => Thread.Acted.trans ?_ hacted
      exact ⟨Or.inl rfl, Thread.Acted.start.sends, Thread.Acted.start.results⟩

/-- (G.1.1) The listener of a REP answers with a REF. -/
theorem repBranch_declines {length : UInt8} {listener : ListenerArray}
    (hrun : (repBranch env me length listener).run t = (.ok exit, t')) :
    Thread.Acted .assent t t' ∨ t'.self.state = .closed ∧
      ∃ address, listenerAddress env length listener = .ok address ∧
        iAmListener env length address = true := by
  have hstart : Thread.Acted .assent t (t.inState .replenishing) :=
    .of_run (run_setState _) (setState_acts trivial)
  have hrep (u : UUIDv4) (length reserved : UInt8) (listener : ListenerArray) :
      Scope.assent.sends (.rep headerVersion u length reserved listener) := fun h => by cases h
  rw [repBranch, bind_ok (run_setState _)] at hrun
  obtain ⟨address, t₁, haddress, hrest⟩ := bind_eq_ok.mp hrun
  obtain ⟨rfl, hl⟩ := liftExcept_ok haddress
  rw [bind_ok (run_get _)] at hrest
  split_ifs at hrest with hme
  · obtain ⟨source, t₁, -, hrest₁⟩ := bind_eq_ok.mp hrest
    obtain ⟨target, t₂, -, hrest₂⟩ := bind_eq_ok.mp hrest₁
    obtain ⟨⟨⟩, t₃, -, hend⟩ := bind_eq_ok.mp hrest₂
    cases hend
    exact Or.inr ⟨rfl, address, hl, hme⟩
  · refine Or.inl (hstart.trans (.of_run hrest ?_))
    refine .get fun _ _ => .bind (onReservation_acts _) fun _ => ?_
    refine .bind (.forEach fun _ => ?_) fun _ => .bind (initiateTimeout_acts _) fun _ =>
      stopped_acts _
    refine .bind (.readOnly (firstByte_readOnly _)) fun _ => ?_
    refine .bind (.readOnly sourceFirst_readOnly) fun _ => ?_
    exact .bind (.readOnly (portTo_readOnly _)) fun _ => sendMessage_acts (hrep _ _ _ _) _ _
  · exact Or.inl (hstart.trans (.of_run hrest (finish_acts trivial _)))

/-- **An auction that ends without bids** closes its handler with a REF. -/
theorem wake_declines (hrun : (wake env me).run t = (.ok (), t')) :
    Thread.Acted .assent t t' ∨ t'.self.state = .closed ∧ t.self.bids = [] := by
  have hacted : Thread.Acted .auction t t' := .of_run hrun wake_acts
  obtain ⟨exit, t₁, hend, rfl⟩ := wake_ok hrun
  by_cases hb : t.self.bids = []
  · obtain ⟨rfl, rfl⟩ := auctionEnd_empty (t := t.unblocked) hb hend
    exact Or.inr ⟨rfl, hb⟩
  · refine Or.inl ?_
    obtain ⟨sends, hsends, hall⟩ := auctionEnd_sends (t := t.unblocked) hb hend
    obtain ⟨l, hl, hsent⟩ := hacted.sends
    obtain ⟨results, hr, hreported⟩ := hacted.results
    have hleft : (t₁.left exit).sendingMessages = t₁.sendingMessages := by
      cases exit <;> rfl
    obtain rfl : sends = l := List.append_cancel_left (hsends.symm.trans (hleft.symm.trans hl))
    refine ⟨Or.inr trivial, ⟨sends, hl, fun e he => ⟨?_, (hsent e he).2⟩⟩,
      ⟨results, hr, fun e he => False.elim (hreported e he)⟩⟩
    obtain ⟨winner, -, hear⟩ := exists_addressee hall he
    intro href
    have hkind := hear.ear
    rcases e with ⟨m, target⟩
    cases m with
    | ref => cases hkind
    | ear | mar | bid | acc | rep => cases href

/-- A round starts with a reservation that has the requirements of one of its session. -/
theorem loadReservation_requirements (env : Env) (htidy : t.resources.Tidy) : ∃ R p,
    (loadReservation env).run t = (.ok (), t.loaded R p) ∧ R.Tidy ∧ (t.loaded R p).Loaded ∧
      ∀ z, (t.loaded R p).held.read = .ok z → ∃ e ∈ t.resources.reservations,
        timestamp e.2.uuid = timestamp t.self.uuid ∧ e.2.requirements = z.requirements := by
  rcases hf : t.resources.reservations.find?
    (fun e => isSameTimestamp env.ulid e.2.uuid t.self.uuid) with _ | ⟨a, x⟩
  · refine ⟨_, _, loadReservation_none hf, htidy, Or.inl rfl, fun z hz => ?_⟩
    cases hz
  · have hmem := List.mem_of_find?_eq_some hf
    have hsame := List.find?_some hf
    refine ⟨_, _, loadReservation_some htidy.valid hf,
      ⟨htidy.valid.put, htidy.marked.put (htidy.marked _ hmem)⟩,
      Or.inr ⟨a, _, rfl, .loaded htidy.valid hf⟩, fun z hz => ?_⟩
    have hl : ReservationList.lookup
        (t.resources.put a (x.setUuid t.self.uuid)).reservations a = some (x.setUuid t.self.uuid) :=
      ReservationList.lookup_update (f := fun _ => x.setUuid t.self.uuid)
        (ReservationList.lookup_of_mem htidy.valid.nodup hmem)
    obtain rfl : x.setUuid t.self.uuid = z := by
      have hread := Held.read_listed.mpr hl
      exact Except.ok.inj (hread.symm.trans hz)
    exact ⟨(a, x), hmem, isSameTimestamp_iff.mp hsame, rfl⟩

/-- **A round refuses nothing**, or it closes its handler: for a REF, or for a reason of its own. -/
theorem operatorCall_declines {message : Message} (htidy : t.resources.Tidy)
    (hT : timestamp t.self.uuid = T)
    (hrun : (operatorCall env me peers message).run t = (.ok (), t')) :
    Thread.Acted .assent t t' ∨ t'.self.state = .closed ∧
      (message.type = .ref ∨ message.Declined env T t.resources) := by
  obtain ⟨R, p, hload, hR, hloaded, hrequirements⟩ := loadReservation_requirements env htidy
  obtain ⟨exit, t₂, hswitch, rfl⟩ := operatorCall_ok hload hrun
  have hstart : Thread.Acted .assent t (t.loaded R p) :=
    ⟨Or.inl rfl, Thread.Acted.start.sends, Thread.Acted.start.results⟩
  have hleft : Thread.Acted .assent t₂ (t₂.left exit) :=
    .of_run run_leaveSwitch (leaveSwitch_acts _)
  have hstate : (t₂.left exit).self.state = t₂.self.state := by
    cases exit <;> rfl
  rw [hstate]
  suffices h : Thread.Acted .assent (t.loaded R p) t₂ ∨ t₂.self.state = .closed ∧
      (message.type = .ref ∨ message.Declined env T t.resources) from
    h.imp_left fun hacted => (hstart.trans hacted).trans hleft
  have hscope : (message.scope env).Assenting → Thread.Acted .assent (t.loaded R p) t₂ :=
    fun hσ => .assent hσ (.of_run hswitch (messageSwitch_acts message))
  cases message with
  | ear v u r =>
    refine (earBranch_declines hloaded hR.valid hswitch).imp_right ?_
    rintro ⟨hclosed, hcut | ⟨z, hz, ha, hreq⟩⟩
    · exact ⟨hclosed, Or.inr (Or.inl hcut)⟩
    · refine ⟨hclosed, Or.inr (Or.inr ⟨z, ?_, ha, hreq.imp_right fun hread => ?_⟩)⟩
      · rw [hz]
        exact hT
      · obtain ⟨e, he, hts, heq⟩ := hrequirements z hread
        exact ⟨e, he, hts.trans hT, heq⟩
  | rep v u length reserved listener =>
    exact (repBranch_declines hswitch).imp_right fun h => ⟨h.1, Or.inr h.2⟩
  | ref v u => exact (refBranch_declines hswitch).imp_right fun h => ⟨h, Or.inl rfl⟩
  | mar v u r =>
    refine Or.inl (hscope ⟨?_, id⟩)
    rintro m ⟨u, value, rfl⟩ h
    cases h
  | bid v u value => exact Or.inl (hscope ⟨fun m hm => False.elim hm, id⟩)
  | acc v u =>
    refine Or.inl (hscope ⟨?_, fun h => by cases h⟩)
    rintro m ⟨u, rfl⟩ h
    cases h

end Rounds

/-! ## Steps of a node -/

/-- The node has reported failure for a session with timestamp `T`. -/
def Node.Failed (T : Nat) (n : Node) : Prop := ∃ e ∈ n.results, timestamp e.2 = T ∧ e.1 = .fail

/-- A handler of the sessions with timestamp `T` is CLOSED. -/
def Node.Closes (T : Nat) (n : Node) : Prop :=
  ∃ h < n.handlers.length, timestamp (n.handler h).uuid = T ∧ (n.handler h).state = .closed

section Steps

variable {T : Nat} {env : Env} {n n₁ n' : Node} {h : HandlerId} {t : Thread} {action : Action}
  {σ : Scope}

/-- A failure or a REF that a step has brought. -/
def Node.Refuses (T : Nat) (n n' : Node) : Prop :=
  n'.Failed T ∨ ∃ e ∈ n.sentUntil n', timestamp e.1.uuid = T ∧ e.1.type = .ref

theorem Node.Acted.not_refuses (hacted : Node.Acted σ n n') (hσ : σ.Assenting)
    (hbefore : ¬n.Failed T) : ¬Node.Refuses T n n' := by
  obtain ⟨sends, hsends, hsent⟩ := hacted.sends
  obtain ⟨results, hresults, hreported⟩ := hacted.results
  rintro (⟨e, he, hT, hfail⟩ | ⟨e, he, -, href⟩)
  · rw [hresults, List.mem_append] at he
    rcases he with hold | hnew
    · exact hbefore ⟨e, hold, hT, hfail⟩
    · have hreport := hreported e hnew
      rw [hfail] at hreport
      exact hσ.2 hreport
  · rw [Node.sentUntil_eq hsends] at he
    exact hσ.1 _ (hsent e he).1 href

theorem Scope.assent_assenting : Scope.assent.Assenting := ⟨fun _ h => h, fun h => h rfl⟩

/-- The handler whose thread has run. -/
theorem Node.Closes.putThread (hh : h < n₁.handlers.length) (hT : timestamp t.self.uuid = T)
    (hs : t.self.state = .closed) : (Node.putThread t h n₁).Closes T := by
  refine ⟨h, ?_, ?_, ?_⟩
  · rw [Node.length_putThread]
    exact hh
  · rw [Node.handler_putThread_self hh]
    exact hT
  · rw [Node.handler_putThread_self hh]
    exact hs

/-- **A step that refuses** takes a REF or has a reason of its own, and closes a handler. -/
theorem Node.Reachable.declines (hn : n.Reachable) (hen : action.enabled n)
    (hrun : (perform env action).run n = (.ok (), n')) (hbefore : ¬n.Failed T)
    (hrefuses : Node.Refuses T n n') : n'.Closes T ∧ (action.Declined env T n ∨
      ∃ message source, action = .receive message source ∧ timestamp message.uuid = T ∧
        message.type = .ref) := by
  have hT : action.session n = T := by
    -- a step of another session leaves this one alone
    by_contra hne
    have huntouched := hn.inv.untouched hn.timed hen hne hrun
    rcases hrefuses with ⟨e, he, hsession, hfail⟩ | ⟨e, he, hsession, -⟩
    · have hown : e ∈ n'.resultsOf T := List.mem_filter.mpr ⟨he, decide_eq_true hsession⟩
      rw [huntouched.results] at hown
      exact hbefore ⟨e, (List.mem_filter.mp hown).1, hsession, hfail⟩
    · obtain ⟨sends, hsends, hsent⟩ := huntouched.sends
      rw [Node.sentUntil_eq hsends] at he
      exact hsent e he hsession
  have hquiet : ∀ {σ : Scope} {P : Prop}, σ.Assenting → Node.Acted σ n n' → P :=
    fun hσ hacted => absurd hrefuses (hacted.not_refuses hσ hbefore)
  have hstepped := hn.inv.stepped hrun
  generalize hr : (.ok () : Except Fault Unit) = r at hstepped
  cases hstepped with
  | dropped hf => exact hquiet Scope.assent_assenting (Node.Still.found hf hn.inv).acted
  | stopped hf he => cases hr
  | bid hf hk hs hrunning hb =>
    obtain ⟨v, u, rfl⟩ := hb.value
    exact hquiet ⟨fun m hm => False.elim hm, id⟩ (hn.inv.acted hrun)
  | round hh hcall =>
    rename_i message source n₁ h t
    cases hr
    have htidy : (n₁.startThread h message source).resources.Tidy :=
      ⟨(hh.inv hn.inv).valid, show n₁.resources.Marked from hh.resources ▸ hn.marked⟩
    have hsession : timestamp (n₁.startThread h message source).self.uuid = T := by
      rw [Node.startThread_uuid, hh.timestamp_eq hn.inv]
      exact hT
    rcases operatorCall_declines htidy hsession hcall with hacted | ⟨hclosed, hwhy⟩
    · exact hquiet Scope.assent_assenting ((Node.Still.hands hh hn.inv).putThread
        Node.startThread_state rfl rfl hacted)
    · refine ⟨.putThread (hh.lt hn.inv) ?_ hclosed, ?_⟩
      · exact (hh.moved hn.inv hcall).invariant (I := fun s => timestamp s.self.uuid = T)
          (fun hc hs => (hc.session (hs.trans hT.symm)).trans hT) hsession
      · rcases hwhy with href | hdeclined
        · exact Or.inr ⟨message, source, rfl, hT, href⟩
        · rw [show (n₁.startThread h message source).resources = n.resources from hh.resources]
            at hdeclined
          exact Or.inl ⟨hT, hdeclined⟩
  | woken hcall =>
    rename_i h t
    cases hr
    rcases wake_declines hcall with hacted | ⟨hclosed, hbids⟩
    · have hstill : Node.Still n n := ⟨fun _ => rfl, rfl, rfl⟩
      exact hquiet Scope.assent_assenting (hstill.putThread rfl rfl rfl hacted)
    · refine ⟨.putThread hen.1 ?_ hclosed, Or.inl ⟨hT, hbids⟩⟩
      exact (hn.inv.wake_moved hcall (.acc 0 0)).invariant
        (I := fun s => timestamp s.self.uuid = T)
        (fun hc hs => (hc.session (hs.trans hT.symm)).trans hT) hT
  | fired => exact hquiet ⟨fun m hm => False.elim hm, id⟩ (hn.inv.acted hrun)
  | marked => exact hquiet ⟨fun m hm => False.elim hm, id⟩ (hn.inv.acted hrun)

end Steps

/-! ## Networks -/

/-- A message that refuses nothing to the sessions with timestamp `T`. -/
def Message.Unrefusing (T : Nat) (m : Message) : Prop := timestamp m.uuid = T → m.type ≠ .ref

/-- The message that a node takes in a step, with its source. -/
def Action.parcel? : Action → Option Parcel
  | .receive message source => some (source, message)
  | .wake _ | .timeout .. | .markOrigin .. => none

/--
How a refusal spreads: it comes with a REF of the session, it begins where a node refuses by itself,
and it leaves a CLOSED handler.
-/
def Chain.refusal (c : Chain k) (T : Nat) : Cause (Fin (k + 1)) Node Parcel where
  marked m := timestamp m.2.uuid = T ∧ m.2.type = .ref
  root i o n n' := ∃ env action, c.site i env ∧ action.parcel? = o ∧ action.Declined env T n ∧
    (perform env action).run n = (.ok (), n')
  effect _ n := n.Closes T

section Networks

variable {c : Chain k} {T : Nat} {net net' : ChainNet k}

theorem Chain.refuses_of_gets {i : Fin (k + 1)} {n n' : Node}
    (hgets : n'.Failed T ∨ ∃ e ∈ c.arrivals i (n.sentUntil n'), (c.refusal T).marked e.2) :
    Node.Refuses T n n' := by
  refine hgets.imp_right ?_
  rintro ⟨e, he, hT, href⟩
  obtain ⟨s, hs, heq⟩ := Chain.mem_arrivals he
  rw [heq] at hT href
  exact ⟨s, hs, hT, href⟩

theorem refusal_sound : (c.refusal T).Sound (c.world (Message.Unrefusing T))
    (fun _ n => n.Reachable) fun _ n => n.Failed T where
  takes := by
    rintro i ⟨source, message⟩ n n' sends hn ⟨env, hsite, hperform, rfl⟩
    refine ⟨hn.tail ⟨env, .receive message source, trivial, hperform⟩, fun hbefore hgets => ?_⟩
    have hen : (Action.receive message source).enabled n := trivial
    obtain ⟨hcloses, hdeclined | ⟨m, source', hreceive, hT, href⟩⟩ :=
      hn.declines hen hperform hbefore (Chain.refuses_of_gets hgets)
    · exact ⟨hcloses, Or.inl ⟨env, _, hsite, rfl, hdeclined, hperform⟩⟩
    · cases hreceive
      exact ⟨hcloses, Or.inr ⟨hT, href⟩⟩
  acts := by
    rintro i n n' sends hn (⟨env, action, hsite, hinternal, hen, hperform, rfl⟩ | ⟨rfl, hsends⟩)
    · refine ⟨hn.tail ⟨env, action, hen, hperform⟩, fun hbefore hgets => ?_⟩
      obtain ⟨hcloses, hdeclined | ⟨m, source, rfl, -⟩⟩ :=
        hn.declines hen hperform hbefore (Chain.refuses_of_gets hgets)
      · refine ⟨hcloses, env, action, hsite, ?_, hdeclined, hperform⟩
        cases action with
        | receive message source => exact False.elim hinternal
        | wake | timeout | markOrigin => rfl
      · exact False.elim hinternal
    · refine ⟨hn, fun hbefore hgets => ?_⟩
      rcases hgets with hfailed | ⟨e, he, hT, href⟩
      · exact absurd hfailed hbefore
      · exact absurd href (hsends e he hT)

/--
**Every failure has come down from a node that refused**: if a node reports failure, then it refused
by itself or took a REF that a node had sent which had got the refusal in the same way, and each of
these nodes had closed its handler then. The network may have any shape, with auctions, ties,
losses, timers and other sessions, as long as no REF of the session is forged.
-/
theorem refusals_traced (h : ∀ i, (net.party i).Reachable) (hf : ∀ i, ¬(net.party i).Failed T)
    (hm : ∀ e ∈ net.flight, e.2.2.Unrefusing T)
    (hrun : Net.Run (c.world (Message.Unrefusing T)) net net') {i : Fin (k + 1)}
    (hfailed : (net'.party i).Failed T) :
    Net.Traced (c.world (Message.Unrefusing T)) (c.refusal T) net net' i := by
  have hknown := Net.Run.origin refusal_sound h hf (fun e he href => hm e he href.1 href.2) hrun
  exact hknown.party i hfailed

end Networks

/-! ## A listener that is asked to start again -/

/--
The origin and the listener of a granted request take a REP. The listener refuses it, and the REF
finds a reservation at the origin that is no pre-reservation, so the origin reports the failure.
-/
theorem refusals_traced_sample : ∃ net', ¬(sampleRep.party 0).Failed 7 ∧ (net'.party 0).Failed 7 ∧
    Net.Traced (Chain.sample.world (Message.Unrefusing 7)) (Chain.sample.refusal 7) sampleRep
      net' 0 := by
  have hrun : (Chain.sample.takeFirst sampleSite 3 sampleRep).map (fun net' =>
      decide ((.fail, sampleUuid 7 0) ∈ (net'.party 0).results)) = some true := by
    decide +kernel
  have hsilent : ∀ i, ∀ e ∈ (sampleRep.party i).results, e.1 ≠ .fail := by decide +kernel
  have hunfailed : ∀ i, ¬(sampleRep.party i).Failed 7 := by
    rintro i ⟨e, he, -, hfail⟩
    exact hsilent i e he hfail
  obtain ⟨net', hnet, hfail⟩ := Option.map_eq_some_iff.mp hrun
  have hfailed : (net'.party 0).Failed 7 := ⟨_, of_decide_eq_true hfail, by decide +kernel, rfl⟩
  refine ⟨net', hunfailed 0, hfailed, refusals_traced sampleParty_reachable hunfailed ?_
    (Chain.takeFirst_run (P := Chain.sample.world _) (fun _ => rfl) rfl hnet) hfailed⟩
  intro e he
  rw [List.mem_singleton.mp he]
  exact fun _ href => by cases href

end Rankd

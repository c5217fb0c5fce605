import Rankd.Node.ResourceSpec
import Rankd.Node.Handler

/-!
# A handler's thread stays within its session

The branches of the message switch, walked once. A thread of the timestamp `T` changes reservations
of this timestamp only, adds only translations between UUIDs of one timestamp, and takes back no
message that was sent (`Thread.Tame`). Most branches also leave the store and the UUID of the
handler alone (`Thread.Frame`). ACC may file the handler under the original of its UUID, REF may
erase its entry or change its UUID (`Thread.Filed`).
-/

namespace Rankd

open Infra Prog

/-- Reservations, translations and messages after a thread of the timestamp `T`. -/
structure Thread.Tame (T : Nat) (t₀ t : Thread) : Prop where
  table : ∀ k v, t.translationTable.find? k = some v →
    t₀.translationTable.find? k = some v ∨ timestamp k = timestamp v
  valid : t.resources.Valid
  confined : Resources.Confined T t₀.resources t.resources
  sends : t₀.sendingMessages <+: t.sendingMessages

/-- The same, and the store and the UUID of the handler are left alone. -/
structure Thread.Frame (T : Nat) (t₀ t : Thread) : Prop extends Thread.Tame T t₀ t where
  store : t.store = t₀.store
  uuid : t.self.uuid = t₀.self.uuid

/-- The frame, and `_reservation` points into the session. -/
structure Thread.Inv (T : Nat) (t₀ t : Thread) : Prop extends Thread.Frame T t₀ t where
  pointer : t.self.reservation.Ok T t.resources

/-- Programs that keep the frame. -/
def Keeps {α : Type} (T : Nat) (t₀ : Thread) (p : ThreadM α) : Prop :=
  Triple (Thread.Inv T t₀) p (fun _ => Thread.Inv T t₀) (Thread.Frame T t₀)

section Rules

variable {α β : Type} {T : Nat} {t₀ : Thread}

theorem Keeps.bind {p : ThreadM α} {f : α → ThreadM β} (hp : Keeps T t₀ p)
    (hf : ∀ a, Keeps T t₀ (f a)) : Keeps T t₀ (p >>= f) := Triple.bind hp hf

theorem Keeps.pure (a : α) : Keeps T t₀ (Pure.pure a) := Triple.pure fun _ h => h

theorem Keeps.get : Keeps T t₀ Prog.get := Triple.get fun _ h => h

theorem Keeps.fault (e : Fault) : Keeps T t₀ (Prog.fault e : ThreadM α) :=
  Triple.fault_intro fun _ h => h.toFrame

theorem Keeps.ensure (c : Bool) (e : Fault) : Keeps T t₀ (Prog.ensure c e) :=
  Triple.ensure (fun _ _ h => h) fun _ h => h.toFrame

theorem Keeps.require (o : Option α) (e : Fault) : Keeps T t₀ (Prog.require o e) :=
  Triple.require (fun _ _ _ h => h) fun _ h => h.toFrame

theorem Keeps.ite {c : Prop} [Decidable c] {p q : ThreadM α} (hp : Keeps T t₀ p)
    (hq : Keeps T t₀ q) : Keeps T t₀ (if c then p else q) :=
  Triple.ite (fun _ => hp) fun _ => hq

theorem Keeps.forEach {l : List α} {body : α → ThreadM Unit}
    (h : ∀ a, Keeps T t₀ (body a)) : Keeps T t₀ (Prog.forEach l body) :=
  Triple.forEach fun a _ => h a

/-- Programs that change neither the UUID nor the reservation of the handler. -/
theorem Keeps.modifySelf {f : Handler → Handler} (hu : ∀ s, (f s).uuid = s.uuid)
    (hr : ∀ s, (f s).reservation = s.reservation) : Keeps T t₀ (modifySelf f) := by
  refine Triple.modify ?_
  intro t ht
  refine ⟨⟨⟨ht.table, ht.valid, ht.confined, ht.sends⟩, ht.store, (hu t.self).trans ht.uuid⟩, ?_⟩
  rw [hr t.self]
  exact ht.pointer

theorem Keeps.setReservation {pointer : ReservationPtr} :
    Triple (fun t => Thread.Inv T t₀ t ∧ pointer.Ok T t.resources) (setReservation pointer)
      (fun _ => Thread.Inv T t₀) (Thread.Frame T t₀) := by
  refine Triple.modify ?_
  rintro t ⟨ht, hp⟩
  exact ⟨⟨⟨ht.table, ht.valid, ht.confined, ht.sends⟩, ht.store, ht.uuid⟩, hp⟩

/-- An operation of `Resources` on `_reservation`. -/
theorem onReservation_keeps {p : HeldM α} {Q : α → Held → Prop}
    (h : HeldKeeps T t₀.resources p Q) :
    Triple (Thread.Inv T t₀) (onReservation p)
      (fun a t => Thread.Inv T t₀ t ∧ Q a ⟨t.resources, t.self.reservation⟩)
      (Thread.Inv T t₀) := by
  intro t ht
  have hs : Held.Inv T t₀.resources ⟨t.resources, t.self.reservation⟩ :=
    ⟨⟨ht.valid, ht.confined⟩, ht.pointer⟩
  rcases hr : p.run ⟨t.resources, t.self.reservation⟩ with ⟨r, s⟩
  simp only [onReservation, zoom, hr]
  cases r with
  | ok a =>
    obtain ⟨hs', hQ⟩ := h.ok hs hr
    exact ⟨⟨⟨⟨ht.table, hs'.valid, hs'.confined, ht.sends⟩, ht.store, ht.uuid⟩, hs'.pointer⟩, hQ⟩
  | error e =>
    have hs' := h.fault hs hr
    exact ⟨⟨⟨ht.table, hs'.valid, hs'.confined, ht.sends⟩, ht.store, ht.uuid⟩, hs'.pointer⟩

theorem onReservation_value {p : HeldM α} {Q : α → Held → Prop}
    (h : HeldKeeps T t₀.resources p Q) :
    Triple (Thread.Inv T t₀) (onReservation p)
      (fun a t => Thread.Inv T t₀ t ∧ Q a ⟨t.resources, t.self.reservation⟩)
      (Thread.Frame T t₀) :=
  (onReservation_keeps h).weakenFault fun _ ht => ht.toFrame

theorem Keeps.onReservation {p : HeldM α} {Q : α → Held → Prop}
    (h : HeldKeeps T t₀.resources p Q) : Keeps T t₀ (onReservation p) :=
  (onReservation_value h).weaken (fun _ ht => ht) fun _ _ ht => ht.1

end Rules

/-! ## Statements -/

section Statements

variable {α : Type} {T : Nat} {t₀ : Thread}

theorem setState_keeps (state : HandlerState) : Keeps T t₀ (setState state) :=
  Keeps.modifySelf (fun _ => rfl) fun _ => rfl

theorem stop_keeps : Keeps T t₀ stop := Keeps.modifySelf (fun _ => rfl) fun _ => rfl

theorem sendMessage_keeps (message : Message) (target : Bytes) (type : IdentifierType) :
    Keeps T t₀ (sendMessage message target type) :=
  Keeps.bind (Keeps.ensure _ _) fun _ => Triple.modify fun _ ht =>
    ⟨⟨⟨ht.table, ht.valid, ht.confined, ht.sends.trans (List.prefix_append _ _)⟩, ht.store,
      ht.uuid⟩, ht.pointer⟩

theorem initiateTimeout_keeps (me : HandlerId) (type : TimeoutType) :
    Keeps T t₀ (initiateTimeout me type) :=
  Triple.modify fun _ ht =>
    ⟨⟨⟨ht.table, ht.valid, ht.confined, ht.sends⟩, ht.store, ht.uuid⟩, ht.pointer⟩

theorem communicateResult_keeps (code : ApiResult) (uuid : UUIDv4) :
    Keeps T t₀ (communicateResult code uuid) :=
  Triple.modify fun _ ht =>
    ⟨⟨⟨ht.table, ht.valid, ht.confined, ht.sends⟩, ht.store, ht.uuid⟩, ht.pointer⟩

theorem firstByte_keeps (bytes : Bytes) : Keeps T t₀ (firstByte bytes) := Keeps.require _ _

theorem sourceFirst_keeps : Keeps T t₀ sourceFirst :=
  Keeps.bind Keeps.get fun _ => firstByte_keeps _

theorem liftExcept_keeps (r : Except Fault α) : Keeps T t₀ (liftExcept r) := by
  cases r with
  | ok a => exact Keeps.pure a
  | error e => exact Keeps.fault e

theorem nearestToSource_keeps (env : Env) : Keeps T t₀ (nearestToSource env) :=
  Keeps.bind sourceFirst_keeps fun _ => Keeps.bind (Keeps.require _ _) fun _ => Keeps.pure _

theorem portTo_keeps (env : Env) (target : UInt8) : Keeps T t₀ (portTo env target) :=
  Keeps.bind (Keeps.require _ _) fun _ => Keeps.bind (Keeps.require _ _) fun _ => Keeps.pure _

theorem derefReservation_keeps : Keeps T t₀ (onReservation deref) :=
  Keeps.onReservation deref_keeps

theorem setPastNode_keeps (node : NodeIdentifier) : Keeps T t₀ (setPastNode node) :=
  Keeps.bind (Keeps.onReservation (writeThrough_keeps fun _ h => h)) fun _ =>
    Keeps.bind derefReservation_keeps fun _ => Keeps.ensure _ _

theorem addNextNode_keeps (node : NodeIdentifier) : Keeps T t₀ (addNextNode node) :=
  Keeps.bind (Keeps.onReservation (writeThrough_keeps fun _ h => h)) fun _ =>
    Keeps.bind derefReservation_keeps fun _ => Keeps.ensure _ _

theorem refuseToSource_keeps (env : Env) : Keeps T t₀ (refuseToSource env) :=
  Keeps.bind Keeps.get fun _ => Keeps.bind (nearestToSource_keeps env) fun _ =>
    sendMessage_keeps _ _ _

/-- The end of most paths: a state, `stop` and how the switch is left. -/
theorem finish_keeps (state : HandlerState) (exit : Exit) :
    Keeps T t₀ (do setState state; stop; return exit) :=
  Keeps.bind (setState_keeps state) fun _ => Keeps.bind stop_keeps fun _ => Keeps.pure _

end Statements

/-! ## EAR and MAR -/

/--
Between `produce_reservation` and `set_uuid`: `_reservation` may be a new one, which is not in the
list and has no UUID yet.
-/
structure Thread.Loose (T : Nat) (t₀ t : Thread) : Prop extends Thread.Frame T t₀ t where
  pointer : t.self.reservation.Ok T t.resources ∨ ∃ x, t.self.reservation = .own x

section Requests

variable {T : Nat} {t₀ : Thread}

theorem Thread.Inv.toLoose {t : Thread} (h : Thread.Inv T t₀ t) : Thread.Loose T t₀ t :=
  ⟨h.toFrame, Or.inl h.pointer⟩

theorem produceReservation_loose (capabilities : RequestingCapabilities) (priority : UInt8)
    (listener : Bytes) : Triple (Thread.Inv T t₀)
    (produceReservation capabilities priority listener)
      (fun _ => Thread.Loose T t₀) (Thread.Frame T t₀) := by
  refine Triple.modify ?_
  intro t ht
  exact ⟨⟨⟨ht.table, ht.valid, ht.confined, ht.sends⟩, ht.store, ht.uuid⟩, Or.inr ⟨_, rfl⟩⟩

theorem buildReservation_loose (env : Env) (r : Request) (address : Bytes) :
    Triple (Thread.Inv T t₀) (buildReservation env r address)
      (fun built t => Thread.Loose T t₀ t ∧ (built = false → Thread.Inv T t₀ t))
      (Thread.Frame T t₀) := by
  unfold buildReservation
  rcases env.unmarshal r.payload with (_ | _) | capabilities
  · refine Triple.ite (fun _ => ?_) fun _ => ?_
    · exact Triple.pure fun _ ht => ⟨ht.toLoose, fun _ => ht⟩
    · exact Triple.fault_intro fun _ ht => ht.toFrame
  · exact Triple.fault_intro fun _ ht => ht.toFrame
  · refine Triple.bind (produceReservation_loose _ _ _) fun _ => ?_
    exact Triple.pure fun _ ht => ⟨ht, fun h => by cases h⟩

/-- Setting the UUID brings a new reservation into the session. -/
theorem setReservationUuid_keeps (hT : timestamp t₀.self.uuid = T) :
    Triple (Thread.Loose T t₀) setReservationUuid (fun _ => Thread.Inv T t₀)
      (Thread.Frame T t₀) := by
  intro t ht
  have hu : timestamp t.self.uuid = T := by rw [ht.uuid, hT]
  rcases ht.pointer with hp | ⟨x, hx⟩
  · have hinv : Thread.Inv T t₀ t := ⟨ht.toFrame, hp⟩
    exact Keeps.onReservation (writeThrough_keeps (f := (·.setUuid t.self.uuid)) fun _ _ => hu)
      t hinv
  · simp only [setReservationUuid, onReservation, zoom, writeThrough, deref, Held.read, run_bind,
      run_get, run_modify, hx, Held.write]
    exact ⟨⟨⟨ht.table, ht.valid, ht.confined, ht.sends⟩, ht.store, ht.uuid⟩, hu⟩

/-- An address that an operation returned becomes `_reservation`. -/
theorem setListed_keeps {α : Type} {a : Nat} {p : ThreadM α} (hp : Keeps T t₀ p) :
    Triple (fun t => Thread.Inv T t₀ t ∧ ListedOk T a ⟨t.resources, t.self.reservation⟩)
      (do setReservation (.listed a); p) (fun _ => Thread.Inv T t₀) (Thread.Frame T t₀) :=
  Triple.bind (Keeps.setReservation.weaken (fun _ ht => ht) fun _ _ h => h) fun _ => hp

theorem earListener_keeps (env : Env) (r : Request) : Keeps T t₀ (earListener env r) := by
  unfold earListener
  refine Triple.bind (onReservation_value (availableForPerformance_keeps _ _)) fun position => ?_
  cases position with
  | some a =>
    refine (setListed_keeps ?_).weaken (fun t ht => ⟨ht.1, ht.2 a rfl⟩) fun _ _ h => h
    refine Keeps.bind (Keeps.onReservation markReservation_keeps) fun _ => ?_
    refine Keeps.bind Keeps.get fun _ => Keeps.bind (nearestToSource_keeps env) fun _ => ?_
    exact Keeps.bind (sendMessage_keeps _ _ _) fun _ => finish_keeps _ _
  | none =>
    have h : Keeps T t₀ (do refuseToSource env; setState .closed; stop; return Exit.returns) :=
      Keeps.bind (refuseToSource_keeps env) fun _ => finish_keeps _ _
    exact h.weaken (fun t ht => ht.1) fun _ _ h => h

theorem earForward_keeps (env : Env) (me : HandlerId) (address : Bytes) :
    Keeps T t₀ (earForward env me address) := by
  unfold earForward
  refine Keeps.bind (firstByte_keeps _) fun _ => Keeps.bind Keeps.get fun t => ?_
  have hend : Keeps T t₀ (do stop; return Exit.breaks) :=
    Keeps.bind stop_keeps fun _ => Keeps.pure _
  match nearestConnections (getConnectionsTo env _) with
  | [] => exact Keeps.bind (sendMessage_keeps _ _ _) fun _ => finish_keeps _ _
  | [_] =>
    refine Keeps.bind derefReservation_keeps fun _ =>
      Keeps.bind (sendMessage_keeps _ _ _) fun _ => ?_
    refine Keeps.bind (setState_keeps _) fun _ => Keeps.bind (setPastNode_keeps _) fun _ => ?_
    exact Keeps.bind (initiateTimeout_keeps _ _) fun _ => hend
  | _ :: _ :: _ =>
    refine Keeps.bind (Keeps.modifySelf (fun _ => rfl) fun _ => rfl) fun _ => ?_
    refine Keeps.bind (Keeps.forEach fun _ => ?_) fun _ => ?_
    · exact Keeps.bind derefReservation_keeps fun _ => sendMessage_keeps _ _ _
    refine Keeps.bind (setState_keeps _) fun _ => Keeps.bind (setPastNode_keeps _) fun _ => ?_
    exact Keeps.bind (initiateTimeout_keeps _ _) fun _ => hend

theorem lastWithUuid_ok (hT : timestamp t₀.self.uuid = T) {t : Thread} (ht : Thread.Inv T t₀ t) :
    (lastWithUuid t).Ok T t.resources := by
  unfold lastWithUuid
  rcases hl : (t.resources.reservations.filter (·.2.uuid = t.self.uuid)).getLast? with _ | e
  · rw [hl]
    exact ht.pointer
  · rw [hl]
    obtain ⟨hmem, hu⟩ := List.mem_filter.mp (List.mem_of_getLast? hl)
    refine ⟨ht.valid.fresh e hmem, ?_⟩
    intro x hx
    have h1 := ReservationList.lookup_of_mem ht.valid.nodup hx
    have h2 := ReservationList.lookup_of_mem ht.valid.nodup (a := e.1) (r := e.2) hmem
    rw [h1] at h2
    cases h2
    rw [of_decide_eq_true hu, ht.uuid, hT]

theorem earRelay_keeps (hT : timestamp t₀.self.uuid = T) (env : Env) (me : HandlerId)
    (peers : List Handler) (uuid : UUIDv4) (r : Request) (address : Bytes) :
    Keeps T t₀ (earRelay env me peers uuid r address) := by
  unfold earRelay
  refine Triple.bind (Q := fun a t => Thread.Inv T t₀ t ∧ a = t) (Triple.get fun t ht => ⟨ht, rfl⟩)
    fun t₁ => ?_
  refine Triple.ite (fun _ => ?_) fun _ => ?_
  · have h : Triple (fun t => Thread.Inv T t₀ t ∧ (lastWithUuid t₁).Ok T t.resources)
        (do setReservation (lastWithUuid t₁); earForward env me address)
        (fun _ => Thread.Inv T t₀) (Thread.Frame T t₀) :=
      Triple.bind Keeps.setReservation fun _ => earForward_keeps env me address
    refine h.weaken ?_ fun _ _ h => h
    rintro t ⟨ht, rfl⟩
    exact ⟨ht, lastWithUuid_ok hT ht⟩
  · refine Triple.bind ((onReservation_value (availableForPerformance_keeps _ _)).weaken
      (fun t ht => ht.1) fun _ _ h => h) fun position => ?_
    cases position with
    | none =>
      have h : Triple (fun t => Thread.Inv T t₀ t ∧ ReservationPtr.null.Ok T t.resources)
          (do setReservation .null; refuseToSource env; setState .closed; stop;
              return Exit.returns) (fun _ => Thread.Inv T t₀) (Thread.Frame T t₀) :=
        Triple.bind Keeps.setReservation fun _ =>
          Keeps.bind (refuseToSource_keeps env) fun _ => finish_keeps _ _
      exact h.weaken (fun t ht => ⟨ht.1, trivial⟩) fun _ _ h => h
    | some _ =>
      refine Triple.bind ((onReservation_value markPreReservation_keeps).weaken
        (fun t ht => ht.1) fun _ _ h => h) fun a => ?_
      exact setListed_keeps (earForward_keeps env me address)

theorem startAssessing_keeps : Keeps T t₀ startAssessing :=
  Keeps.bind Keeps.get fun _ => Keeps.ite (Keeps.pure _) (setState_keeps _)

theorem earReservation_loose (env : Env) (r : Request) (address : Bytes) :
    Triple (Thread.Inv T t₀) (earReservation env r address)
      (fun built t => Thread.Loose T t₀ t ∧ (built = false → Thread.Inv T t₀ t))
      (Thread.Frame T t₀) := by
  refine Triple.bind Keeps.get fun _ => Triple.ite (fun _ => ?_) fun _ => ?_
  · exact Triple.pure fun _ ht => ⟨ht.toLoose, fun _ => ht⟩
  · exact buildReservation_loose env r address

theorem identifyReservation_keeps (hT : timestamp t₀.self.uuid = T) :
    Triple (Thread.Loose T t₀) identifyReservation (fun _ => Thread.Inv T t₀)
      (Thread.Frame T t₀) := by
  refine Triple.bind (Q := fun a t => Thread.Loose T t₀ t ∧ a = t)
    (Triple.get fun t ht => ⟨ht, rfl⟩) fun t₁ => ?_
  refine Triple.ite (fun hnull => Triple.pure ?_) fun _ =>
    (setReservationUuid_keeps hT).weaken (fun t ht => ht.1) fun _ _ h => h
  rintro t ⟨ht, rfl⟩
  refine ⟨ht.toFrame, ?_⟩
  rw [hnull]
  trivial

theorem earBranch_keeps (hT : timestamp t₀.self.uuid = T) (env : Env) (me : HandlerId)
    (peers : List Handler) (uuid : UUIDv4) (r : Request) :
    Keeps T t₀ (earBranch env me peers uuid r) := by
  refine Keeps.bind startAssessing_keeps fun _ => Keeps.bind (liftExcept_keeps _) fun address => ?_
  refine Triple.bind (earReservation_loose env r address) fun built => ?_
  cases built with
  | true =>
    refine Triple.bind ((identifyReservation_keeps hT).weaken (fun _ ht => ht.1) fun _ _ h => h)
      fun _ => ?_
    exact Keeps.ite (earListener_keeps env r) (earRelay_keeps hT env me peers uuid r address)
  | false => exact (finish_keeps _ _).weaken (fun _ ht => ht.2 rfl) fun _ _ h => h

theorem marBid_keeps (env : Env) (me : HandlerId) (r : Request) : Keeps T t₀ (marBid env me r) := by
  unfold marBid
  refine Triple.bind (onReservation_value (availableForPerformance_keeps _ _)) fun position => ?_
  cases position with
  | some a =>
    refine (setListed_keeps ?_).weaken (fun t ht => ⟨ht.1, ht.2 a rfl⟩) fun _ _ h => h
    refine Keeps.bind derefReservation_keeps fun _ => Keeps.bind Keeps.get fun _ => ?_
    refine Keeps.bind sourceFirst_keeps fun _ => Keeps.bind (portTo_keeps _ _) fun _ => ?_
    refine Keeps.bind (sendMessage_keeps _ _ _) fun _ => Keeps.bind (setState_keeps _) fun _ => ?_
    refine Keeps.bind (Keeps.onReservation (writeThrough_keeps fun _ h => h)) fun _ => ?_
    refine Triple.bind (onReservation_value markPreReservation_keeps) fun b => setListed_keeps ?_
    exact Keeps.bind (initiateTimeout_keeps _ _) fun _ =>
      Keeps.bind stop_keeps fun _ => Keeps.pure _
  | none =>
    have h : Keeps T t₀ (do
        let t ← Prog.get
        let source ← sourceFirst
        let _ ← portTo env source
        sendMessage (newBid t.self.uuid 0) t.self.sourceIdentifier.1 t.self.sourceIdentifier.2
        setState .closed
        stop
        return Exit.breaks) := by
      refine Keeps.bind Keeps.get fun _ => Keeps.bind sourceFirst_keeps fun _ => ?_
      refine Keeps.bind (portTo_keeps _ _) fun _ => Keeps.bind (sendMessage_keeps _ _ _) fun _ => ?_
      exact finish_keeps _ _
    exact h.weaken (fun t ht => ht.1) fun _ _ h => h

theorem marBranch_keeps (hT : timestamp t₀.self.uuid = T) (env : Env) (me : HandlerId)
    (r : Request) : Keeps T t₀ (marBranch env me r) := by
  refine Keeps.bind (setState_keeps _) fun _ => Keeps.bind (liftExcept_keeps _) fun address => ?_
  refine Triple.bind (buildReservation_loose env r address) fun built => ?_
  cases built with
  | true =>
    refine Triple.bind ((setReservationUuid_keeps hT).weaken (fun _ ht => ht.1) fun _ _ h => h)
      fun _ => ?_
    exact marBid_keeps env me r
  | false => exact (finish_keeps _ _).weaken (fun _ ht => ht.2 rfl) fun _ _ h => h

end Requests

/-! ## BID -/

theorem timestamp_translation (env : Env) (index : Nat) (original : UUIDv4) :
    timestamp (translation env index original) = timestamp original := by
  have hlt := timestamp_lt original
  rw [translation, timestamp_generateNewUuidWith, translationTime, take_marshallIntoVector,
    toNat_foldl_shift, ofBytesBE_toBytesBE hlt, length_toBytesBE]
  norm_num at *
  omega

section Auctions

variable {T : Nat} {t₀ : Thread}

/-- A translation has the timestamp of its original. -/
theorem createTranslation_keeps (env : Env) (index : Nat) (original : UUIDv4) :
    Keeps T t₀ (createTranslation env index original) := by
  refine Keeps.bind (Triple.modify ?_) fun _ => Keeps.pure _
  intro t ht
  refine ⟨⟨⟨?_, ht.valid, ht.confined, ht.sends⟩, ht.store, ht.uuid⟩, ht.pointer⟩
  intro k v hkv
  rw [OrdMap.find?_insertNew] at hkv
  by_cases hk : k = translation env index original
  · rcases hold : t.translationTable.find? (translation env index original) with _ | w
    · rw [if_pos hk, hold] at hkv
      cases hkv
      rw [hk]
      exact Or.inr (timestamp_translation env index original)
    · rw [if_pos hk, hold] at hkv
      cases hkv
      rw [← hk] at hold
      exact ht.table k w hold
  · rw [if_neg hk] at hkv
    exact ht.table k v hkv

theorem sendAuctionEar_keeps (env : Env) (uuid : UUIDv4) (winner : NodeIdentifier) :
    Keeps T t₀ (sendAuctionEar env uuid winner) := by
  refine Keeps.bind derefReservation_keeps fun _ => Keeps.bind (firstByte_keeps _) fun _ => ?_
  refine Keeps.bind sourceFirst_keeps fun _ => Keeps.bind (portTo_keeps _ _) fun _ => ?_
  exact sendMessage_keeps _ _ _

theorem tieRound_keeps (env : Env) (me : HandlerId) (winner : NodeIdentifier × Nat) :
    Keeps T t₀ (tieRound env me winner) := by
  refine Keeps.bind Keeps.get fun t => Keeps.bind (createTranslation_keeps _ _ _) fun u => ?_
  refine Keeps.bind (sendAuctionEar_keeps _ _ _) fun _ => Keeps.bind (setState_keeps _) fun _ => ?_
  exact initiateTimeout_keeps _ _

theorem bidBranch_keeps (me : HandlerId) (value : BitVec 32) :
    Keeps T t₀ (bidBranch me value) := by
  refine Keeps.bind Keeps.get fun t => Keeps.ite ?_ (finish_keeps _ _)
  refine Keeps.bind (Keeps.modifySelf (fun _ => rfl) fun _ => rfl) fun _ => ?_
  refine Keeps.bind (initiateTimeout_keeps _ _) fun _ => ?_
  exact Keeps.bind (Keeps.modifySelf (fun _ => rfl) fun _ => rfl) fun _ => Keeps.pure _

theorem auctionEnd_keeps (env : Env) (me : HandlerId) : Keeps T t₀ (auctionEnd env me) := by
  have hend : Keeps T t₀ (do stop; return Exit.breaks) :=
    Keeps.bind stop_keeps fun _ => Keeps.pure _
  have htie : ∀ winners : List NodeIdentifier,
      Keeps T t₀ (do Prog.forEach winners.zipIdx (tieRound env me); stop; return Exit.breaks) :=
    fun _ => Keeps.bind (Keeps.forEach fun _ => tieRound_keeps _ _ _) fun _ => hend
  unfold auctionEnd
  refine Keeps.bind Keeps.get fun t => Keeps.ite ?_ ?_
  · exact Keeps.bind (sendMessage_keeps _ _ _) fun _ => finish_keeps _ _
  match maxBids t.self.bids with
  | [] => exact htie []
  | [winner] =>
    refine Keeps.bind (sendAuctionEar_keeps _ _ _) fun _ =>
      Keeps.bind (setState_keeps _) fun _ => ?_
    exact Keeps.bind (initiateTimeout_keeps _ _) fun _ => hend
  | first :: second :: rest => exact htie (first :: second :: rest)

theorem leaveSwitch_keeps (exit : Exit) : Keeps T t₀ (leaveSwitch exit) := by
  cases exit with
  | breaks =>
    exact Keeps.modifySelf (f := fun s => { s with message := none }) (fun _ => rfl) fun _ => rfl
  | returns => exact Keeps.pure _
  | waits => exact Keeps.pure _

theorem wake_keeps (env : Env) (me : HandlerId) : Keeps T t₀ (wake env me) := by
  refine Keeps.bind (Keeps.modifySelf (fun _ => rfl) fun _ => rfl) fun _ => ?_
  exact Keeps.bind (auctionEnd_keeps env me) fun exit => leaveSwitch_keeps exit

end Auctions

/-! ## REP and timeouts -/

section Replenishing

variable {T : Nat} {t₀ : Thread}

theorem repForward_keeps (env : Env) (me : HandlerId) : Keeps T t₀ (repForward env me) := by
  refine Keeps.bind Keeps.get fun t => Keeps.bind derefReservation_keeps fun reservation => ?_
  refine Keeps.bind (Keeps.forEach fun direction => ?_) fun _ => ?_
  · refine Keeps.bind (firstByte_keeps _) fun _ => Keeps.bind sourceFirst_keeps fun _ => ?_
    exact Keeps.bind (portTo_keeps _ _) fun _ => sendMessage_keeps _ _ _
  · refine Keeps.bind (initiateTimeout_keeps _ _) fun _ => ?_
    exact Keeps.bind stop_keeps fun _ => Keeps.pure _

theorem repBranch_keeps (env : Env) (me : HandlerId) (listenerLength : UInt8)
    (listener : ListenerArray) : Keeps T t₀ (repBranch env me listenerLength listener) := by
  refine Keeps.bind (setState_keeps _) fun _ => Keeps.bind (liftExcept_keeps _) fun address => ?_
  refine Keeps.bind Keeps.get fun t => ?_
  refine Keeps.ite ?_ (Keeps.ite (repForward_keeps env me) (finish_keeps _ _))
  refine Keeps.bind sourceFirst_keeps fun _ => Keeps.bind (portTo_keeps _ _) fun _ => ?_
  exact Keeps.bind (sendMessage_keeps _ _ _) fun _ => finish_keeps _ _

/-- `replenish_reservation` and the end of the session. The frame also holds when it throws. -/
theorem replenishAndClose_keeps :
    Triple (Thread.Inv T t₀) (do onReservation replenishReservation; setState .closed)
      (fun _ => Thread.Inv T t₀) (Thread.Inv T t₀) := by
  refine Triple.bind ((onReservation_keeps replenishReservation_keeps).weaken (fun _ ht => ht)
    fun _ _ ht => ht.1) fun _ => Triple.modify ?_
  intro t ht
  exact ⟨⟨⟨ht.table, ht.valid, ht.confined, ht.sends⟩, ht.store, ht.uuid⟩, ht.pointer⟩

theorem rollback_keeps :
    Triple (Thread.Inv T t₀) rollback (fun _ => Thread.Inv T t₀) (Thread.Inv T t₀) := by
  refine Triple.bind (Triple.get fun _ ht => ht) fun t => Triple.ite (fun _ => ?_) fun _ => ?_
  · refine Triple.bind (Triple.modify ?_) fun _ => replenishAndClose_keeps
    intro t ht
    exact ⟨⟨⟨ht.table, ht.valid, ht.confined, ht.sends⟩, ht.store, ht.uuid⟩, ht.pointer⟩
  · exact Triple.pure fun _ ht => ht

theorem onTimeout_keeps (type : TimeoutType) :
    Triple (Thread.Inv T t₀) (onTimeout type) (fun _ => Thread.Inv T t₀) (Thread.Inv T t₀) := by
  cases type with
  | ear => exact rollback_keeps
  | mar => exact rollback_keeps
  | bid => exact rollback_keeps
  | auct => exact Triple.pure fun _ ht => ht
  | rep =>
    refine Triple.bind (Triple.get fun _ ht => ht) fun t => Triple.ite (fun _ => ?_) fun _ => ?_
    · exact replenishAndClose_keeps
    · exact Triple.pure fun _ ht => ht

end Replenishing

/-! ## ACC and REF -/

/-- The key of the handler and its UUID after an ACC. -/
def Thread.Accepted (t₀ t : Thread) : Prop :=
  (t.store = t₀.store ∧ t.self.uuid = t₀.self.uuid) ∨
    (t₀.translationTable.find? t₀.self.uuid = some t.self.uuid ∧
      t₀.store.contains t₀.self.uuid = true ∧
      t.store = t₀.store.rename t₀.self.uuid t.self.uuid)

/-- The key of the handler and its UUID after a REF. -/
structure Thread.Refused (t₀ t : Thread) : Prop where
  store : t.store = t₀.store ∨ t.store = t₀.store.erase t₀.self.uuid
  uuid : t.self.uuid = t₀.self.uuid ∨
    t₀.translationTable.find? t₀.self.uuid = some t.self.uuid

/-- What a message does to the store and to the UUID of its handler. -/
def Thread.Filed (message : Message) (t₀ t : Thread) : Prop :=
  match message with
  | .acc .. => Thread.Accepted t₀ t
  | .ref .. => Thread.Refused t₀ t
  | .ear .. | .mar .. | .bid .. | .rep .. => t.store = t₀.store ∧ t.self.uuid = t₀.self.uuid

section Replies

variable {T : Nat} {t₀ : Thread}

theorem Thread.Frame.refl {t : Thread} (hv : t.resources.Valid) : Thread.Frame T t t where
  table _ _ h := Or.inl h
  valid := hv
  confined := Resources.Confined.refl T t.resources
  sends := List.prefix_rfl
  store := rfl
  uuid := rfl

theorem pastNodePort_keeps (env : Env) : Keeps T t₀ (pastNodePort env) := by
  refine Keeps.bind derefReservation_keeps fun r => Keeps.ite ?_ (Keeps.pure _)
  exact Keeps.bind (firstByte_keeps _) fun _ => Keeps.pure _

theorem accRelay_keeps (env : Env) : Keeps T t₀ (accRelay env) := by
  unfold accRelay
  refine Keeps.bind Keeps.get fun t => Keeps.bind (pastNodePort_keeps env) fun port => ?_
  cases port with
  | none => exact Keeps.bind stop_keeps fun _ => Keeps.pure _
  | some target =>
    refine Keeps.bind (sendMessage_keeps _ _ _) fun _ => Keeps.bind (setState_keeps _) fun _ => ?_
    refine Keeps.bind (addNextNode_keeps _) fun _ => ?_
    exact Keeps.bind stop_keeps fun _ => Keeps.pure _

/-- The handler filed under the original of its UUID. -/
def Thread.filedAs (original : UUIDv4) (t : Thread) : Thread :=
  { t with
    store := t.store.rename t.self.uuid original
    self := { t.self with uuid := original } }

theorem rekeyToOriginal_keeps {original : UUIDv4} :
    Triple (Thread.Inv T t₀) (rekeyToOriginal original)
      (fun _ t => t₀.store.contains t₀.self.uuid = true ∧ Thread.Inv T (t₀.filedAs original) t)
      (Thread.Frame T t₀) := by
  intro t ht
  simp only [rekeyToOriginal, run_bind, run_get]
  by_cases hc : t.store.contains t.self.uuid = true
  · rw [hc, ensure_true]
    simp only [run_pure, run_modify]
    rw [ht.store, ht.uuid] at hc
    refine ⟨hc, ⟨⟨ht.table, ht.valid, ht.confined, ht.sends⟩, ?_, rfl⟩, ht.pointer⟩
    simp only [Thread.filedAs, ht.store, ht.uuid]
  · rw [Bool.not_eq_true] at hc
    rw [hc]
    exact ht.toFrame

theorem Thread.Frame.accepted {t : Thread} (h : Thread.Frame T t₀ t) :
    Thread.Tame T t₀ t ∧ Thread.Accepted t₀ t :=
  ⟨h.toTame, Or.inl ⟨h.store, h.uuid⟩⟩

theorem Thread.Frame.accepted_filedAs {original : UUIDv4} {t : Thread}
    (horig : t₀.translationTable.find? t₀.self.uuid = some original)
    (hc : t₀.store.contains t₀.self.uuid = true) (h : Thread.Frame T (t₀.filedAs original) t) :
    Thread.Tame T t₀ t ∧ Thread.Accepted t₀ t := by
  have hu : t.self.uuid = original := h.uuid
  refine ⟨⟨h.table, h.valid, h.confined, h.sends⟩, Or.inr ⟨?_, hc, ?_⟩⟩
  · rw [hu]
    exact horig
  · rw [hu]
    exact h.store

theorem accBranch_filed (env : Env) :
    Triple (fun t => t = t₀ ∧ Thread.Inv T t₀ t) (accBranch env)
      (fun _ t => (Thread.Tame T t₀ t ∧ Thread.Accepted t₀ t) ∧
        t.self.reservation.Ok T t.resources)
      (fun t => Thread.Tame T t₀ t ∧ Thread.Accepted t₀ t) := by
  have hkeep : ∀ {p : ThreadM Exit}, Keeps T t₀ p → Triple (Thread.Inv T t₀) p
      (fun _ t => (Thread.Tame T t₀ t ∧ Thread.Accepted t₀ t) ∧ t.self.reservation.Ok T t.resources)
      (fun t => Thread.Tame T t₀ t ∧ Thread.Accepted t₀ t) := fun h =>
    (h.weaken (fun _ ht => ht) fun _ _ ht => ⟨ht.toFrame.accepted, ht.pointer⟩).weakenFault
      fun _ ht => ht.accepted
  unfold accBranch
  refine Triple.bind (Q := fun a t => a = t₀ ∧ Thread.Inv T t₀ t)
    (Triple.get fun t ht => ht) fun t₁ => ?_
  rintro t ⟨rfl, ht⟩
  revert t
  show Triple (Thread.Inv T t₁) _ _ _
  refine Triple.ite (fun _ => hkeep (Keeps.bind stop_keeps fun _ => Keeps.pure _)) fun _ => ?_
  refine Triple.bind ((Keeps.onReservation markReservation_keeps).weakenFault
    fun _ ht => ht.accepted) fun _ => ?_
  rcases horig : t₁.translationTable.find? t₁.self.uuid with _ | original
  · refine hkeep (Keeps.ite ?_ (accRelay_keeps env))
    refine Keeps.bind (communicateResult_keeps _ _) fun _ => ?_
    exact Keeps.bind (addNextNode_keeps _) fun _ => finish_keeps _ _
  · refine Triple.bind (rekeyToOriginal_keeps.weakenFault fun _ ht => ht.accepted) fun _ => ?_
    rintro t ⟨hc, ht⟩
    have h := accRelay_keeps env t ht
    rcases hr : (accRelay env).run t with ⟨r, t'⟩
    rw [hr] at h
    cases r with
    | ok exit => exact ⟨Thread.Frame.accepted_filedAs horig hc h.toFrame, h.pointer⟩
    | error e => exact Thread.Frame.accepted_filedAs horig hc h

/-- `isPreReserving` reads only. -/
theorem isPreReserving_pure (t : Thread) (handler : Handler) :
    Triple (fun t => t = t₀) (isPreReserving t handler) (fun _ t => t = t₀) (fun t => t = t₀) := by
  unfold isPreReserving
  rcases handler.reservation with _ | address | r
  · exact Triple.pure fun _ h => h
  · refine Triple.bind (Triple.require (fun _ _ _ h => h) fun _ h => h) fun _ => ?_
    exact Triple.pure fun _ h => h
  · exact Triple.pure fun _ h => h

/-- (F.1) ends only where nothing is erased. -/
theorem refErase_base (me : HandlerId) (peers : List Handler) :
    Triple (fun t => t = t₀) (refErase me peers) (fun _ t => t = t₀)
      (fun t => t = t₀ ∨ t = { t₀ with store := t₀.store.erase t₀.self.uuid }) := by
  refine Triple.bind (Q := fun _ t => t = t₀) (Triple.get fun _ h => h) fun t₁ => ?_
  rcases t₁.store.find? t₁.self.uuid with _ | h
  · exact Triple.pure fun _ h => h
  · refine Triple.bind ((isPreReserving_pure t₁ _).weakenFault fun _ => Or.inl)
      fun preReserving => ?_
    refine Triple.ite (fun _ => ?_) fun _ => Triple.pure fun _ h => h
    refine Triple.bind (Q := fun _ t => t = { t₀ with store := t₀.store.erase t₀.self.uuid })
      (Triple.modify ?_) fun _ => Triple.fault_intro fun _ => Or.inr
    rintro t rfl
    rfl

theorem refErase_ok {me : HandlerId} {peers : List Handler} {t t' : Thread} {a : Unit}
    (hrun : (refErase me peers).run t = (.ok a, t')) : t' = t :=
  (refErase_base me peers).ok rfl hrun

theorem sourcePort_keeps (env : Env) : Keeps T t₀ (sourcePort env) := by
  refine Keeps.bind Keeps.get fun _ => Keeps.ite ?_ (Keeps.pure _)
  exact Keeps.bind sourceFirst_keeps fun _ => Keeps.pure _

theorem refRelay_keeps (env : Env) : Keeps T t₀ (refRelay env) := by
  unfold refRelay
  refine Keeps.bind Keeps.get fun t => Keeps.bind (sourcePort_keeps env) fun port => ?_
  cases port with
  | none => exact Keeps.bind stop_keeps fun _ => Keeps.pure _
  | some target => exact Keeps.bind (sendMessage_keeps _ _ _) fun _ => finish_keeps _ _

theorem removeAsOrigin_keeps (uuid : UUIDv4) : Keeps T t₀ (removeAsOrigin uuid) := by
  refine Triple.modify ?_
  intro t ht
  exact ⟨⟨⟨ht.table, ht.valid, ht.confined, ht.sends⟩, ht.store, ht.uuid⟩, ht.pointer⟩

/-- (F.2) takes the original of the UUID at most. -/
theorem refReply_filed (env : Env) :
    Triple (fun t => t = t₀ ∧ Thread.Inv T t₀ t) (refReply env)
      (fun _ t => (Thread.Tame T t₀ t ∧ t.store = t₀.store ∧ (t.self.uuid = t₀.self.uuid ∨
        t₀.translationTable.find? t₀.self.uuid = some t.self.uuid)) ∧
        t.self.reservation.Ok T t.resources)
      (fun t => Thread.Tame T t₀ t ∧ t.store = t₀.store ∧ (t.self.uuid = t₀.self.uuid ∨
        t₀.translationTable.find? t₀.self.uuid = some t.self.uuid)) := by
  have hkept : ∀ {t : Thread}, Thread.Frame T t₀ t → Thread.Tame T t₀ t ∧ t.store = t₀.store ∧
      (t.self.uuid = t₀.self.uuid ∨
        t₀.translationTable.find? t₀.self.uuid = some t.self.uuid) := fun h =>
    ⟨h.toTame, h.store, Or.inl h.uuid⟩
  have hkeep : ∀ {p : ThreadM Exit}, Keeps T t₀ p → Triple (Thread.Inv T t₀) p
      (fun _ t => (Thread.Tame T t₀ t ∧ t.store = t₀.store ∧ (t.self.uuid = t₀.self.uuid ∨
        t₀.translationTable.find? t₀.self.uuid = some t.self.uuid)) ∧
        t.self.reservation.Ok T t.resources)
      (fun t => Thread.Tame T t₀ t ∧ t.store = t₀.store ∧ (t.self.uuid = t₀.self.uuid ∨
        t₀.translationTable.find? t₀.self.uuid = some t.self.uuid)) := fun h =>
    (h.weaken (fun _ ht => ht) fun _ _ ht => ⟨hkept ht.toFrame, ht.pointer⟩).weakenFault
      fun _ ht => hkept ht
  rintro t ⟨rfl, ht⟩
  rw [refReply, bind_ok (run_get t)]
  rcases horig : t.translationTable.find? t.self.uuid with _ | original
  · rw [horig] at hkeep hkept
    refine hkeep (Keeps.ite ?_ (refRelay_keeps env)) t ht
    refine Keeps.bind (communicateResult_keeps _ _) fun _ => ?_
    exact Keeps.bind (removeAsOrigin_keeps _) fun _ => finish_keeps _ _
  · -- From here on the frame is the one of the state with the original UUID.
    let t₁ : Thread := { t with
      translationTable := t.translationTable.erase t.self.uuid
      self := { t.self with uuid := original } }
    have hinv : Thread.Inv T t₁ t₁ := ⟨Thread.Frame.refl ht.valid, ht.pointer⟩
    have hlift : ∀ {s : Thread}, Thread.Frame T t₁ s → Thread.Tame T t s ∧ s.store = t.store ∧
        (s.self.uuid = t.self.uuid ∨ some original = some s.self.uuid) := by
      intro s hs
      refine ⟨⟨?_, hs.valid, hs.confined, hs.sends⟩, hs.store, Or.inr (congrArg some hs.uuid.symm)⟩
      intro k v hkv
      refine (hs.table k v hkv).imp_left ?_
      intro hold
      have hold' : (t.translationTable.erase t.self.uuid).find? k = some v := hold
      rw [OrdMap.find?_erase] at hold'
      split_ifs at hold'
      exact hold'
    have hend : Keeps T t₁ (do
        let t ← Prog.get
        if t.translationTable.contains t.self.uuid then refRelay env
        else do setState .closed; stop; return Exit.breaks) :=
      Keeps.bind Keeps.get fun _ => Keeps.ite (refRelay_keeps env) (finish_keeps _ _)
    have htriple := ((hend.weaken (fun _ h => h) fun _ _ hs =>
      (⟨hlift hs.toFrame, hs.pointer⟩ : _ ∧ _)).weakenFault fun _ hs => hlift hs) t₁ hinv
    exact htriple

theorem refBranch_filed (env : Env) (me : HandlerId) (peers : List Handler) :
    Triple (fun t => t = t₀ ∧ Thread.Inv T t₀ t) (refBranch env me peers)
      (fun _ t => (Thread.Tame T t₀ t ∧ Thread.Refused t₀ t) ∧ t.self.reservation.Ok T t.resources)
      (fun t => Thread.Tame T t₀ t ∧ Thread.Refused t₀ t) := by
  rintro t ⟨rfl, ht⟩
  refine Triple.bind (P := fun s => s = t) ((refErase_base me peers).weakenFault ?_) ?_ t rfl
  · have hframe : Thread.Frame T t t := Thread.Frame.refl ht.valid
    rintro s (rfl | rfl)
    · exact ⟨hframe.toTame, Or.inl rfl, Or.inl rfl⟩
    · exact ⟨⟨hframe.table, hframe.valid, hframe.confined, hframe.sends⟩, Or.inr rfl, Or.inl rfl⟩
  rintro - t₁ rfl
  exact (((refReply_filed env).weaken (fun _ h => h) fun _ _ hs =>
    (⟨⟨hs.1.1, Or.inl hs.1.2.1, hs.1.2.2⟩, hs.2⟩ : _ ∧ _)).weakenFault
      fun _ hs => ⟨hs.1, Or.inl hs.2.1, hs.2.2⟩) t₁ ⟨rfl, ht⟩

end Replies

/-! ## A round of `Handler::operator()` -/

section Round

variable {T : Nat} {t₀ : Thread}

/-- A thread whose reservation was looked up. -/
def Thread.loaded (resources : Resources) (pointer : ReservationPtr) (t : Thread) : Thread :=
  { t with
    resources := resources
    self := { t.self with reservation := pointer } }

/-- `get_reservation_for` is the only change before the message switch. -/
theorem loadReservation_run (env : Env) {t : Thread} (hT : timestamp t.self.uuid = T)
    (hv : t.resources.Valid) :
    ∃ resources pointer,
      (loadReservation env).run t = (.ok (), t.loaded resources pointer) ∧
      resources.Valid ∧ Resources.Confined T t.resources resources ∧ pointer.Ok T resources := by
  have h := getReservationFor_keeps t.resources env.ulid hT
    ⟨t.resources, t.self.reservation⟩ ⟨hv, Resources.Confined.refl T _⟩
  rcases hr : (getReservationFor env.ulid t.self.uuid).run ⟨t.resources, t.self.reservation⟩ with
    ⟨r, held⟩
  rw [hr] at h
  cases r with
  | ok pointer =>
    refine ⟨held.resources, pointer, ?_, h.1.valid, h.1.confined, h.2⟩
    simp only [loadReservation, onReservation, zoom, setReservation, modifySelf, run_bind, run_get,
      run_modify, hr, Thread.loaded]
  | error e => exact h.elim

/-- The check of the loaded reservation changes nothing. -/
theorem checkReservation_pure :
    Triple (fun t => t = t₀) checkReservation (fun _ t => t = t₀) (fun t => t = t₀) := by
  rintro t rfl
  simp only [checkReservation, onReservation, zoom, deref, run_bind, run_get]
  by_cases hnull : t.self.reservation = .null
  · rw [if_pos hnull]
    rfl
  rw [if_neg hnull]
  simp only [run_bind]
  rcases Held.read _ with e | r
  · rfl
  · dsimp only
    rcases decide (r.listenerLength ≤ 7) with _ | _
    · rfl
    · rfl

theorem Thread.Frame.filed_kept {t : Thread} (h : Thread.Frame T t₀ t) (message : Message)
    (hm : ∀ v u, message ≠ .acc v u ∧ message ≠ .ref v u) :
    Thread.Tame T t₀ t ∧ Thread.Filed message t₀ t := by
  refine ⟨h.toTame, ?_⟩
  cases message with
  | acc v u => exact absurd rfl (hm v u).1
  | ref v u => exact absurd rfl (hm v u).2
  | ear v u r => exact ⟨h.store, h.uuid⟩
  | mar v u r => exact ⟨h.store, h.uuid⟩
  | bid v u value => exact ⟨h.store, h.uuid⟩
  | rep v u length reserved listener => exact ⟨h.store, h.uuid⟩

theorem messageSwitch_filed (env : Env) (me : HandlerId) (peers : List Handler)
    (message : Message) (hT : timestamp t₀.self.uuid = T) :
    Triple (fun t => t = t₀ ∧ Thread.Inv T t₀ t) (messageSwitch env me peers message)
      (fun _ t => (Thread.Tame T t₀ t ∧ Thread.Filed message t₀ t) ∧
        t.self.reservation.Ok T t.resources)
      (fun t => Thread.Tame T t₀ t ∧ Thread.Filed message t₀ t) := by
  have hkeep : ∀ {p : ThreadM Exit}, (∀ v u, message ≠ .acc v u ∧ message ≠ .ref v u) →
      Keeps T t₀ p → Triple (fun t => t = t₀ ∧ Thread.Inv T t₀ t) p
        (fun _ t => (Thread.Tame T t₀ t ∧ Thread.Filed message t₀ t) ∧
          t.self.reservation.Ok T t.resources)
        (fun t => Thread.Tame T t₀ t ∧ Thread.Filed message t₀ t) := fun hm h =>
    (h.weaken (fun _ ht => ht.2) fun _ _ ht =>
      ⟨ht.toFrame.filed_kept message hm, ht.pointer⟩).weakenFault
      fun _ ht => ht.filed_kept message hm
  cases message with
  | ear v u r => exact hkeep (by simp) (earBranch_keeps hT env me peers u r)
  | mar v u r => exact hkeep (by simp) (marBranch_keeps hT env me r)
  | bid v u value => exact hkeep (by simp) (bidBranch_keeps me value)
  | acc v u => exact accBranch_filed env
  | ref v u => exact refBranch_filed env me peers
  | rep v u length reserved listener =>
    exact hkeep (by simp) (repBranch_keeps env me length listener)

/-- Dropping the message changes nothing else. -/
theorem leaveSwitch_run (exit : Exit) (t : Thread) :
    ∃ message, (leaveSwitch exit).run t = (.ok (), { t with self := { t.self with
      message := message } }) := by
  cases exit with
  | breaks => exact ⟨none, rfl⟩
  | returns => exact ⟨t.self.message, rfl⟩
  | waits => exact ⟨t.self.message, rfl⟩

/-- **A round of a handler stays within its session.** -/
theorem operatorCall_filed (env : Env) (me : HandlerId) (peers : List Handler) (message : Message)
    (hT : timestamp t₀.self.uuid = T) (hv : t₀.resources.Valid) :
    Triple (fun t => t = t₀) (operatorCall env me peers message)
      (fun _ t => (Thread.Tame T t₀ t ∧ Thread.Filed message t₀ t) ∧
        t.self.reservation.Ok T t.resources)
      (fun t => Thread.Tame T t₀ t ∧ Thread.Filed message t₀ t) := by
  obtain ⟨resources, pointer, hload, hvalid, hconf, hptr⟩ := loadReservation_run env hT hv
  -- What holds relative to the loaded state holds relative to the one before.
  have hlift : ∀ {t : Thread}, Thread.Tame T (t₀.loaded resources pointer) t ∧
      Thread.Filed message (t₀.loaded resources pointer) t →
      Thread.Tame T t₀ t ∧ Thread.Filed message t₀ t := by
    rintro t ⟨h, hf⟩
    refine ⟨⟨h.table, h.valid, hconf.trans h.confined, h.sends⟩, ?_⟩
    cases message with
    | ref v u => exact ⟨hf.store, hf.uuid⟩
    | acc v u | ear v u r | mar v u r | bid v u value | rep v u length reserved listener => exact hf
  have hframe : Thread.Frame T (t₀.loaded resources pointer) (t₀.loaded resources pointer) :=
    Thread.Frame.refl hvalid
  have hstart : Thread.Tame T t₀ (t₀.loaded resources pointer) ∧
      Thread.Filed message t₀ (t₀.loaded resources pointer) := by
    refine hlift ⟨hframe.toTame, ?_⟩
    cases message with
    | ref v u => exact ⟨Or.inl rfl, Or.inl rfl⟩
    | acc v u => exact Or.inl ⟨rfl, rfl⟩
    | ear v u r | mar v u r | bid v u value | rep v u length reserved listener => exact ⟨rfl, rfl⟩
  rintro t rfl
  rw [operatorCall, bind_ok hload]
  refine Triple.bind (checkReservation_pure.weakenFault ?_) (fun _ => ?_) _ rfl
  · rintro s rfl
    exact hstart
  have hswitch : Triple (fun s => s = t.loaded resources pointer)
      (messageSwitch env me peers message)
      (fun _ s => (Thread.Tame T t s ∧ Thread.Filed message t s) ∧
        s.self.reservation.Ok T s.resources)
      (fun s => Thread.Tame T t s ∧ Thread.Filed message t s) := by
    have hT' : timestamp (t.loaded resources pointer).self.uuid = T := hT
    refine ((messageSwitch_filed env me peers message hT').weaken ?_ ?_).weakenFault ?_
    · rintro s rfl
      exact ⟨rfl, hframe, hptr⟩
    · rintro _ s ⟨h, hp⟩
      exact ⟨hlift h, hp⟩
    · rintro s h
      exact hlift h
  refine Triple.bind hswitch fun exit => ?_
  rintro s ⟨⟨h, hf⟩, hp⟩
  obtain ⟨m, hm⟩ := leaveSwitch_run exit s
  rw [hm]
  refine ⟨⟨⟨h.table, h.valid, h.confined, h.sends⟩, ?_⟩, hp⟩
  cases message with
  | ref v u => exact ⟨hf.store, hf.uuid⟩
  | acc v u | ear v u r | mar v u r | bid v u value | rep v u length reserved listener => exact hf

end Round

end Rankd

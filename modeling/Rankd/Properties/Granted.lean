import Rankd.Node.Ending
import Rankd.Node.Session

/-!
# Reservations that are granted

A handler that is `RESERVED` takes any message but a new request, and the branches do not agree on
what that means. ACC and the timeouts check for `RESERVED` and leave the session alone; BID closes
the handler, and REF closes it unless there is no way to the source. An EAR without payload is
assessed again. `reserved_kept_iff` says for which messages and timers the handler stays `RESERVED`
and its reservation granted.
-/

namespace Rankd

open Infra Prog

/-- The reservation at the address is granted. -/
def Resources.Granted (a : Nat) (R : Resources) : Prop :=
  ∃ x, ReservationList.lookup R.reservations a = some x ∧ x.state = .reserved

section Reservations

variable {a b : Nat} {R : Resources} {s s' : Held} {x y : Reservation}

theorem Resources.Granted.put (h : R.Granted a)
    (hx : ReservationList.lookup R.reservations b = some x)
    (hy : x.state = .reserved → y.state = .reserved) : (R.put b y).Granted a := by
  obtain ⟨z, hz, hstate⟩ := h
  by_cases hab : a = b
  · subst hab
    rw [hx] at hz
    cases hz
    exact ⟨y, ReservationList.lookup_update (f := fun _ => y) hx, hy hstate⟩
  · exact ⟨z, (ReservationList.lookup_update_ne (f := fun _ => y) hab).trans hz, hstate⟩

theorem Resources.Granted.push (h : R.Granted a) : (R.push x).Granted a := by
  obtain ⟨z, hz, hstate⟩ := h
  exact ⟨z, ReservationList.lookup_append hz, hstate⟩

/-- A state changer that a granted reservation does not allow. -/
theorem changeAt_granted {f : Reservation → Option Reservation}
    (hf : ∀ x, x.state = .reserved → f x = none)
    (h : s.resources.Granted a) (hrun : (changeAt b f).run s = (.ok (), s')) :
    s'.resources.Granted a ∧ s'.pointer = s.pointer := by
  obtain ⟨x, y, hl, hy, rfl⟩ := changeAt_ok hrun
  refine ⟨h.put hl ?_, rfl⟩
  intro hx
  rw [hf x hx] at hy
  cases hy

theorem markItem_reserved (x : Reservation) (h : x.state = .reserved) : markItem x = none := by
  simp [markItem, Reservation.markReserved, h]

/-- `mark_reservation` leaves what is granted, or fails. -/
theorem markLoop_granted {l : List Nat} {found found' : Bool} (h : s.resources.Granted a)
    (hrun : (markLoop l found).run s = (.ok found', s')) : s'.resources.Granted a := by
  induction l generalizing s found with
  | nil =>
    cases hrun
    exact h
  | cons b rest ih =>
    rw [markLoop] at hrun
    obtain ⟨r, s₁, hr, hrun₁⟩ := bind_eq_ok.mp hrun
    obtain ⟨-, rfl⟩ := Prod.mk.inj hr
    obtain ⟨item, s₂, hitem, hrun₂⟩ := bind_eq_ok.mp hrun₁
    obtain rfl := (itemAt_ok hitem).1
    split_ifs at hrun₂
    · obtain ⟨⟨⟩, s₃, hchange, hrun₃⟩ := bind_eq_ok.mp hrun₂
      exact ih (changeAt_granted markItem_reserved h hchange).1 hrun₃
    · exact ih h hrun₂

theorem markReservation_granted (h : s.resources.Granted a)
    (hrun : markReservation.run s = (.ok (), s')) : s'.resources.Granted a := by
  rw [markReservation, bind_ok (run_get s)] at hrun
  obtain ⟨found, s₁, hloop, hrest⟩ := bind_eq_ok.mp hrun
  have h₁ := markLoop_granted h hloop
  split_ifs at hrest
  · cases hrest
    exact h₁
  · rw [changeThrough] at hrest
    obtain ⟨r, s₂, hread, hrest₁⟩ := bind_eq_ok.mp hrest
    obtain ⟨hr, rfl⟩ := Prod.mk.inj hread
    rcases hy : r.reserve with _ | y
    · rw [hy] at hrest₁
      cases hrest₁
    rw [hy, require_some, pure_bind, writeThrough, bind_ok hread, run_modify] at hrest₁
    cases hrest₁
    obtain ⟨resources, pointer⟩ := s₁
    cases pointer with
    | null => exact h₁
    | own z => exact h₁
    | listed b =>
      simp only [Held.read] at hr
      rcases hl : ReservationList.lookup resources.reservations b with _ | z
      · rw [hl] at hr
        cases hr
      · rw [hl] at hr
        cases hr
        refine h₁.put hl ?_
        intro hz
        simp [Reservation.reserve, hz] at hy

end Reservations

/-! ## Rounds of a handler that is reserved -/

section Rounds

variable {env : Env} {me : HandlerId} {peers : List Handler} {t t' : Thread} {a : Nat} {exit : Exit}

/-- A round starts with a lookup that leaves what is granted. -/
theorem loadReservation_granted (env : Env) (hv : t.resources.Valid) : ∃ R p,
    (loadReservation env).run t = (.ok (), t.loaded R p) ∧
      ∀ a, t.resources.Granted a → R.Granted a := by
  rcases hf : t.resources.reservations.find?
    (fun e => isSameTimestamp env.ulid e.2.uuid t.self.uuid) with _ | ⟨b, x⟩
  · exact ⟨t.resources, .null, loadReservation_none hf, fun a h => h⟩
  · have hlookup : ReservationList.lookup t.resources.reservations b = some x :=
      ReservationList.lookup_of_mem hv.nodup (List.mem_of_find?_eq_some hf)
    exact ⟨_, _, loadReservation_some hv hf, fun a h => h.put hlookup id⟩

/-- A REF that does not close the handler: it goes on to the source, and there is no way to it. -/
def Handler.RefStays (env : Env) (shared : Shared) (s : Handler) : Prop :=
  s.sourceIdentifier.1.head?.bind (portInTopology env) = none ∧
    match shared.translationTable.find? s.uuid with
    | some original => (shared.translationTable.erase s.uuid).contains original = true
    | none => shared.originSet.contains s.uuid = false

/-- The state after a REF went on to the source. -/
theorem refRelay_state (hs : t.self.state = .reserved)
    (hrun : (refRelay env).run t = (.ok exit, t')) : t'.self.state = .reserved ↔
      t.self.sourceIdentifier.1.head?.bind (portInTopology env) = none := by
  rw [refRelay, bind_ok (run_get t)] at hrun
  obtain ⟨port, t₁, hport, hrest⟩ := bind_eq_ok.mp hrun
  rw [sourcePort, bind_ok (run_get t)] at hport
  split_ifs at hport with htype
  · obtain ⟨b, t₂, hfirst, hpure⟩ := bind_eq_ok.mp hport
    obtain ⟨rfl, hhead⟩ := sourceFirst_ok hfirst
    cases hpure
    rw [hhead, Option.bind_some]
    rcases hp : portInTopology env b with _ | target
    · simp only [hp] at hrest
      cases hrest
      exact ⟨fun _ => rfl, fun _ => hs⟩
    · simp only [hp] at hrest
      obtain ⟨⟨⟩, t₃, hsend, hend⟩ := bind_eq_ok.mp hrest
      cases hend
      exact ⟨(by simp), (by simp)⟩
  · -- Without a simulated source the target is empty.
    cases hport
    obtain ⟨⟨⟩, t₃, hsend, -⟩ := bind_eq_ok.mp hrest
    exact absurd rfl (sendMessage_ok hsend).1

theorem refReply_state (hs : t.self.state = .reserved)
    (hrun : (refReply env).run t = (.ok exit, t')) :
    t'.self.state = .reserved ↔ t.self.RefStays env t.toShared := by
  unfold Handler.RefStays
  rw [refReply, bind_ok (run_get t)] at hrun
  rcases ht : t.translationTable.find? t.self.uuid with _ | original
  · simp only [ht] at hrun ⊢
    split_ifs at hrun with horigin
    · cases hrun
      refine ⟨(by simp), ?_⟩
      rintro ⟨-, hno⟩
      rw [hno] at horigin
      cases horigin
    · rw [refRelay_state hs hrun]
      exact ⟨fun h => ⟨h, Bool.not_eq_true _ ▸ horigin⟩, fun h => h.1⟩
  · simp only [ht] at hrun ⊢
    obtain ⟨⟨⟩, t₁, hmodify, hrest⟩ := bind_eq_ok.mp hrun
    cases hmodify
    rw [bind_ok (run_get _)] at hrest
    split_ifs at hrest with hleft
    · rw [refRelay_state (t := t.untranslated original) hs hrest]
      exact ⟨fun h => ⟨h, hleft⟩, fun h => h.1⟩
    · cases hrest
      refine ⟨(by simp), ?_⟩
      rintro ⟨-, hin⟩
      exact absurd hin hleft

/-- On the way to the listener a handler is not reserved. -/
theorem earForward_state {address : Bytes}
    (hrun : (earForward env me address).run t = (.ok exit, t')) :
    t'.self.state ≠ .reserved := by
  rw [earForward] at hrun
  obtain ⟨target, t₁, -, hrun₁⟩ := bind_eq_ok.mp hrun
  rw [bind_ok (run_get t₁)] at hrun₁
  split at hrun₁
  · obtain ⟨⟨⟩, t₂, -, hrest⟩ := bind_eq_ok.mp hrun₁
    cases hrest
    intro h
    cases h
  · obtain ⟨x, t₂, -, hrun₂⟩ := bind_eq_ok.mp hrun₁
    obtain ⟨⟨⟩, t₃, -, hrun₃⟩ := bind_eq_ok.mp hrun₂
    obtain ⟨R, p, rfl⟩ := forwarded_ok hrun₃
    intro h
    cases h
  · obtain ⟨⟨⟩, t₂, -, hrun₂⟩ := bind_eq_ok.mp hrun₁
    obtain ⟨⟨⟩, t₃, -, hrun₃⟩ := bind_eq_ok.mp hrun₂
    obtain ⟨R, p, rfl⟩ := forwarded_ok hrun₃
    intro h
    cases h

/-- An EAR without payload that is assessed again, and granted again. -/
def Handler.EarStays (env : Env) (r : Request) (s : Handler) : Prop :=
  ∃ address capabilities, listenerAddress env r.listenerLength r.listener = .ok address ∧
    iAmListener env r.listenerLength address = true ∧
    env.unmarshal r.payload = .ok capabilities ∧
    env.assessment.admits r.priority (builtReservation s.uuid r address capabilities) = true

/-- The listener grants a request that it can perform, and leaves what is granted. -/
theorem earListener_granted {r : Request} {address : Bytes} {capabilities : RequestingCapabilities}
    (hrun : (earListener env r).run (t.built r address capabilities) = (.ok exit, t')) :
    (t'.self.state = .reserved ↔ env.assessment.admits r.priority
      (builtReservation t.self.uuid r address capabilities) = true) ∧
      ∀ a, t.resources.Granted a → t'.resources.Granted a := by
  rcases ha : env.assessment.admits r.priority
    (builtReservation t.self.uuid r address capabilities) with _ | _
  · obtain ⟨-, pointer, target, -, rfl⟩ := earListener_refused ha hrun
    exact ⟨⟨(fun h => by cases h), (by simp)⟩, fun a h => h⟩
  · have havail := availableForPerformance_admitted (R := t.resources) ha
    rw [earListener, bind_ok (run_onReservation havail)] at hrun
    dsimp only at hrun
    rw [bind_ok (run_setReservation _)] at hrun
    obtain ⟨⟨⟩, t₁, hmark, hrun₁⟩ := bind_eq_ok.mp hrun
    obtain ⟨s, hs, rfl⟩ := onReservation_ok hmark
    rw [bind_ok (run_get _)] at hrun₁
    obtain ⟨target, t₂, hnear, hsend⟩ := bind_eq_ok.mp hrun₁
    obtain ⟨rfl, -⟩ := nearestToSource_ok hnear
    obtain ⟨⟨⟩, t₃, hacc, hend⟩ := bind_eq_ok.mp hsend
    obtain ⟨-, rfl⟩ := sendMessage_ok hacc
    cases hend
    refine ⟨⟨fun _ => rfl, fun _ => rfl⟩, ?_⟩
    intro a h
    exact markReservation_granted (s := ⟨t.resources.push _, _⟩) h.push hs

/-- A handler that is not the listener does not grant. -/
theorem earRelay_state {r : Request} {address : Bytes} {uuid : UUIDv4}
    (hrun : (earRelay env me peers uuid r address).run t = (.ok exit, t')) :
    t'.self.state ≠ .reserved := by
  rw [earRelay, bind_ok (run_get t)] at hrun
  split_ifs at hrun
  · rw [bind_ok (run_setReservation _)] at hrun
    exact earForward_state hrun
  obtain ⟨position, t₁, -, hrun₁⟩ := bind_eq_ok.mp hrun
  cases position with
  | none =>
    obtain ⟨⟨⟩, t₂, -, hrun₂⟩ := bind_eq_ok.mp hrun₁
    obtain ⟨⟨⟩, t₃, -, hend⟩ := bind_eq_ok.mp hrun₂
    cases hend
    simp
  | some b =>
    obtain ⟨c, t₂, -, hrun₂⟩ := bind_eq_ok.mp hrun₁
    obtain ⟨⟨⟩, t₃, -, hforward⟩ := bind_eq_ok.mp hrun₂
    exact earForward_state hforward

theorem earBranch_reserved {r : Request} {uuid : UUIDv4} (hs : t.self.state = .reserved)
    (hrun : (earBranch env me peers uuid r).run t = (.ok exit, t')) :
    (t'.self.state = .reserved ↔ t.self.EarStays env r) ∧ (t'.self.state = .reserved →
      ∀ a, t.resources.Granted a → t'.resources.Granted a) := by
  obtain ⟨address, hl, hcases⟩ := earBranch_new (by rw [hs]; nofun) hrun
  -- The address and the requirements are those of the message.
  have hstays : ∀ {capabilities : RequestingCapabilities}, env.unmarshal r.payload =
    .ok capabilities →
      (t.self.EarStays env r ↔ iAmListener env r.listenerLength address = true ∧
        env.assessment.admits r.priority
          (builtReservation t.self.uuid r address capabilities) = true) := by
    intro capabilities hu
    constructor
    · rintro ⟨address', capabilities', hl', hme, hu', hadmits⟩
      rw [hl] at hl'
      rw [hu] at hu'
      cases hl'
      cases hu'
      exact ⟨hme, hadmits⟩
    · rintro ⟨hme, hadmits⟩
      exact ⟨address, capabilities, hl, hme, hu, hadmits⟩
  rcases hcases with ⟨hno, -, rfl⟩ | ⟨capabilities, hu, ⟨hme, hbranch⟩ | ⟨hme, hbranch⟩⟩
  · refine ⟨⟨nofun, ?_⟩, nofun⟩
    rintro ⟨-, capabilities, -, -, hu, -⟩
    exact absurd hu (hno capabilities)
  · obtain ⟨hiff, hkept⟩ := earListener_granted hbranch
    refine ⟨?_, fun _ => hkept⟩
    rw [hstays hu, hiff]
    exact ⟨fun h => ⟨hme, h⟩, fun h => h.2⟩
  · have hstate := earRelay_state hbranch
    refine ⟨⟨fun h => absurd h hstate, ?_⟩, fun h => absurd h hstate⟩
    intro h
    rw [hstays hu, hme] at h
    cases h.1

/-- What leaves a handler reserved, by message. -/
def Handler.MessageStays (env : Env) (shared : Shared) (s : Handler) : Message → Prop
  | .ear _ _ r => s.EarStays env r
  | .acc .. => True
  | .ref .. => s.RefStays env shared
  | .mar .. | .bid .. | .rep .. => False

/-- **A round of a handler that is reserved.** -/
theorem operatorCall_reserved {message : Message} (hm : ∀ v u r, message ≠ .mar v u r)
    (hrep : ∀ v u l b a, message ≠ .rep v u l b a) (hv : t.resources.Valid)
    (hs : t.self.state = .reserved)
    (hrun : (operatorCall env me peers message).run t = (.ok (), t')) :
    (t'.self.state = .reserved ↔ t.self.MessageStays env t.toShared message) ∧
      (t'.self.state = .reserved → ∀ a, t.resources.Granted a → t'.resources.Granted a) := by
  obtain ⟨R, p, hload, hgranted⟩ := loadReservation_granted env hv
  obtain ⟨exit, t₂, hswitch, rfl⟩ := operatorCall_ok hload hrun
  have hstate : (t₂.left exit).self.state = t₂.self.state := by
    cases exit <;> rfl
  have hresources : (t₂.left exit).resources = t₂.resources := by
    cases exit <;> rfl
  rw [hstate, hresources]
  cases message with
  | ear v u r =>
    obtain ⟨hiff, hkept⟩ := earBranch_reserved (t := t.loaded R p) hs hswitch
    exact ⟨hiff, fun h a ha => hkept h a (hgranted a ha)⟩
  | mar v u r => exact absurd rfl (hm v u r)
  | bid v u value =>
    rw [messageSwitch,
      bidBranch_unexpected (by rw [show (t.loaded R p).self.state = _ from hs]; simp)]
      at hswitch
    cases hswitch
    exact ⟨⟨(fun h => by cases h), (fun h => by cases h)⟩, (fun h => by cases h)⟩
  | acc v u =>
    rw [messageSwitch, accBranch_repeated (t := t.loaded R p) hs] at hswitch
    cases hswitch
    exact ⟨⟨fun _ => trivial, fun _ => hs⟩, fun _ => hgranted⟩
  | ref v u =>
    rw [messageSwitch, refBranch] at hswitch
    obtain ⟨⟨⟩, t₃, herase, hreply⟩ := bind_eq_ok.mp hswitch
    cases refErase_ok herase
    have hiff := refReply_state (t := t.loaded R p) hs hreply
    refine ⟨hiff, fun _ a ha => ?_⟩
    rw [(refReply_ok hreply).2.resources]
    exact hgranted a ha
  | rep v u l b a => exact absurd rfl (hrep v u l b a)

end Rounds

/-! ## The steps of a node -/

/-- The messages and timers that should leave a session alone. -/
def Action.Sparing (T : Nat) : Action → Prop
  | .receive message _ => timestamp message.uuid = T ∧ ∀ v u l b a, message ≠ .rep v u l b a
  | .timeout _ type => type ≠ .rep
  | .wake _ | .markOrigin _ _ => False

/-- The handler is still reserved, and its reservation is still granted. -/
def Node.StillReserved (h : HandlerId) (n n' : Node) : Prop :=
  (n'.handler h).state = .reserved ∧ ∀ a, (n.handler h).reservation = .listed a →
    n.resources.Granted a → n'.resources.Granted a

/--
What leaves a handler reserved. A request is dropped, as is an EAR for a listener whose UUID is not
in the store. Other messages are handed over. A timer of a handler that was taken from the store may
find the reservation of the one that came after it.
-/
def Node.Spares (env : Env) (h : HandlerId) (n : Node) : Action → Prop
  | .receive message _ =>
    requestingMessage message = true ∨
      ((listenerOfMessage env message).run n = (.ok true, n) ∧
        n.store.contains message.uuid = false) ∨
      ((n.lookedUp env message).handler h).MessageStays env
      (n.lookedUp env message).toShared message
  | .timeout i type => type.needed (n.handler i) = true → ∀ a,
      (n.handler h).reservation = .listed a → n.resources.Granted a →
        (n.handler i).reservation ≠ .listed a ∧
          ∀ x, (n.thread i).held.read = .ok x → findEqual n.resources.reservations x ≠ some a
  | .wake _ | .markOrigin _ _ => True

section Steps

variable {env : Env} {n n' : Node} {h : HandlerId} {k : UUIDv4} {message : Message}
  {source : NodeIdentifier}

theorem acceptMessage_stays {shared : Shared} {s : Handler} (source : NodeIdentifier) :
    (acceptMessage message source { s with running := true }).MessageStays env shared message ↔
      s.MessageStays env shared message := by
  cases message <;> rfl

/-- A request for a session of the store is dropped. -/
theorem receive_request (hn : n.Inv) (hk : n.store.find? k = some h)
    (hts : timestamp k = timestamp message.uuid) (hq : requestingMessage message = true)
    (hrun : (receive env message source).run n = (.ok (), n')) : n' = n := by
  obtain ⟨r, hlistener, -, -⟩ := listenerOfMessage_pure env message n
  cases r with
  | error e =>
    rw [receive_unreadable hlistener] at hrun
    cases hrun
  | ok listener =>
    obtain ⟨-, -, hreceive⟩ :=
      receive_stored hn (OrdMap.mem_keys.mpr ⟨h, hk⟩) hts hlistener source
    rw [hreceive, if_pos hq] at hrun
    cases hrun
    rfl

theorem receive_spares (hn : n.Inv) (hidle : n.Idle) (hk : n.store.find? k = some h)
    (hs : (n.handler h).state = .reserved) (hact : (Action.receive message source).Sparing
      (timestamp (n.handler h).uuid)) (hrun : (receive env message source).run n = (.ok (), n')) :
    Node.StillReserved h n n' ↔ n.Spares env h (.receive message source) := by
  obtain ⟨hh, hT⟩ := hn.stored k h hk
  obtain ⟨hts, hrep⟩ := hact
  rw [hT] at hts
  have hself : Node.StillReserved h n n := ⟨hs, fun _ _ ha => ha⟩
  by_cases hq : requestingMessage message = true
  · rw [receive_request hn hk hts.symm hq hrun]
    exact ⟨fun _ => Or.inl hq, fun _ => hself⟩
  rw [Bool.not_eq_true] at hq
  have hstopped : (n.handler h).running = false := by
    rw [← Bool.not_eq_true]
    intro hr
    rcases hidle h hh hr with hwait | hclosed
    · rw [hs] at hwait
      cases hwait
    · rw [hs] at hclosed
      cases hclosed
  rcases receive_handed hn hk hts.symm hq hstopped (by rw [hs]; rfl) hrun with
    ⟨hl, hc, rfl⟩ | ⟨hd, t, hhands, hcall, rfl⟩
  · exact ⟨fun _ => Or.inr (Or.inl ⟨hl, hc⟩), fun _ => hself⟩
  have hn₁ := hhands.inv hn
  have hlt := hhands.lt hn
  obtain ⟨-, u, hu, -⟩ := hhands.handler hn hh
  have hstate : ((n.lookedUp env message).startThread h message source).self.state = .reserved := by
    have hkept : ((n.lookedUp env message).handler h).state = .reserved := by
      rw [hu]
      exact hs
    cases message <;> exact hkept
  obtain ⟨hiff, hkept⟩ :=
    operatorCall_reserved (by rintro v u r rfl; cases hq) hrep hn₁.valid hstate
    hcall
  have hspares : n.Spares env h (.receive message source) ↔
      ((n.lookedUp env message).handler h).MessageStays env (n.lookedUp env message).toShared
        message := by
    constructor
    · rintro (hreq | hdrop | hstays)
      · rw [hq] at hreq
        cases hreq
      · exact absurd hdrop hd
      · exact hstays
    · exact fun hstays => Or.inr (Or.inr hstays)
  rw [hspares, ← acceptMessage_stays source]
  refine Iff.trans ?_ hiff
  rw [Node.StillReserved, Node.handler_putThread_self hlt]
  refine ⟨fun hstill => hstill.1, fun hstill => ⟨hstill, fun a _ ha => hkept hstill a ?_⟩⟩
  show (n.lookedUp env message).resources.Granted a
  rw [hhands.resources]
  exact ha

/-- What a release leaves of the reservations that are granted. -/
theorem Held.granted_released {s : Held} {a b : Nat} {x y : Reservation} (hx : s.read = .ok x)
    (hy : x.replenish = some y) (ha : s.resources.Granted a) :
    (s.released b y).resources.Granted a ↔ s.pointer ≠ .listed a ∧ a ≠ b := by
  have hcleared : y.state = .cleared := by
    rw [Reservation.replenish] at hy
    split_ifs at hy
    cases hy
    rfl
  obtain ⟨resources, pointer⟩ := s
  obtain ⟨z, hz, hstate⟩ := ha
  show (∃ w, ReservationList.lookup (ReservationList.eraseAt _ b) a = some w ∧ _) ↔ _
  rw [ReservationList.lookup_eraseAt]
  by_cases hab : a = b
  · simp [hab]
  rw [if_neg hab]
  cases pointer with
  | null => cases hx
  | own w => exact ⟨fun _ => ⟨(by simp), hab⟩, fun _ => ⟨z, hz, hstate⟩⟩
  | listed c =>
    by_cases hac : a = c
    · subst hac
      have hupdate : ReservationList.lookup
          (ReservationList.update resources.reservations a fun _ => y) a = some y :=
        ReservationList.lookup_update (f := fun _ => y) hz
      constructor
      · rintro ⟨w, hw, hws⟩
        have hwy := hupdate.symm.trans hw
        cases hwy
        rw [hcleared] at hws
        cases hws
      · rintro ⟨hne, -⟩
        exact absurd rfl hne
    · refine ⟨fun _ => ⟨?_, hab⟩, fun _ => ⟨z, ?_, hstate⟩⟩
      · rintro ⟨⟩
        exact hac rfl
      · exact (ReservationList.lookup_update_ne (f := fun _ => y) hac).trans hz

theorem replenishReservation_releases {s : Held} {b : Nat} {x y : Reservation}
    (hx : s.read = .ok x) (hy : x.replenish = some y)
    (hb : findEqual s.resources.reservations x = some b) :
    replenishReservation.run s = (.ok (), s.released b y) := by
  have hne : ¬s.resources.reservations.isEmpty = true := by
    intro hempty
    rw [List.isEmpty_iff.mp hempty] at hb
    cases hb
  have hread : deref.run s = (.ok x, s) := by
    rw [← hx]
    rfl
  rw [replenishReservation, bind_ok (run_get s), if_neg hne, bind_ok hread]
  simp only [hb, changeThrough, run_bind, hread, hy, require_some, run_pure,
    writeThrough, run_modify]
  rfl

/-- A timer that fails without ending the process finds nothing that is granted. -/
theorem replenishReservation_failed {s : Held} {e : Fault} {a : Nat} (hv : s.resources.Valid)
    (he : replenishReservation.run s = (.error e, s)) (ha : s.resources.Granted a) :
    s.pointer ≠ .listed a ∧ ∀ x, s.read = .ok x →
    findEqual s.resources.reservations x ≠ some a := by
  have hrun : ∀ {x : Reservation} {b : Nat}, s.read = .ok x → x.state = .reserved →
      findEqual s.resources.reservations x ≠ some b := by
    intro x b hx hstate hb
    have hy : x.replenish = some { x with state := .cleared } := by
      simp [Reservation.replenish, hstate]
    rw [replenishReservation_releases hx hy hb] at he
    cases he
  obtain ⟨z, hz, hstate⟩ := ha
  constructor
  · intro hp
    have hread : s.read = .ok z := by
      simp only [Held.read, hp, hz]
    have hfound : (s.resources.reservations.find? (·.2.equals z)).isSome = true := by
      rw [List.find?_isSome]
      exact ⟨(a, z), ReservationList.lookup_mem hz, Reservation.equals_refl z⟩
    obtain ⟨c, hc⟩ := Option.isSome_iff_exists.mp hfound
    refine hrun (b := c.1) hread hstate ?_
    rw [findEqual, hc]
    rfl
  · intro x hx hb
    refine hrun (b := a) hx ?_ hb
    obtain ⟨⟨c, w⟩, hc, rfl⟩ := Option.map_eq_some_iff.mp hb
    have hw := ReservationList.lookup_of_mem hv.nodup (List.mem_of_find?_eq_some hc)
    rw [hz] at hw
    cases hw
    have hequal : z.equals x = true := by simpa using List.find?_some hc
    exact (Reservation.equals_iff.mp hequal).2.1.symm.trans hstate

theorem timeout_spares (hn : n.Inv) (hs : (n.handler h).state = .reserved) {i : HandlerId}
    {type : TimeoutType} (hrep : type ≠ .rep)
    (hrun : (fireTimeout i type).run n = (.ok (), n')) :
    Node.StillReserved h n n' ↔ n.Spares env h (.timeout i type) := by
  have hneeded : type.needed (n.handler h) = false := by
    cases type <;> simp [TimeoutType.needed, rollbackNeeded, hs] at hrep ⊢
  have hstepped : n.Stepped env (.timeout i type) (.ok ()) n' := hn.stepped hrun
  cases hstepped with
  | fired hfire hok herr =>
    rename_i r t
    -- A timer that is needed is not one of this handler.
    have hne : type.needed (n.handler i) = true → h ≠ i := by
      rintro hi rfl
      rw [hneeded] at hi
      cases hi
    cases onTimeout_timedOut hfire with
    | idle hidle =>
      rw [show Node.putThread _ i (n.expire i type) = n.expire i type from Node.putThread_thread]
      refine ⟨fun _ hi => ?_, fun _ => ⟨hs, fun _ _ ha => ha⟩⟩
      rw [show type.needed (n.handler i) = false from hidle] at hi
      cases hi
    | failed hi he =>
      refine ⟨fun _ _ a _ ha => replenishReservation_failed hn.valid he ha, fun _ => ?_⟩
      refine ⟨?_, fun _ _ ha => ha⟩
      rw [Node.handler_putThread_ne (hne hi)]
      exact hs
    | released hi hx hy hb =>
      rename_i b x y
      rw [Node.StillReserved, Node.handler_putThread_ne (hne hi)]
      constructor
      · rintro ⟨-, hkept⟩ - a hp ha
        obtain ⟨hne', hab⟩ := (Held.granted_released hx hy ha).mp (hkept a hp ha)
        refine ⟨hne', fun x' hx' hb' => hab ?_⟩
        rw [show (n.thread i).held.read = .ok x from hx] at hx'
        cases hx'
        rw [show findEqual n.resources.reservations x = some b from hb] at hb'
        exact (Option.some.inj hb').symm
      · intro hspares
        refine ⟨hs, fun a hp ha => (Held.granted_released hx hy ha).mpr ?_⟩
        obtain ⟨hne', hfind⟩ := hspares hi a hp ha
        refine ⟨hne', ?_⟩
        rintro rfl
        exact hfind x hx hb

/--
**A granted reservation is given up only by replenishment, if and only if the step spares it.**
For every message with the timestamp of the session, so in particular for its UUID and the
translations of it.
-/
theorem reserved_kept_iff {action : Action} (hn : n.Reachable) (hk : n.store.find? k = some h)
    (hs : (n.handler h).state = .reserved)
    (hact : action.Sparing (timestamp (n.handler h).uuid))
    (hrun : (perform env action).run n = (.ok (), n')) :
    Node.StillReserved h n n' ↔ n.Spares env h action := by
  cases action with
  | receive message source => exact receive_spares hn.inv hn.idle hk hs hact hrun
  | timeout i type => exact timeout_spares hn.inv hs hact hrun
  | wake i => exact hact.elim
  | markOrigin uuid pid => exact hact.elim

end Steps

/-- A node of the path of a session, after the ACC of the next node. -/
def sampleReserved (u : UUIDv4) : List Action :=
  [.receive (.ear 1 u (.sample 5)) ([6], .simulation), .receive (.acc 1 u) ([5], .simulation)]

/-- A second ACC is ignored. -/
theorem reserved_kept_acc : ∃ n n' : Node, (n.handler 0).state = .reserved ∧
    (Node.StillReserved 0 n n' ↔
      n.Spares .sample 0 (.receive (.acc 1 (sampleUuid 7 0)) ([5], .simulation))) := by
  have hrun : (performAll .sample (sampleReserved (sampleUuid 7 0)) .initial).any (fun n =>
      n.store.find? (sampleUuid 7 0) = some 0 ∧ (n.handler 0).state = .reserved ∧
        timestamp (n.handler 0).uuid = timestamp (sampleUuid 7 0) ∧
        ((perform .sample (.receive (.acc 1 (sampleUuid 7 0)) ([5], .simulation))).run n).1 =
          .ok ()) = true := by
    decide +kernel
  obtain ⟨n, hn, hall⟩ := (Option.any_eq_true _ _).mp hrun
  obtain ⟨hk, hs, hT, hok⟩ := of_decide_eq_true hall
  refine ⟨n, _, hs, reserved_kept_iff (performAll_steps hn) hk hs ?_ (Prod.ext hok rfl)⟩
  exact ⟨hT.symm, by intro v u l b a hrep; cases hrep⟩

/-- A late BID closes the handler. -/
theorem reserved_kept_bid : ¬∀ (env : Env) (n n' : Node) (k : UUIDv4) (h : HandlerId)
    (action : Action), n.Reachable → n.store.find? k = some h → (n.handler h).state = .reserved →
      action.Sparing (timestamp (n.handler h).uuid) →
      (perform env action).run n = (.ok (), n') → Node.StillReserved h n n' := by
  intro hall
  have hrun : (performAll .sample (sampleReserved (sampleUuid 7 0)) .initial).any (fun n =>
      n.store.find? (sampleUuid 7 0) = some 0 ∧ (n.handler 0).state = .reserved ∧
        timestamp (n.handler 0).uuid = timestamp (sampleUuid 7 0) ∧
        ((perform .sample (.receive (.bid 1 (sampleUuid 7 0) 1) ([5], .simulation))).run n).1 =
          .ok () ∧
        (((perform .sample
          (.receive (.bid 1 (sampleUuid 7 0) 1) ([5], .simulation))).run n).2.handler
          0).state = .closed) = true := by
    decide +kernel
  obtain ⟨n, hn, hstate⟩ := (Option.any_eq_true _ _).mp hrun
  obtain ⟨hk, hs, hT, hok, hclosed⟩ := of_decide_eq_true hstate
  have hstill := hall .sample n _ (sampleUuid 7 0) 0
    (.receive (.bid 1 (sampleUuid 7 0) 1) ([5], .simulation)) (performAll_steps hn) hk hs
    ⟨hT.symm, by intro v u l b a hrep; cases hrep⟩ (Prod.ext hok rfl)
  rw [hstill.1] at hclosed
  cases hclosed

end Rankd

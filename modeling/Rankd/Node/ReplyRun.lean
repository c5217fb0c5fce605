import Rankd.Node.Change
import Rankd.Node.ThreadRun

/-!
# Bids, replies and timeouts of one session

The rest of the branches, as in `ThreadRun`: the auction, ACC, REF and REP at a handler whose
session has at most one reservation, and the callbacks of its timers.

* `auctionEnd_ok`: an auction ends with EARs to its winners, and a tie with a translation for each
* `accBranch_ok`, `accRelay_run`: an ACC marks the reservation before anything else
* `refErase_faults`, `refErase_kept`: a REF is undefined for a pre-reservation, and only for one
* `rollback_run`, `onRepTimeout_run`: a timeout gives the reservation back
-/

namespace Rankd

open Infra Prog

/-! ## The frame of a round -/

section Round

variable {t t₁ t' : Thread} {env : Env} {me : HandlerId} {peers : List Handler} {message : Message}
  {a : Nat} {x : Reservation} {T : Nat} {exit : Exit}

theorem loadReservation_none (hf : t.resources.reservations.find?
    (fun e => isSameTimestamp env.ulid e.2.uuid t.self.uuid) = none) :
    (loadReservation env).run t = (.ok (), t.loaded t.resources .null) := by
  rw [loadReservation, bind_ok (run_get t), bind_ok (run_onReservation (getReservationFor_none hf)),
    run_setReservation]
  rfl

/-- The reservation that is found gets the UUID of the handler. -/
theorem loadReservation_some (hv : t.resources.Valid) (hf : t.resources.reservations.find?
    (fun e => isSameTimestamp env.ulid e.2.uuid t.self.uuid) = some (a, x)) :
    (loadReservation env).run t =
      (.ok (), t.loaded (t.resources.put a (x.setUuid t.self.uuid)) (.listed a)) := by
  rw [loadReservation, bind_ok (run_get t),
    bind_ok (run_onReservation (getReservationFor_some hv hf)), run_setReservation]
  rfl

theorem loadReservation_free (h : t.resources.Free T) (hT : timestamp t.self.uuid = T) :
    (loadReservation env).run t = (.ok (), t.loaded t.resources .null) :=
  loadReservation_none (h.find?_eq_none env.ulid hT)

theorem loadReservation_sole (h : t.resources.Sole T a x) (hT : timestamp t.self.uuid = T) :
    (loadReservation env).run t =
      (.ok (), t.loaded (t.resources.put a (x.setUuid t.self.uuid)) (.listed a)) :=
  loadReservation_some h.valid (h.find?_eq_some env.ulid hT)

/-- The reservation that is found keeps its state. -/
theorem loadReservation_first (hv : t.resources.Valid)
    (hfind : t.resources.reservations.find?
      (fun e => isSameTimestamp env.ulid e.2.uuid t.self.uuid) = some (a, x)) :
    ∃ resources y, (loadReservation env).run t = (.ok (), t.loaded resources (.listed a)) ∧
      ReservationList.lookup resources.reservations a = some y ∧ y.state = x.state := by
  have hlookup : ReservationList.lookup t.resources.reservations a = some x :=
    ReservationList.lookup_of_mem hv.nodup (List.mem_of_find?_eq_some hfind)
  exact ⟨_, _, loadReservation_some hv hfind,
    ReservationList.lookup_update (f := fun _ => x.setUuid t.self.uuid) hlookup, rfl⟩

theorem checkReservation_null (hp : t.self.reservation = .null) :
    checkReservation.run t = (.ok (), t) := by
  rw [checkReservation, bind_ok (run_get t), if_pos hp, run_pure]

theorem checkReservation_listed (hp : t.self.reservation = .listed a)
    (hderef : (onReservation deref).run t = (.ok x, t)) (hx : x.listenerLength ≤ 7) :
    checkReservation.run t = (.ok (), t) := by
  have hnull : t.self.reservation ≠ .null := by
    rw [hp]
    intro h
    cases h
  rw [checkReservation, bind_ok (run_get t), if_neg hnull, bind_ok hderef, decide_eq_true hx,
    ensure_true, run_pure]

theorem checkReservation_sole (h : t.resources.Sole T a x) (hp : t.self.reservation = .listed a)
    (hx : x.listenerLength ≤ 7) : checkReservation.run t = (.ok (), t) :=
  checkReservation_listed hp (run_deref h hp) hx

theorem checkReservation_ok (h : (checkReservation).run t = (.ok (), t')) : t' = t :=
  checkReservation_pure.ok (P := fun s => s = t) rfl h

/-- The thread at the end of its round: `break` drops the message. -/
def Thread.left (exit : Exit) (t : Thread) : Thread :=
  match exit with
  | .breaks => { t with self := { t.self with message := none } }
  | .returns | .waits => t

theorem run_leaveSwitch : (leaveSwitch exit).run t = (.ok (), t.left exit) := by
  cases exit <;> rfl

theorem operatorCall_ok (hload : (loadReservation env).run t = (.ok (), t₁))
    (hrun : (operatorCall env me peers message).run t = (.ok (), t')) :
    ∃ exit t₂, (messageSwitch env me peers message).run t₁ = (.ok exit, t₂) ∧
      t' = t₂.left exit := by
  rw [operatorCall, bind_ok hload] at hrun
  obtain ⟨⟨⟩, t₂, hcheck, hrun⟩ := bind_eq_ok.mp hrun
  cases checkReservation_ok hcheck
  obtain ⟨exit, t₃, hswitch, hleave⟩ := bind_eq_ok.mp hrun
  rw [run_leaveSwitch] at hleave
  cases hleave
  exact ⟨exit, t₃, hswitch, rfl⟩

theorem operatorCall_run (hload : (loadReservation env).run t = (.ok (), t₁))
    (hcheck : checkReservation.run t₁ = (.ok (), t₁))
    (hswitch : (messageSwitch env me peers message).run t₁ = (.ok exit, t')) :
    (operatorCall env me peers message).run t = (.ok (), t'.left exit) := by
  rw [operatorCall, bind_ok hload, bind_ok hcheck, bind_ok hswitch, run_leaveSwitch]

end Round

/-! ## Auctions -/

/-- What the end of an auction leaves alone. -/
structure Thread.SameSession (t t' : Thread) : Prop where
  store : t'.store = t.store
  originSet : t'.originSet = t.originSet
  resources : t'.resources = t.resources
  uuid : t'.self.uuid = t.self.uuid
  source : t'.self.sourceIdentifier = t.self.sourceIdentifier
  pointer : t'.self.reservation = t.self.reservation
  wait : t'.self.auctionWait = t.self.auctionWait

section Auctions

variable {t t' : Thread} {env : Env} {me : HandlerId} {a : Nat} {x : Reservation} {T : Nat}
  {exit : Exit} {value : BitVec 32}

theorem Thread.SameSession.trans {t'' : Thread} (h : t.SameSession t') (h' : t'.SameSession t'') :
    t.SameSession t'' where
  store := h'.store.trans h.store
  originSet := h'.originSet.trans h.originSet
  resources := h'.resources.trans h.resources
  uuid := h'.uuid.trans h.uuid
  source := h'.source.trans h.source
  pointer := h'.pointer.trans h.pointer
  wait := h'.wait.trans h.wait

/-- A thread that has taken its first bid and waits for more. -/
def Thread.parked (me : HandlerId) (value : BitVec 32) (t : Thread) : Thread :=
  { t with
    timeouts := t.timeouts ++ [(me, .auct)]
    self := { t.self with
      bids := BidSet.insert t.self.bids (value, t.self.sourceIdentifier)
      arrivingBids := t.self.arrivingBids + 1
      auctionWait := true } }

theorem bidBranch_waiting (hs : t.self.state = .auctionWaiting) :
    (bidBranch me value).run t = (.ok .waits, t.parked me value) := by
  rw [bidBranch, bind_ok (run_get t), if_pos hs]
  rfl

theorem bidBranch_unexpected (hs : t.self.state ≠ .auctionWaiting) :
    (bidBranch me value).run t = (.ok .returns, (t.inState .closed).stopped) := by
  rw [bidBranch, bind_ok (run_get t), if_neg hs]
  rfl

/-- An EAR to a winner needs the reservation. -/
theorem sendAuctionEar_ok {uuid : UUIDv4} {winner : NodeIdentifier}
    (hrun : (sendAuctionEar env uuid winner).run t = (.ok (), t')) :
    (∃ reservation, Held.read ⟨t.resources, t.self.reservation⟩ = .ok reservation) ∧
      ∃ message target, t' = t.sent message target winner.2 := by
  rw [sendAuctionEar] at hrun
  obtain ⟨reservation, t₁, hderef, hrun₁⟩ := bind_eq_ok.mp hrun
  obtain ⟨s, hs, rfl⟩ := onReservation_ok hderef
  obtain ⟨hread, rfl⟩ := Prod.mk.inj hs
  obtain ⟨first, t₂, hfirst, hrun₂⟩ := bind_eq_ok.mp hrun₁
  obtain ⟨rfl, -⟩ := firstByte_ok hfirst
  obtain ⟨source, t₃, hsource, hrun₃⟩ := bind_eq_ok.mp hrun₂
  obtain ⟨rfl, -⟩ := sourceFirst_ok hsource
  obtain ⟨target, t₄, hport, hsend⟩ := bind_eq_ok.mp hrun₃
  obtain ⟨rfl, -⟩ := portTo_ok hport
  exact ⟨⟨reservation, hread⟩, _, target, (sendMessage_ok hsend).2⟩

/-- The translations of a tie. -/
def tieTable (env : Env) (original : UUIDv4) (indices : List Nat) (table : OrdMap UUIDv4 UUIDv4) :
    OrdMap UUIDv4 UUIDv4 :=
  indices.foldl (fun table index => table.insertNew (translation env index original) original) table

theorem tieLoop_ok {winners : List (NodeIdentifier × Nat)}
    (hrun : (Prog.forEach winners (tieRound env me)).run t = (.ok (), t')) :
    t.SameSession t' ∧
      t'.translationTable = tieTable env t.self.uuid (winners.map (·.2)) t.translationTable ∧
      t'.self.state = (if winners = [] then t.self.state else .preReserved) ∧
      (winners ≠ [] → ∃ x, Held.read ⟨t.resources, t.self.reservation⟩ = .ok x) := by
  induction winners generalizing t with
  | nil =>
    cases hrun
    exact ⟨⟨rfl, rfl, rfl, rfl, rfl, rfl, rfl⟩, rfl, rfl, fun h => absurd rfl h⟩
  | cons w rest ih =>
    rw [forEach_cons] at hrun
    obtain ⟨⟨⟩, t₁, hround, hrest⟩ := bind_eq_ok.mp hrun
    rw [tieRound, bind_ok (run_get t)] at hround
    obtain ⟨uuid, t₂, hcreate, hround⟩ := bind_eq_ok.mp hround
    cases hcreate
    obtain ⟨⟨⟩, t₃, hsend, hend⟩ := bind_eq_ok.mp hround
    obtain ⟨hread, message, target, rfl⟩ := sendAuctionEar_ok hsend
    cases hend
    obtain ⟨hsame, htable, hstate, -⟩ := ih hrest
    refine ⟨Thread.SameSession.trans ?_ hsame, htable, ?_, fun _ => hread⟩
    · exact ⟨rfl, rfl, rfl, rfl, rfl, rfl, rfl⟩
    · rw [hstate, if_neg (List.cons_ne_nil _ _)]
      exact ite_self _

/-- **The end of an auction** with at least one bid, if it does not fault. -/
theorem auctionEnd_ok (hb : t.self.bids ≠ [])
    (hrun : (auctionEnd env me).run t = (.ok exit, t')) :
    exit = .breaks ∧ t'.self.running = false ∧ t.SameSession t' ∧
      ((t'.self.state = .preReserved ∧
          ∃ x, Held.read ⟨t.resources, t.self.reservation⟩ = .ok x) ∨
        maxBids t.self.bids = [] ∧ t'.self.state = t.self.state) ∧
      (2 ≤ (maxBids t.self.bids).length → t'.translationTable =
        tieTable env t.self.uuid (List.range (maxBids t.self.bids).length) t.translationTable) := by
  have hempty : ¬t.self.bids.isEmpty = true := by
    rw [List.isEmpty_iff]
    exact hb
  rw [auctionEnd, bind_ok (run_get t), if_neg hempty] at hrun
  -- A tie, and the case that no bid is equal to the largest.
  have htie : ∀ winners : List NodeIdentifier, maxBids t.self.bids = winners →
      (do Prog.forEach winners.zipIdx (tieRound env me); stop; return Exit.breaks :
      ThreadM Exit).run
        t = (.ok exit, t') →
      exit = .breaks ∧ t'.self.running = false ∧ t.SameSession t' ∧
        ((t'.self.state = .preReserved ∧
            ∃ x, Held.read ⟨t.resources, t.self.reservation⟩ = .ok x) ∨
          winners = [] ∧ t'.self.state = t.self.state) ∧
        t'.translationTable = tieTable env t.self.uuid (List.range winners.length)
          t.translationTable := by
    intro winners hw hloop
    obtain ⟨⟨⟩, t₁, hloop, hend⟩ := bind_eq_ok.mp hloop
    obtain ⟨hsame, htable, hstate, hread⟩ := tieLoop_ok hloop
    cases hend
    refine ⟨rfl, rfl, ⟨hsame.store, hsame.originSet, hsame.resources, hsame.uuid, hsame.source,
      hsame.pointer, hsame.wait⟩, ?_, ?_⟩
    · rcases winners with _ | ⟨w, ws⟩
      · exact Or.inr ⟨rfl, hstate⟩
      · exact Or.inl ⟨hstate, hread (List.cons_ne_nil _ _)⟩
    · rw [List.zipIdx_map_snd, ← List.range_eq_range'] at htable
      exact htable
  rcases hw : maxBids t.self.bids with _ | ⟨w, _ | ⟨w', ws⟩⟩
  · simp only [hw] at hrun
    obtain ⟨h₁, h₂, h₃, h₄, -⟩ := htie [] hw hrun
    exact ⟨h₁, h₂, h₃, h₄, fun hle => absurd hle (by simp)⟩
  · simp only [hw] at hrun
    obtain ⟨⟨⟩, t₁, hsend, hend⟩ := bind_eq_ok.mp hrun
    obtain ⟨hread, message, target, rfl⟩ := sendAuctionEar_ok hsend
    cases hend
    exact ⟨rfl, rfl, ⟨rfl, rfl, rfl, rfl, rfl, rfl, rfl⟩, Or.inl ⟨rfl, hread⟩,
      fun hle => absurd hle (by simp)⟩
  · simp only [hw] at hrun
    obtain ⟨h₁, h₂, h₃, h₄, h₅⟩ := htie (w :: w' :: ws) hw hrun
    exact ⟨h₁, h₂, h₃, h₄, fun _ => h₅⟩

theorem auctionEnd_empty (hb : t.self.bids = [])
    (hrun : (auctionEnd env me).run t = (.ok exit, t')) :
    exit = .breaks ∧
      t' = ((t.sent (newRef t.self.uuid) t.self.sourceIdentifier.1
      t.self.sourceIdentifier.2).inState
        .closed).stopped := by
  rw [auctionEnd, bind_ok (run_get t), if_pos (by rw [hb]; rfl)] at hrun
  obtain ⟨⟨⟩, t₁, hsend, hend⟩ := bind_eq_ok.mp hrun
  obtain ⟨-, rfl⟩ := sendMessage_ok hsend
  cases hend
  exact ⟨rfl, rfl⟩

theorem wake_ok (hrun : (wake env me).run t = (.ok (), t')) :
    ∃ exit t₁, (auctionEnd env me).run t.unblocked = (.ok exit, t₁) ∧ t' = t₁.left exit := by
  have hunblock : (modifySelf fun s => { s with auctionWait := false }).run t =
      (.ok (), t.unblocked) := rfl
  rw [wake, bind_ok hunblock] at hrun
  obtain ⟨exit, t₁, hend, hleave⟩ := bind_eq_ok.mp hrun
  rw [run_leaveSwitch] at hleave
  cases hleave
  exact ⟨exit, t₁, hend, rfl⟩

/-- What a handler does after its auction, but for what it sends. -/
theorem wake_cases (hrun : (wake env me).run t = (.ok (), t')) :
    t'.resources = t.resources ∧ t'.store = t.store ∧ t'.self.uuid = t.self.uuid ∧
      t'.self.auctionWait = false ∧ (t'.self.state = .closed ∨ t'.self.state = t.self.state ∨
        t'.self.state = .preReserved ∧ t.self.bids ≠ [] ∧ ∃ x, t.held.read = .ok x) := by
  obtain ⟨exit, t₁, hend, rfl⟩ := wake_ok hrun
  by_cases hb : t.self.bids = []
  · obtain ⟨rfl, rfl⟩ := auctionEnd_empty (t := t.unblocked) hb hend
    exact ⟨rfl, rfl, rfl, rfl, Or.inl rfl⟩
  · obtain ⟨rfl, -, hsame, hstate, -⟩ := auctionEnd_ok (t := t.unblocked) hb hend
    refine ⟨hsame.resources, hsame.store, hsame.uuid, hsame.wait, Or.inr ?_⟩
    rcases hstate with ⟨hstate, hread⟩ | ⟨-, hstate⟩
    · exact Or.inr ⟨hstate, hb, hread⟩
    · exact Or.inl hstate

end Auctions

/-! ## ACC -/

section Accepted

variable {t t' : Thread} {env : Env} {a : Nat} {x : Reservation} {T : Nat} {exit : Exit}

/-- The port to the past node of a reservation, if it is a simulated neighbour. -/
def Reservation.pastPort (env : Env) (x : Reservation) : Option Bytes :=
  if x.pastNode.2 = .simulation then x.pastNode.1.head?.bind (portInTopology env) else none

theorem portInTopology_ne_nil {b : UInt8} {target : Bytes}
    (h : portInTopology env b = some target) :
    target ≠ [] := by
  rw [portInTopology, Option.map_eq_some_iff] at h
  obtain ⟨port, -, rfl⟩ := h
  exact List.cons_ne_nil _ _

theorem Reservation.pastPort_eq_some {target : Bytes} (h : x.pastPort env = some target) :
    x.pastNode.2 = .simulation ∧
      ∃ b rest, x.pastNode.1 = b :: rest ∧ portInTopology env b = some target := by
  unfold Reservation.pastPort at h
  split_ifs at h with hs
  · rcases hb : x.pastNode.1 with _ | ⟨b, rest⟩
    · rw [hb] at h
      cases h
    · rw [hb] at h
      exact ⟨hs, b, rest, rfl, h⟩

theorem pastNodePort_run {target : Bytes} (h : t.resources.Sole T a x)
    (hp : t.self.reservation = .listed a) (hx : x.pastPort env = some target) :
    (pastNodePort env).run t = (.ok (some target), t) := by
  obtain ⟨hs, b, rest, hb, hport⟩ := Reservation.pastPort_eq_some hx
  rw [pastNodePort, bind_ok (run_deref h hp), if_pos hs, hb, bind_ok run_firstByte, run_pure, hport]

/-- A past node that is not of the simulation has an empty target. -/
theorem pastNodePort_ok {port : Option Bytes} (h : t.resources.Sole T a x)
    (hp : t.self.reservation = .listed a) (hrun : (pastNodePort env).run t = (.ok port, t')) :
    t' = t ∧ (port = x.pastPort env ∨ port = some []) := by
  rw [pastNodePort, bind_ok (run_deref h hp)] at hrun
  unfold Reservation.pastPort
  split_ifs at hrun with hs
  · obtain ⟨id, t₁, hfirst, hend⟩ := bind_eq_ok.mp hrun
    obtain ⟨rfl, hid⟩ := firstByte_ok hfirst
    cases hend
    rw [if_pos hs, hid]
    exact ⟨rfl, Or.inl rfl⟩
  · cases hrun
    exact ⟨rfl, Or.inr rfl⟩

/-- A handler that has passed an ACC on. -/
def Thread.granted (a : Nat) (x : Reservation) (t : Thread) : Thread :=
  ((t.loaded (t.resources.put a (x.addNextNode t.self.sourceIdentifier)) (.listed a)).inState
    .reserved).stopped

theorem addNextNode_run {node : NodeIdentifier} (h : t.resources.Sole T a x)
    (hp : t.self.reservation = .listed a) (hx : (x.addNextNode node).printable = true) :
    (addNextNode node).run t =
      (.ok (), t.loaded (t.resources.put a (x.addNextNode node)) (.listed a)) := by
  rw [addNextNode, bind_ok (run_writeThrough h hp _),
    bind_ok (run_deref (h.put (y := x.addNextNode node) h.mem.2) rfl), hx, ensure_true, run_pure]

theorem accRelay_run {target : Bytes} (h : t.resources.Sole T a x)
    (hp : t.self.reservation = .listed a) (hport : x.pastPort env = some target)
    (hprint : (x.addNextNode t.self.sourceIdentifier).printable = true) :
    (accRelay env).run t =
      (.ok .breaks, (t.sent (newAcc t.self.uuid) target .simulation).granted a x) := by
  have htarget : target ≠ [] := by
    obtain ⟨-, b, -, -, hb⟩ := Reservation.pastPort_eq_some hport
    exact portInTopology_ne_nil hb
  rw [accRelay, bind_ok (run_get t), bind_ok (pastNodePort_run h hp hport)]
  dsimp only
  rw [bind_ok (run_sendMessage htarget), bind_ok (run_setState _),
    bind_ok (addNextNode_run (t := (t.sent _ _ _).inState .reserved) h hp hprint)]
  rfl

/-- An ACC goes to the past node and the handler is reserved, or there is no way to it. -/
theorem accRelay_ok (h : t.resources.Sole T a x) (hp : t.self.reservation = .listed a)
    (hrun : (accRelay env).run t = (.ok exit, t')) :
    exit = .breaks ∧ ((∃ target, x.pastPort env = some target ∧
        (x.addNextNode t.self.sourceIdentifier).printable = true ∧ t'.self.state = .reserved) ∨
      x.pastPort env = none ∧ t' = t.stopped) := by
  rw [accRelay, bind_ok (run_get t)] at hrun
  obtain ⟨port, t₁, hport, hrun⟩ := bind_eq_ok.mp hrun
  obtain ⟨rfl, hpast⟩ := pastNodePort_ok h hp hport
  cases port with
  | none =>
    cases hrun
    exact ⟨rfl, Or.inr ⟨(hpast.resolve_right nofun).symm, rfl⟩⟩
  | some target =>
    obtain ⟨⟨⟩, t₂, hsend, hrun⟩ := bind_eq_ok.mp hrun
    obtain ⟨htarget, rfl⟩ := sendMessage_ok hsend
    rw [bind_ok (run_setState _)] at hrun
    obtain ⟨⟨⟩, t₃, hnext, hend⟩ := bind_eq_ok.mp hrun
    obtain ⟨hprint, rfl⟩ := addNextNode_ok (t := (t₁.sent _ _ _).inState .reserved) h hp hnext
    cases hend
    refine ⟨rfl, Or.inl ⟨target, ?_, hprint, rfl⟩⟩
    rcases hpast with hpast | hpast
    · exact hpast.symm
    · exact absurd (Option.some.inj hpast) htarget

/-- The reservation that an ACC marks. -/
theorem run_markReservation {y : Reservation} (h : t.resources.Sole T a x)
    (hp : t.self.reservation = .listed a) (hy : markItem x = some y) :
    (onReservation markReservation).run t =
      (.ok (), t.loaded (t.resources.put a y) (.listed a)) := by
  refine run_onReservation ?_
  rw [hp]
  exact markReservation_run h hy

theorem accBranch_repeated (hs : t.self.state = .reserved) :
    (accBranch env).run t = (.ok .breaks, t.stopped) := by
  rw [accBranch, bind_ok (run_get t), if_pos hs]
  rfl

/-- A handler under another UUID. -/
def Thread.refiled (store : Store) (uuid : UUIDv4) (t : Thread) : Thread :=
  { t with
    store := store
    self := { t.self with uuid := uuid } }

theorem run_rekeyToOriginal (u : UUIDv4) (hc : t.store.contains t.self.uuid = true) :
    (rekeyToOriginal u).run t = (.ok (), t.refiled (t.store.rename t.self.uuid u) u) := by
  rw [rekeyToOriginal, bind_ok (run_get t), hc, ensure_true]
  rfl

theorem rekeyToOriginal_ok {u : UUIDv4} (hrun : (rekeyToOriginal u).run t = (.ok (), t')) :
    t' = t.refiled (t.store.rename t.self.uuid u) u := by
  rw [rekeyToOriginal, bind_ok (run_get t)] at hrun
  obtain ⟨⟨⟩, t₁, hensure, hmodify⟩ := bind_eq_ok.mp hrun
  obtain ⟨rfl, -⟩ := ensure_ok hensure
  cases hmodify
  rfl

theorem markItem_preReserved (hx : x.state = .preReserved) :
    markItem x = some { x with state := .reserved } := by
  rw [markItem, if_pos (by rw [hx]; nofun), Reservation.markReserved, if_pos hx]

/-- **An ACC at a handler that is not reserved**: the reservation is marked, if it can be. -/
theorem accBranch_ok (h : t.resources.Sole T a x) (hp : t.self.reservation = .listed a)
    (hx : x.state ≠ .created) (hs : t.self.state ≠ .reserved)
    (hrun : (accBranch env).run t = (.ok exit, t')) :
    exit = .breaks ∧ x.state = .preReserved ∧ (t'.self.state = .reserved ∨ ∃ store uuid,
      t' = ((t.loaded (t.resources.put a { x with state := .reserved }) (.listed a)).refiled store
        uuid).stopped) := by
  rw [accBranch, bind_ok (run_get t), if_neg hs] at hrun
  by_cases hpre : x.state = .preReserved
  · have hput : (t.resources.put a { x with state := .reserved }).Sole T a
        { x with state := .reserved } := h.put h.mem.2
    rw [bind_ok (run_markReservation h hp (markItem_preReserved hpre))] at hrun
    rcases ht : t.translationTable.find? t.self.uuid with _ | original
    · simp only [ht] at hrun
      split_ifs at hrun with horigin
      · obtain ⟨⟨⟩, t₁, hresult, hrun⟩ := bind_eq_ok.mp hrun
        cases hresult
        obtain ⟨⟨⟩, t₂, hnext, hend⟩ := bind_eq_ok.mp hrun
        cases hend
        exact ⟨rfl, hpre, Or.inl rfl⟩
      · obtain ⟨hexit, ⟨-, -, -, hstate⟩ | ⟨-, rfl⟩⟩ := accRelay_ok hput rfl hrun
        · exact ⟨hexit, hpre, Or.inl hstate⟩
        · exact ⟨hexit, hpre, Or.inr ⟨t.store, t.self.uuid, rfl⟩⟩
    · simp only [ht] at hrun
      obtain ⟨⟨⟩, t₁, hrekey, hrun⟩ := bind_eq_ok.mp hrun
      obtain rfl := rekeyToOriginal_ok hrekey
      obtain ⟨hexit, ⟨-, -, -, hstate⟩ | ⟨-, rfl⟩⟩ :=
        accRelay_ok (t := Thread.refiled _ _ _) hput rfl hrun
      · exact ⟨hexit, hpre, Or.inl hstate⟩
      · exact ⟨hexit, hpre, Or.inr ⟨_, original, rfl⟩⟩
  · have hmark : markItem x = none := by
      rw [markItem, if_pos hx, Reservation.markReserved, if_neg hpre]
    have hfault := markReservation_fault h hmark
    rw [← hp] at hfault
    rw [bind_error (run_onReservation hfault)] at hrun
    cases hrun

/-- (E.2.1) The handler that an ACC for a translation leaves to `accRelay`. -/
def Thread.rekeyed (a : Nat) (x : Reservation) (u : UUIDv4) (t : Thread) : Thread :=
  (t.loaded (t.resources.put a { x with state := .reserved }) (.listed a)).refiled
    (t.store.rename t.self.uuid u) u

/-- (E.2) An ACC for a translation: the handler is filed under the original again. -/
theorem accBranch_translated {u : UUIDv4} (h : t.resources.Sole T a x)
    (hp : t.self.reservation = .listed a) (hx : x.state = .preReserved)
    (hs : t.self.state ≠ .reserved) (ht : t.translationTable.find? t.self.uuid = some u)
    (hc : t.store.contains t.self.uuid = true) :
    (accBranch env).run t = (accRelay env).run (t.rekeyed a x u) ∧
      (t.rekeyed a x u).resources.Sole T a { x with state := .reserved } ∧
      (t.rekeyed a x u).self.reservation = .listed a := by
  have hput : (t.resources.put a { x with state := .reserved }).Sole T a
      { x with state := .reserved } := h.put h.mem.2
  refine ⟨?_, hput, rfl⟩
  rw [accBranch, bind_ok (run_get t), if_neg hs,
    bind_ok (run_markReservation h hp (markItem_preReserved hx))]
  simp only [ht]
  have hrekey := run_rekeyToOriginal
    (t := t.loaded (t.resources.put a { x with state := .reserved }) (.listed a)) u hc
  rw [bind_ok hrekey]
  rfl

/-- Without a reservation an ACC faults. -/
theorem accBranch_null (hp : t.self.reservation = .null) (hs : t.self.state ≠ .reserved) :
    (accBranch env).run t ≠ (.ok exit, t') := by
  intro hrun
  rw [accBranch, bind_ok (run_get t), if_neg hs] at hrun
  obtain ⟨⟨⟩, t₁, hmark, -⟩ := bind_eq_ok.mp hrun
  obtain ⟨s, hs, -⟩ := onReservation_ok hmark
  rw [hp, markReservation_null] at hs
  cases hs

end Accepted

/-! ## REF -/

section Refused

variable {env : Env} {me : HandlerId} {peers : List Handler} {t t' : Thread} {a : Nat}
  {x : Reservation} {T : Nat} {exit : Exit}

/-- The entry of a handler that holds a pre-reservation is erased under the loop. -/
theorem refErase_faults (hk : t.store.find? t.self.uuid = some me)
    (hp : t.self.reservation = .listed a)
    (hl : ReservationList.lookup t.resources.reservations a = some x)
    (hx : x.state = .preReserved) :
    (refErase me peers).run t =
      (.error .danglingIterator, { t with store := t.store.erase t.self.uuid }) := by
  have hpre : (isPreReserving t t.self).run t = (.ok true, t) := by
    simp only [isPreReserving, hp, run_bind, hl, require_some, run_pure, hx, decide_true]
  rw [refErase, bind_ok (run_get t)]
  simp only [hk, handlerAt, if_true]
  rw [bind_ok hpre]
  rfl

/-- The handler of the entry holds no pre-reservation, so the entry stays. -/
theorem refErase_kept (hk : ∀ h, t.store.find? t.self.uuid = some h → h = me)
    (hp : t.self.reservation = .null ∨ ∃ a x, t.self.reservation = .listed a ∧
      ReservationList.lookup t.resources.reservations a = some x ∧ x.state ≠ .preReserved) :
    (refErase me peers).run t = (.ok (), t) := by
  have hpre : (isPreReserving t t.self).run t = (.ok false, t) := by
    rcases hp with hnull | ⟨a, x, hlisted, hl, hx⟩
    · simp only [isPreReserving, hnull, run_pure]
    · simp only [isPreReserving, hlisted, run_bind, hl, require_some, run_pure, hx, decide_false]
  rw [refErase, bind_ok (run_get t)]
  rcases hf : t.store.find? t.self.uuid with _ | h
  · rfl
  · simp only [hk h hf, handlerAt, if_true]
    rw [bind_ok hpre]
    rfl

/-- **A handler that holds a pre-reservation does not survive a REF.** -/
theorem operatorCall_ref_faults {version : UInt8} {uuid : UUIDv4} (hv : t.resources.Valid)
    (hk : t.store.find? t.self.uuid = some me)
    (hfind : t.resources.reservations.find?
      (fun e => isSameTimestamp env.ulid e.2.uuid t.self.uuid) = some (a, x))
    (hx : x.state = .preReserved) :
    (operatorCall env me peers (.ref version uuid)).run t ≠ (.ok (), t') := by
  intro hrun
  obtain ⟨resources, y, hload, hlookup, hy⟩ := loadReservation_first hv hfind
  rw [operatorCall, bind_ok hload] at hrun
  obtain ⟨⟨⟩, t₁, hcheck, hrun⟩ := bind_eq_ok.mp hrun
  obtain ⟨exit, t₂, hswitch, -⟩ := bind_eq_ok.mp hrun
  cases checkReservation_ok hcheck
  rw [messageSwitch, refBranch,
    bind_error (refErase_faults (t := t.loaded resources (.listed a)) hk rfl hlookup
      (hy.trans hx))] at hswitch
  cases hswitch

/-- What the answer to a REF leaves alone. -/
structure Thread.Answered (t t' : Thread) : Prop where
  store : t'.store = t.store
  resources : t'.resources = t.resources
  pointer : t'.self.reservation = t.self.reservation
  running : t'.self.running = false
  wait : t'.self.auctionWait = t.self.auctionWait
  state : t'.self.state = .closed ∨ t'.self.state = t.self.state

/-- The port to a node, if it is a simulated neighbour. -/
def simulatedPort (env : Env) (node : NodeIdentifier) : Option Bytes :=
  if node.2 = .simulation then node.1.head?.bind (portInTopology env) else none

/-- A source that is not of the simulation has an empty target. -/
theorem sourcePort_ok {port : Option Bytes} (hrun : (sourcePort env).run t = (.ok port, t')) :
    t' = t ∧ (port = simulatedPort env t.self.sourceIdentifier ∨ port = some []) := by
  rw [sourcePort, bind_ok (run_get t)] at hrun
  unfold simulatedPort
  split_ifs at hrun with hs
  · obtain ⟨id, t₁, hfirst, hend⟩ := bind_eq_ok.mp hrun
    obtain ⟨rfl, hid⟩ := sourceFirst_ok hfirst
    cases hend
    rw [if_pos hs, hid]
    exact ⟨rfl, Or.inl rfl⟩
  · cases hrun
    exact ⟨rfl, Or.inr rfl⟩

/-- A REF goes to the source and the handler is closed, or there is no way to it. -/
theorem refRelay_cases (hrun : (refRelay env).run t = (.ok exit, t')) :
    exit = .breaks ∧ ((∃ target, simulatedPort env t.self.sourceIdentifier = some target ∧
        t' = ((t.sent (newRef t.self.uuid) target .simulation).inState .closed).stopped) ∨
      simulatedPort env t.self.sourceIdentifier = none ∧ t' = t.stopped) := by
  rw [refRelay, bind_ok (run_get t)] at hrun
  obtain ⟨port, t₁, hport, hrun⟩ := bind_eq_ok.mp hrun
  obtain ⟨rfl, hsource⟩ := sourcePort_ok hport
  cases port with
  | none =>
    cases hrun
    exact ⟨rfl, Or.inr ⟨(hsource.resolve_right nofun).symm, rfl⟩⟩
  | some target =>
    obtain ⟨⟨⟩, t₂, hsend, hend⟩ := bind_eq_ok.mp hrun
    obtain ⟨htarget, rfl⟩ := sendMessage_ok hsend
    cases hend
    refine ⟨rfl, Or.inl ⟨target, ?_, rfl⟩⟩
    rcases hsource with hsource | hsource
    · exact hsource.symm
    · exact absurd (Option.some.inj hsource) htarget

theorem refRelay_ok (hrun : (refRelay env).run t = (.ok exit, t')) :
    exit = .breaks ∧ t.Answered t' := by
  obtain ⟨hexit, ⟨target, -, rfl⟩ | ⟨-, rfl⟩⟩ := refRelay_cases hrun
  · exact ⟨hexit, rfl, rfl, rfl, rfl, rfl, Or.inl rfl⟩
  · exact ⟨hexit, rfl, rfl, rfl, rfl, rfl, Or.inr rfl⟩

/-- **The answer to a REF** leaves store and reservations alone, and closes the
handler if at all. -/
theorem refReply_ok (hrun : (refReply env).run t = (.ok exit, t')) :
    exit = .breaks ∧ t.Answered t' := by
  rw [refReply, bind_ok (run_get t)] at hrun
  rcases ht : t.translationTable.find? t.self.uuid with _ | original
  · simp only [ht] at hrun
    split_ifs at hrun with horigin
    · cases hrun
      exact ⟨rfl, rfl, rfl, rfl, rfl, rfl, Or.inl rfl⟩
    · exact refRelay_ok hrun
  · simp only [ht] at hrun
    obtain ⟨⟨⟩, t₁, hmodify, hrun⟩ := bind_eq_ok.mp hrun
    cases hmodify
    rw [bind_ok (run_get _)] at hrun
    split_ifs at hrun with hleft
    · obtain ⟨hexit, h⟩ := refRelay_ok hrun
      exact ⟨hexit, h.store, h.resources, h.pointer, h.running, h.wait, h.state⟩
    · cases hrun
      exact ⟨rfl, rfl, rfl, rfl, rfl, rfl, Or.inl rfl⟩

/-- A round that sends nothing but REFs for such UUIDs, and starts no timer. -/
structure Thread.SendsRefs (P : UUIDv4 → Prop) (t t' : Thread) : Prop where
  timeouts : t'.timeouts = t.timeouts
  sent : ∃ sends, t'.sendingMessages = t.sendingMessages ++ sends ∧
    ∀ e ∈ sends, ∃ u, P u ∧ e.1 = newRef u

theorem Thread.SendsRefs.none {P : UUIDv4 → Prop} (ht : t'.timeouts = t.timeouts)
    (hs : t'.sendingMessages = t.sendingMessages) : t.SendsRefs P t' :=
  ⟨ht, [], by rw [hs, List.append_nil], nofun⟩

theorem refRelay_sends (hrun : (refRelay env).run t = (.ok exit, t')) :
    t.SendsRefs (· = t.self.uuid) t' := by
  obtain ⟨-, ⟨target, -, rfl⟩ | ⟨-, rfl⟩⟩ := refRelay_cases hrun
  · exact ⟨rfl, _, rfl, List.forall_mem_singleton.mpr ⟨_, rfl, rfl⟩⟩
  · exact .none rfl rfl

/-- The answer to a REF is a REF for the UUID of the handler, or for its original. -/
theorem refReply_sends (hrun : (refReply env).run t = (.ok exit, t')) :
    t.SendsRefs (fun u => u = t.self.uuid ∨ t.translationTable.find? t.self.uuid = some u) t' := by
  rw [refReply, bind_ok (run_get t)] at hrun
  rcases ht : t.translationTable.find? t.self.uuid with _ | original
  · simp only [ht] at hrun
    split_ifs at hrun with horigin
    · cases hrun
      exact .none rfl rfl
    · obtain ⟨htimeouts, sends, hsent, hall⟩ := refRelay_sends hrun
      refine ⟨htimeouts, sends, hsent, ?_⟩
      intro e he
      obtain ⟨u, hu, hm⟩ := hall e he
      exact ⟨u, Or.inl hu, hm⟩
  · simp only [ht] at hrun
    obtain ⟨⟨⟩, t₁, hmodify, hrun⟩ := bind_eq_ok.mp hrun
    cases hmodify
    rw [bind_ok (run_get _)] at hrun
    split_ifs at hrun with hleft
    · obtain ⟨htimeouts, sends, hsent, hall⟩ := refRelay_sends hrun
      refine ⟨htimeouts, sends, hsent, ?_⟩
      intro e he
      obtain ⟨u, hu, hm⟩ := hall e he
      exact ⟨u, Or.inr (congrArg some hu.symm), hm⟩
    · cases hrun
      exact .none rfl rfl

/-- (F.2.1.1) A handler that takes the original of its UUID. -/
def Thread.untranslated (original : UUIDv4) (t : Thread) : Thread :=
  { t with
    translationTable := t.translationTable.erase t.self.uuid
    self := { t.self with uuid := original } }

/-- The test for translations that are left is one for the original as a translation. -/
theorem refReply_translated {u : UUIDv4} (ht : t.translationTable.find? t.self.uuid = some u)
    (hu : t.translationTable.find? u = none) :
    (refReply env).run t = (.ok .breaks, ((t.untranslated u).inState .closed).stopped) := by
  have hleft :
    (t.untranslated u).translationTable.contains (t.untranslated u).self.uuid = false := by
    rw [OrdMap.contains_eq_false]
    show (t.translationTable.erase t.self.uuid).find? u = none
    rw [OrdMap.find?_erase, hu, ite_self]
  have hmodify : (Prog.modify fun t : Thread => { t with
      translationTable := t.translationTable.erase t.self.uuid
      self := { t.self with uuid := u } } : ThreadM Unit).run t = (.ok (), t.untranslated u) := rfl
  rw [refReply, bind_ok (run_get t)]
  simp only [ht]
  rw [bind_ok hmodify, bind_ok (run_get _), hleft, if_neg Bool.false_ne_true]
  rfl

/-- A REF that the process survives has erased nothing. -/
theorem refBranch_ok (hrun : (refBranch env me peers).run t = (.ok exit, t')) :
    exit = .breaks ∧ t.Answered t' := by
  obtain ⟨⟨⟩, t₁, herase, hreply⟩ := bind_eq_ok.mp hrun
  cases refErase_ok herase
  exact refReply_ok hreply

end Refused

/-! ## REP -/

section Replenished

variable {env : Env} {me : HandlerId} {t t' : Thread} {a : Nat} {x : Reservation} {T : Nat}
  {exit : Exit}

theorem repSends_ok {message : Message} {nodes : List NodeIdentifier}
    (hrun : (Prog.forEach nodes fun direction => do
      let first ← firstByte direction.1
      let _ ← sourceFirst
      let target ← portTo env first
      sendMessage message target direction.2).run t = (.ok (), t')) :
    ∃ sends, t' = t.sentAll sends ∧ ∀ e ∈ sends, e.1 = message := by
  induction nodes generalizing t with
  | nil =>
    cases hrun
    exact ⟨[], (Thread.sentAll_nil _).symm, nofun⟩
  | cons node rest ih =>
    rw [forEach_cons] at hrun
    obtain ⟨⟨⟩, t₁, hbody, hrest⟩ := bind_eq_ok.mp hrun
    obtain ⟨first, t₂, hfirst, hrun₁⟩ := bind_eq_ok.mp hbody
    obtain ⟨rfl, -⟩ := firstByte_ok hfirst
    obtain ⟨source, t₃, hsource, hrun₂⟩ := bind_eq_ok.mp hrun₁
    obtain ⟨rfl, -⟩ := sourceFirst_ok hsource
    obtain ⟨target, t₄, hport, hsend⟩ := bind_eq_ok.mp hrun₂
    obtain ⟨rfl, -⟩ := portTo_ok hport
    obtain ⟨-, rfl⟩ := sendMessage_ok hsend
    obtain ⟨sends, hsends, hall⟩ := ih hrest
    exact ⟨_, hsends.trans Thread.sentAll_sent, List.forall_mem_cons.mpr ⟨rfl, hall⟩⟩

/-- A REP for the listener of the reservation that the thread holds. -/
def Thread.Replenishes (t : Thread) (message : Message) : Prop :=
  ∃ x reserved, t.held.read = .ok x ∧
    message = .rep headerVersion t.self.uuid x.listenerLength reserved x.listener

/-- A REP that is passed on needs a reservation. -/
theorem repForward_ok (hrun : (repForward env me).run t = (.ok exit, t')) :
    exit = .breaks ∧ t.self.reservation ≠ .null ∧
      ∃ sends, (∀ e ∈ sends, t.Replenishes e.1) ∧
      t' = ((t.sentAll sends).timed me .rep).stopped := by
  rw [repForward, bind_ok (run_get t)] at hrun
  obtain ⟨reservation, t₁, hderef, hrun⟩ := bind_eq_ok.mp hrun
  obtain ⟨s, hs, rfl⟩ := onReservation_ok hderef
  obtain ⟨hread, hheld⟩ := Prod.mk.inj hs
  rw [← hheld] at hrun
  obtain ⟨⟨⟩, t₂, hloop, hend⟩ := bind_eq_ok.mp hrun
  obtain ⟨sends, rfl, hall⟩ := repSends_ok hloop
  cases hend
  refine ⟨rfl, ?_, sends, ?_, rfl⟩
  · intro hnull
    rw [hnull] at hs
    cases hs
  · intro e he
    exact ⟨reservation, env.repReserved, hread, hall e he⟩

/-- **A REP**: the listener closes and keeps its reservation, the others pass it on. -/
theorem repBranch_ok {code : UInt8} {listener : ListenerArray}
    (hrun : (repBranch env me code listener).run t = (.ok exit, t')) :
    exit = .breaks ∧ ∃ address sends, listenerAddress env code listener = .ok address ∧
      (((iAmListener env code address = true ∨ t.store.contains t.self.uuid = false) ∧
          (∀ e ∈ sends, e.1 = newRef t.self.uuid) ∧
          t' = ((t.sentAll sends).inState .closed).stopped) ∨
        (iAmListener env code address = false ∧ t.self.reservation ≠ .null ∧
          (∀ e ∈ sends, t.Replenishes e.1) ∧
          t' = (((t.sentAll sends).inState .replenishing).timed me .rep).stopped)) := by
  rw [repBranch, bind_ok (run_setState _)] at hrun
  obtain ⟨address, t₁, haddress, hrun⟩ := bind_eq_ok.mp hrun
  obtain ⟨rfl, hl⟩ := liftExcept_ok haddress
  rw [bind_ok (run_get _)] at hrun
  split_ifs at hrun with hme hc
  · obtain ⟨source, t₁, hsource, hrun₁⟩ := bind_eq_ok.mp hrun
    obtain ⟨rfl, -⟩ := sourceFirst_ok hsource
    obtain ⟨target, t₂, hport, hrun₂⟩ := bind_eq_ok.mp hrun₁
    obtain ⟨rfl, -⟩ := portTo_ok hport
    obtain ⟨⟨⟩, t₃, hsend, hend⟩ := bind_eq_ok.mp hrun₂
    obtain ⟨-, rfl⟩ := sendMessage_ok hsend
    cases hend
    exact ⟨rfl, address, [_], hl, Or.inl ⟨Or.inl hme, List.forall_mem_singleton.mpr rfl, rfl⟩⟩
  · obtain ⟨hexit, hp, sends, hall, rfl⟩ := repForward_ok hrun
    exact ⟨hexit, address, sends, hl, Or.inr ⟨Bool.eq_false_iff.mpr hme, hp, hall, rfl⟩⟩
  · cases hrun
    refine ⟨rfl, address, [], hl, Or.inl ⟨Or.inr (Bool.eq_false_iff.mpr hc), nofun, ?_⟩⟩
    rw [Thread.sentAll_nil]
    rfl

end Replenished

/-! ## Timeouts -/

section Timeouts

variable {t : Thread} {a : Nat} {x : Reservation} {T : Nat}

/-- A handler that gave its reservation back. -/
def Thread.rolledBack (a : Nat) (t : Thread) : Thread :=
  (t.loaded (t.resources.remove a) (.listed a)).inState .closed

theorem run_replenishReservation (h : t.resources.Sole T a x) (hp : t.self.reservation = .listed a)
    (hx : x.state = .preReserved ∨ x.state = .reserved) :
    (onReservation replenishReservation).run t =
      (.ok (), t.loaded (t.resources.remove a) (.listed a)) := by
  have hreplenish : x.replenish = some { x with state := .cleared } := by
    rw [Reservation.replenish, if_pos]
    rcases hx with hx | hx
    · exact Or.inr (Or.inl hx)
    · exact Or.inl hx
  refine run_onReservation ?_
  rw [hp]
  exact replenishReservation_run h hreplenish

/-- The bids of a thread are forgotten. -/
def Thread.unbid (t : Thread) : Thread := { t with self := { t.self with bids := [] } }

theorem rollback_run (h : t.resources.Sole T a x) (hp : t.self.reservation = .listed a)
    (hx : x.state = .preReserved ∨ x.state = .reserved) (hn : rollbackNeeded t.self = true) :
    rollback.run t = (.ok (), t.unbid.rolledBack a) := by
  have hbids : (modifySelf fun s => { s with bids := [] }).run t = (.ok (), t.unbid) := rfl
  rw [rollback, bind_ok (run_get t), if_pos hn, bind_ok hbids,
    bind_ok (run_replenishReservation (t := t.unbid) h hp hx)]
  rfl

theorem rollback_idle (hn : rollbackNeeded t.self = false) : rollback.run t = (.ok (), t) := by
  rw [rollback, bind_ok (run_get t), hn, if_neg Bool.false_ne_true, run_pure]

theorem onRepTimeout_run (h : t.resources.Sole T a x) (hp : t.self.reservation = .listed a)
    (hx : x.state = .preReserved ∨ x.state = .reserved) (hs : t.self.state ≠ .closed) :
    onRepTimeout.run t = (.ok (), t.rolledBack a) := by
  rw [onRepTimeout, bind_ok (run_get t), if_pos (by simp [hs]),
    bind_ok (run_replenishReservation h hp hx)]
  rfl

theorem onRepTimeout_idle (hs : t.self.state = .closed) : onRepTimeout.run t = (.ok (), t) := by
  rw [onRepTimeout, bind_ok (run_get t), if_neg (by simp [hs]), run_pure]

end Timeouts

end Rankd

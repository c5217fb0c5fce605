import Rankd.Node.Steps

/-!
# The listener of relayed requests

A relay keeps the listener of a request in its reservation. `Reservation::mark_listener` copies the
address there and leaves the code at 0, and every EAR and MAR that is sent copies the code and the
first byte back. So a request for a simulated listener (code 0) is relayed as it came, along a path
of any length, and no other is (`relayed_names_iff`).
-/

namespace Rankd

open Infra Prog Relation

/-- The request is for the listener with the given code and the given address of its width. -/
def Request.Names (code : UInt8) (address : Bytes) (q : Request) : Prop :=
  q.listenerLength = code ∧ ∃ width, addrLen? code = some width ∧
    q.listener.toList.take width = address

/-! ## The invariant -/

/--
The code of a reservation is 0. `first` is, if it is given, the first byte of the listeners of the
session with timestamp `T`.
-/
structure Reservation.Listens (T : Nat) (first : Option UInt8) (r : Reservation) : Prop where
  code : r.listenerLength = 0
  address : ∀ b, first = some b → timestamp r.uuid = T → r.listener.toList.headD 0 = b

/-- The same for a request that was sent. -/
structure Message.Listens (T : Nat) (first : Option UInt8) (m : Message) : Prop where
  code : ∀ q, m.request? = some q → q.listenerLength = 0
  address : ∀ q b, m.request? = some q → first = some b → timestamp m.uuid = T →
    q.listener.toList.take 1 = [b]

structure Thread.Listens (T : Nat) (first : Option UInt8) (t : Thread) : Prop where
  session : t.held.All (Reservation.Listens T first)
  sent : ∀ e ∈ t.sendingMessages, e.1.Listens T first

section Changes

variable {T T' : Nat} {first : Option UInt8} {env : Env} {message : Message} {t t' : Thread}

theorem Reservation.Listens.edited {r r' : Reservation} (he : r.Edited r')
    (h : r.Listens T first) : r'.Listens T first := by
  refine ⟨he.listenerLength.trans h.code, ?_⟩
  intro b hb hT
  rw [he.listener]
  exact h.address b hb (he.session.symm.trans hT)

/-- The listener that is sent is the first byte of the one that is kept. -/
theorem take_firstListenerByte (r : Reservation) :
    (firstListenerByte r).toList.take 1 = [r.listener.toList.headD 0] := by
  rfl

/-- The address of a simulated listener is its first byte. -/
theorem listenerAddress_zero (env : Env) (listener : ListenerArray) :
    listenerAddress env 0 listener = .ok (listener.toList.take 1) := by
  obtain ⟨⟨bytes⟩, hlen⟩ := listener
  rcases bytes with _ | ⟨b, rest⟩
  · cases hlen
  · rfl

theorem ListenerArray.headD_toList (v : ListenerArray) : v.toList.headD 0 = v[0] := by
  obtain ⟨⟨bytes⟩, hlen⟩ := v
  rcases bytes with _ | ⟨b, rest⟩
  · cases hlen
  · rfl

/-- The bytes from the second on leave the first alone. -/
theorem ListenerArray.getElem_zero_setAll (l : Bytes) {i : Nat} (hi : 0 < i) (v : ListenerArray) :
    ((l.zipIdx i).foldl (fun v bi => v.setIfInBounds bi.2 bi.1) v)[0] = v[0] := by
  induction l generalizing i v with
  | nil => rfl
  | cons b rest ih =>
    rw [List.zipIdx_cons, List.foldl_cons, ih (Nat.succ_pos i),
      Vector.getElem_setIfInBounds_ne (by omega) hi.ne']

theorem head_markListener (capabilities : RequestingCapabilities) (priority b : UInt8)
    (rest : Bytes) : ((Reservation.new capabilities priority).markListener
      (b :: rest)).listener.toList.headD 0 = b := by
  rw [ListenerArray.headD_toList, Reservation.markListener, List.zipIdx_cons, List.foldl_cons,
    ListenerArray.getElem_zero_setAll rest Nat.one_pos]
  rfl

/-- **One change keeps the listeners**, if the message is for the listener of its session. -/
theorem Thread.Listens.change (h : t.Listens T first) (hs : timestamp t.self.uuid = T')
    (hm : ∀ q b, message.request? = some q → first = some b → T' = T → q.Names 0 [b])
    (hc : t.Change env T' message t') : t'.Listens T first := by
  have hsame : ∀ {p : ReservationPtr}, p = t.self.reservation →
      Held.All (Reservation.Listens T first) ⟨t.resources, p⟩ := by
    rintro p rfl
    exact h.session
  cases hc with
  | self hs => exact ⟨hsame hs.reservation, h.sent⟩
  | park hm hstate hs => exact ⟨hsame hs.reservation, h.sent⟩
  | send hm =>
    refine ⟨h.session, ?_⟩
    intro e he
    rcases List.mem_append.mp he with he | he
    · exact h.sent e he
    · rw [List.mem_singleton.mp he]
      refine ⟨?_, ?_⟩
      · intro q hq
        obtain ⟨r, hr, -, hcode, -⟩ := hm.listener q hq
        rw [hcode]
        exact (h.session.read hr).code
      · intro q b hq hb hT
        obtain ⟨r, hr, hsession, -, hlistener⟩ := hm.listener q hq
        have hr' : timestamp r.uuid = T := hsession.trans (hm.session.symm.trans hT)
        rw [hlistener, take_firstListenerByte, (h.session.read hr).address b hb hr']
  | produce hq hl =>
    refine ⟨⟨h.session.listed, ?_⟩, h.sent⟩
    rintro _ ⟨⟩
    refine ⟨rfl, ?_⟩
    intro b hb hT
    obtain ⟨hcode, width, hwidth, haddress⟩ := hm _ b hq hb (hs.symm.trans hT)
    cases hwidth
    rw [hcode, listenerAddress_zero, haddress] at hl
    cases hl
    exact head_markListener _ _ b []
  | point hown hp => exact ⟨⟨h.session.listed, fun r hr => absurd hr (hown r)⟩, h.sent⟩
  | held hs => exact ⟨h.session.change Reservation.Listens.edited hs, h.sent⟩
  | shared | translate | untranslate | refile => exact ⟨h.session, h.sent⟩

/-- **A round keeps the listeners.** -/
theorem Thread.Listens.moved (h : t.Listens T first) (hs : timestamp t.self.uuid = T')
    (hm : ∀ q b, message.request? = some q → first = some b → T' = T → q.Names 0 [b])
    (hmoved : t.Moved env T' message t') : t'.Listens T first := by
  have hboth : timestamp t'.self.uuid = T' ∧ t'.Listens T first := by
    refine hmoved.invariant (I := fun t => timestamp t.self.uuid = T' ∧
      t.Listens T first) ?_ ⟨hs, h⟩
    rintro t t' hc ⟨hs, h⟩
    exact ⟨hc.session hs, h.change hs hm hc⟩
  exact hboth.2

theorem Thread.Listens.timedOut {type : TimeoutType} {r : Except Fault Unit}
    (h : t.Listens T first) (ht : t.TimedOut type r t') : t'.Listens T first := by
  cases ht with
  | idle hn => exact h
  | failed hn he => exact ⟨h.session, h.sent⟩
  | released hn hx hy ha =>
    refine ⟨h.session.released ?_, h.sent⟩
    exact Reservation.Listens.edited (.replenish hy) (h.session.read hx)

end Changes

/-! ## Nodes -/

/-- The listeners that a node has kept and sent on. -/
def Node.Listens (T : Nat) (first : Option UInt8) (n : Node) : Prop :=
  ∀ h, (n.thread h).Listens T first

section Nodes

variable {T : Nat} {first : Option UInt8} {env : Env} {n n₁ n' : Node} {t : Thread} {h : HandlerId}
  {action : Action}

theorem Node.Listens.of_all (hn : n.All (Reservation.Listens T first))
    (hs : ∀ e ∈ n.sendingMessages, e.1.Listens T first) : n.Listens T first := fun h => ⟨hn h, hs⟩

theorem Node.Listens.all (hn : n.Listens T first) : n.All (Reservation.Listens T first) :=
  fun h => (hn h).session

theorem Node.Listens.sent (hn : n.Listens T first) :
    ∀ e ∈ n.sendingMessages, e.1.Listens T first := (hn 0).sent

theorem Node.Listens.initial : Node.initial.Listens T first := .of_all .initial nofun

theorem Node.Listens.putThread (hn : n.Listens T first) (ht : t.Listens T first) :
    (Node.putThread t h n).Listens T first := .of_all (hn.all.putThread ht.session) ht.sent

theorem Node.Listens.found {id : UUIDv4} (hn : n.Listens T first) (hf : Node.Found id n n₁)
    (hinv : n.Inv) : n₁.Listens T first := by
  refine .of_all (hn.all.found hf hinv) ?_
  rw [hf.sendingMessages]
  exact hn.sent

theorem Node.Listens.hands {message : Message} (hn : n.Listens T first) (hinv : n.Inv)
    (hh : Node.Hands env message n n₁ h) : n₁.Listens T first := by
  refine .of_all (hn.all.hands hinv hh) ?_
  rw [hh.sendingMessages]
  exact hn.sent

/-- **A step keeps the listeners**, if a request that is received is for the one of its session. -/
theorem Node.Listens.step (hn : n.Listens T first) (hinv : n.Inv)
    (hm : ∀ message source q b, action = .receive message source → timestamp message.uuid = T →
      message.request? = some q → first = some b → q.Names 0 [b])
    (hrun : (perform env action).run n = (.ok (), n')) : n'.Listens T first := by
  have hstepped := hinv.stepped hrun
  generalize hr : (.ok () : Except Fault Unit) = r at hstepped
  cases hstepped with
  | dropped hf => exact hn.found hf hinv
  | stopped hf he => cases hr
  | bid hf hk hs hrunning hb =>
    have hn₁ := hn.found hf hinv
    exact .of_all (hn₁.all.withBid ((hf.inv hinv).stored _ _ hk).1) hn₁.sent
  | round hh hcall =>
    rename_i message source n₁ h t
    cases hr
    have hn₁ := hn.hands hinv hh
    refine hn₁.putThread (Thread.Listens.moved ?_ ?_ ?_ (hh.moved hinv hcall))
    · exact ⟨hn₁.all.startThread, hn₁.sent⟩
    · rw [Node.startThread_uuid]
      exact hh.timestamp_eq hinv
    · intro q b hq hb hT
      exact hm message source q b rfl hT hq hb
  | woken hcall =>
    rename_i h t
    cases hr
    -- The end of an auction builds no reservation, so any message will do.
    have hstart : (n.thread h).unblocked.Listens T first := ⟨(hn h).session, (hn h).sent⟩
    refine hn.putThread (hstart.moved rfl ?_ (hinv.wake_moved hcall (.acc 0 0)))
    intro q b hq
    cases hq
  | fired hcall hr' he =>
    rename_i h type r t
    have hexpire : (n.expire h type).Listens T first :=
      .of_all (hn.all.of_eq rfl fun i r hown => ⟨i, hown⟩) hn.sent
    exact hexpire.putThread ((hexpire h).timedOut (onTimeout_timedOut hcall))
  | marked => exact .of_all (hn.all.of_eq rfl fun i r hown => ⟨i, hown⟩) hn.sent

theorem Node.Reachable.listens (hn : n.Reachable) (T : Nat) : n.Listens T none := by
  induction hn with
  | refl => exact Node.Listens.initial
  | tail hrun hstep ih =>
    obtain ⟨env, action, -, hperform⟩ := hstep
    refine ih.step (Node.Reachable.inv hrun) ?_ hperform
    intro message source q b _ _ _ hb
    cases hb

end Nodes

/-! ## Runs and paths -/

/-- The requests of the session that were received are for the listener that `q` is for. -/
def Action.AsksFor (T : Nat) (q : Request) : Action → Prop
  | .receive message _ => timestamp message.uuid = T → ∀ p, message.request? = some p →
      ∀ code address, q.Names code address → p.Names code address
  | .wake _ | .timeout _ _ | .markOrigin _ _ => True

/--
A hop of the session with timestamp `T`: a node that received requests for the listener of `q` has
sent `q'`.
-/
def Node.Relays (T : Nat) (q q' : Request) : Prop :=
  ∃ actions n m target type, Node.Trace actions n ∧ (∀ action ∈ actions, action.AsksFor T q) ∧
    (m, target, type) ∈ n.sendingMessages ∧ timestamp m.uuid = T ∧ m.request? = some q'

theorem Node.Trace.listens {T : Nat} {first : Option UInt8} {actions : List Action} {n : Node}
    {q : Request} (hrun : Node.Trace actions n) (hask : ∀ action ∈ actions, action.AsksFor T q)
    (hq : ∀ b, first = some b → q.Names 0 [b]) : n.Listens T first := by
  induction hrun with
  | start => exact Node.Listens.initial
  | step hprev hen hstep ih =>
    refine (ih fun action h => hask action (List.mem_cons_of_mem _ h)).step hprev.inv ?_ hstep
    rintro message source p b rfl hT hp hb
    exact hask _ List.mem_cons_self hT p hp 0 [b] (hq b hb)

theorem Node.Relays.code {T : Nat} {q q' : Request} (h : Node.Relays T q q') :
    q'.listenerLength = 0 := by
  obtain ⟨actions, n, m, target, type, hrun, hask, hsent, -, hq'⟩ := h
  have hn : n.Listens T none := hrun.listens hask nofun
  exact ((hn 0).sent _ hsent).code q' hq'

theorem Node.Relays.names {T : Nat} {q q' : Request} {b : UInt8} (h : Node.Relays T q q')
    (hq : q.Names 0 [b]) : q'.Names 0 [b] := by
  refine ⟨h.code, 1, rfl, ?_⟩
  obtain ⟨actions, n, m, target, type, hrun, hask, hsent, hT, hq'⟩ := h
  have hn : n.Listens T (some b) := hrun.listens hask (by rintro _ ⟨⟩; exact hq)
  exact ((hn 0).sent _ hsent).address q' b hq' rfl hT

theorem Request.Names.exists_byte {q : Request} {address : Bytes} (h : q.Names 0 address) :
    ∃ b, address = [b] := by
  obtain ⟨-, width, hwidth, rfl⟩ := h
  cases hwidth
  obtain ⟨⟨bytes⟩, hlen⟩ := q.listener
  rcases bytes with _ | ⟨b, rest⟩
  · cases hlen
  · exact ⟨b, rfl⟩

/--
**What the last node of a path is asked for**: the listener that the first request was for, exactly
if that is a simulated one.
-/
theorem relayed_names_iff {T : Nat} {q q' : Request} {code : UInt8} {address : Bytes}
    (hpath : TransGen (Node.Relays T) q q') (hq : q.Names code address) :
    q'.Names code address ↔ code = 0 := by
  constructor
  · rintro ⟨hcode, -⟩
    rw [← hcode]
    cases hpath with
    | single hlast => exact hlast.code
    | tail _ hlast => exact hlast.code
  · rintro rfl
    obtain ⟨b, rfl⟩ := hq.exists_byte
    induction hpath with
    | single hlast => exact hlast.names hq
    | tail _ hlast ih => exact hlast.names ih

/-- A hop over a node that has received one request and nothing else. -/
theorem Node.Relays.first {u : UUIDv4} {q q' : Request} (source : NodeIdentifier)
    (hrun : (performAll .sample [.receive (.ear 1 u q) source] .initial).any (fun n =>
      n.sendingMessages.any fun e => timestamp e.1.uuid = timestamp u ∧ e.1.request? = some q') =
        true) : Node.Relays (timestamp u) q q' := by
  obtain ⟨n, hn, hsent⟩ := (Option.any_eq_true _ _).mp hrun
  obtain ⟨e, he, hstate⟩ := List.any_eq_true.mp hsent
  obtain ⟨hT, hq'⟩ := of_decide_eq_true hstate
  refine ⟨_, n, e.1, e.2.1, e.2.2, performAll_trace .start hn, ?_, he, hT, hq'⟩
  intro action haction
  rw [List.mem_singleton.mp haction]
  rintro - p ⟨⟩ code address hq
  exact hq

/-- A request for the listener 5, one hop on. -/
theorem relayed_names_five : (Request.sample 5).Names 0 [5] ∧
    ((relayedRequest .sample ((Reservation.new default 1).markListener [5])).Names 0 [5] ↔
      (0 : UInt8) = 0) := by
  have hq : (Request.sample 5).Names 0 [5] := ⟨rfl, 1, rfl, rfl⟩
  have hhop : Node.Relays (timestamp (sampleUuid 7 0)) (Request.sample 5)
      (relayedRequest .sample ((Reservation.new default 1).markListener [5])) :=
    Node.Relays.first ([6], .simulation) (by decide +kernel)
  exact ⟨hq, relayed_names_iff (.single hhop) hq⟩

/-- A request for the listener with the IPv4 address 5.1.1.1. -/
def Request.sampleIpv4 : Request :=
  { Request.sample 5 with
    listenerLength := 2
    listener := Vector.ofFn fun i => if i = 0 then 5 else if i.val < 4 then 1 else 0 }

/-- An IPv4 listener is not relayed: the next node is asked for the simulated listener 5. -/
theorem relayed_names_ipv4 : ¬∀ (T : Nat) (q q' : Request) (code : UInt8) (address : Bytes),
    code ∈ [0, 2, 3, 4] → TransGen (Node.Relays T) q q' → q.Names code address →
      q'.Names code address := by
  intro hall
  have hhop : Node.Relays (timestamp (sampleUuid 7 0)) Request.sampleIpv4
      (relayedRequest .sample ((Reservation.new default 1).markListener [5])) :=
    Node.Relays.first ([6], .simulation) (by decide +kernel)
  have hq : Request.sampleIpv4.Names 2 [5, 1, 1, 1] := ⟨rfl, 4, rfl, by decide +kernel⟩
  have hnames := hall _ _ _ 2 [5, 1, 1, 1] (by decide) (.single hhop) hq
  exact absurd hnames.1 (by decide)

end Rankd

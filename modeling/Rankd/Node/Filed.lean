import Rankd.Node.Session
import Rankd.Node.Steps

/-!
# Invariants of the handlers in the store

Many properties are about the handler of a session and the reservations of that session: what it
holds while it is reserved, which nodes it has to tell. A step of a node touches one session, so
such a property only has to be checked for the handler that the step runs, and, where a timer of a
handler fires that is not in the store any more, for the handler that took its place.

* `Node.Filed`: the property holds of the handler of every session
* `Node.Filed.step`: what has to be checked of a step
-/

namespace Rankd

open Infra Prog

/-- The first reservation of the session, which a new handler for the UUID would find. -/
def Node.leftover (u : UUIDv4) (n : Node) : Option (Nat × Reservation) :=
  n.resources.reservations.find? fun e => timestamp e.2.uuid = timestamp u

/-- `Q` holds of the timestamp, the reservations and the handler of every session in the store. -/
def Node.Filed (Q : Nat → Resources → Handler → Prop) (n : Node) : Prop :=
  ∀ k h, n.store.find? k = some h → Q (timestamp k) n.resources (n.handler h)

/--
`Q` is about one session: it depends neither on other sessions nor on the UUID and the bids of the
handler, and it holds of a new handler.
-/
structure SessionLocal (Q : Nat → Resources → Handler → Prop) : Prop where
  resources : ∀ {T R R' s}, ReservationList.session T R'.reservations =
    ReservationList.session T R.reservations → R.Valid → R'.Valid → Q T R s → Q T R' s
  renamed : ∀ {T R s} u, Q T R s → Q T R { s with uuid := u }
  bidden : ∀ {T R s} bids count, Q T R s → Q T R { s with bids := bids, arrivingBids := count }
  fresh : ∀ T R u, Q T R (Handler.new u)

section Filed

variable {Q : Nat → Resources → Handler → Prop} {env : Env} {n n₁ n' : Node} {h : HandlerId}
  {message : Message} {source : NodeIdentifier}

theorem Node.Filed.initial : Node.initial.Filed Q := fun _ _ hk => nomatch hk

theorem Node.Filed.found (hq : SessionLocal Q) (hf : n.Filed Q) (hn : n.Inv) {id : UUIDv4}
    (hfound : Node.Found id n n₁) : n₁.Filed Q := by
  intro k h hk
  obtain ⟨j, hj, hts⟩ := (hfound.renames hn).find?_eq_some hk
  obtain ⟨u, hu, -⟩ := hfound.handler hn h
  rw [hu, hfound.resources, ← hts]
  exact hq.renamed u (hf j h hj)

theorem Node.Filed.hands (hq : SessionLocal Q) (hf : n.Filed Q) (hn : n.Inv)
    (hh : Node.Hands env message n n₁ h) : n₁.Filed Q := by
  cases hh with
  | resumed hfound => exact hf.found hq hn hfound
  | created hfree =>
    intro k i hk
    rw [Node.created, OrdMap.find?_assign] at hk
    split_ifs at hk with hid
    · cases hk
      rw [Node.handler_created_self]
      exact hq.fresh _ _ _
    · rw [Node.handler_created_lt (hn.stored k i hk).1]
      exact hf k i hk

/-- A thread of the handler `h` that stays in its session. -/
theorem Node.Filed.putThread (hq : SessionLocal Q) (hf : n.Filed Q) (hn : n.Inv)
    {t : Thread} {T : Nat}
    (hT : timestamp (n.handler h).uuid = T)
    (hconf : Resources.Confined T n.resources t.resources) (hv : t.resources.Valid)
    (hstore : ∀ k i, t.store.find? k = some i → ∃ j, n.store.find? j = some i ∧
      timestamp j = timestamp k)
    (hself : ∀ k, n.store.find? k = some h → Q T t.resources t.self)
    (hother : ∀ k i, i ≠ h → n.store.find? k = some i → timestamp k = T →
      Q T t.resources (n.handler i)) : (Node.putThread t h n).Filed Q := by
  intro k i hk
  obtain ⟨j, hj, hts⟩ := hstore k i hk
  rw [← hts]
  show Q (timestamp j) t.resources _
  by_cases hi : i = h
  · subst hi
    rw [Node.handler_putThread_self (hn.stored j i hj).1, ← (hn.stored j i hj).2, hT]
    exact hself j hj
  · rw [Node.handler_putThread_ne hi]
    by_cases hjT : timestamp j = T
    · rw [hjT]
      exact hother j i hi hj hjT
    · exact hq.resources (hconf.session_eq hjT) hn.valid hv (hf j i hj)

/-- A thread that keeps the store. -/
theorem Node.Filed.framed (hq : SessionLocal Q) (hf : n.Filed Q) (hn : n.Inv) {t : Thread}
    (ht : Thread.Frame (timestamp (n.handler h).uuid) (n.thread h) t)
    (hall : ∀ k i, n.store.find? k = some i → timestamp k = timestamp (n.handler h).uuid →
      Q (timestamp k) t.resources (if i = h then t.self else n.handler i)) :
    (Node.putThread t h n).Filed Q := by
  refine hf.putThread hq hn rfl ht.confined ht.valid ?_ ?_ ?_
  · intro k i hk
    rw [ht.store] at hk
    exact ⟨k, hk, rfl⟩
  · intro k hk
    have hself := hall k h hk (hn.stored k h hk).2.symm
    rw [if_pos rfl, ← (hn.stored k h hk).2] at hself
    exact hself
  · intro k i hne hk hT
    have hother := hall k i hk hT
    rw [if_neg hne, hT] at hother
    exact hother

/-- **What has to be checked of a step.** -/
theorem Node.Filed.step (hq : SessionLocal Q) (hf : n.Filed Q) (hn : n.Inv) {action : Action}
    (hstep : n.Stepped env action (.ok ()) n')
    (hround : ∀ {message source n₁ h t}, action = .receive message source →
      Node.Hands env message n n₁ h → Q (timestamp message.uuid) n₁.resources (n₁.handler h) →
      (operatorCall env h (n₁.accepting h message source).handlers message).run
        (n₁.startThread h message source) = (.ok (), t) →
      Q (timestamp message.uuid) t.resources t.self)
    (hwake : ∀ {h t}, action = .wake h →
      Q (timestamp (n.handler h).uuid) n.resources (n.handler h) →
      (wake env h).run (n.thread h) = (.ok (), t) →
      Q (timestamp (n.handler h).uuid) t.resources t.self)
    (hfired : ∀ {h type r t k i}, action = .timeout h type → n.store.find? k = some i →
      timestamp k = timestamp (n.handler h).uuid → Q (timestamp k) n.resources (n.handler i) →
      ((n.expire h type).thread h).TimedOut type r t →
      Q (timestamp k) t.resources (if i = h then t.self else n.handler i)) : n'.Filed Q := by
  cases hstep with
  | dropped hfound => exact hf.found hq hn hfound
  | bid hfound hk hs hr hm =>
    rename_i h bid
    intro k i hki
    by_cases hi : i = h
    · subst hi
      rw [Node.withBid, Node.handler_modify_self ((hfound.inv hn).stored _ _ hk).1]
      exact hq.bidden _ _ (hf.found hq hn hfound k i hki)
    · rw [Node.withBid, Node.handler_modify_ne hi]
      exact hf.found hq hn hfound k i hki
  | round hh hrun =>
    rename_i message source n₁ h t
    have hn₁ := hh.inv hn
    have hf₁ := hf.hands hq hn hh
    obtain ⟨htame, -⟩ := startThread_filed hn₁ (hh.timestamp_eq hn) hrun
    obtain ⟨hconf, hmoves⟩ := hh.confined hn hrun
    rw [← hh.resources] at hconf
    obtain ⟨k₀, hk₀⟩ := hh.stored
    refine hf₁.putThread hq hn₁ (hh.timestamp_eq hn) hconf htame.valid
      (fun k i hk => hmoves.find?_eq_some hk) ?_ ?_
    · intro k hk
      refine hround rfl hh ?_ hrun
      rw [← hh.timestamp_eq hn, (hn₁.stored k h hk).2]
      exact hf₁ k h hk
    -- no other handler is stored for the session
    · intro k i hne hk hT
      refine absurd (hn₁.eq_of_stored hk hk₀ ?_) hne
      rw [(hn₁.stored k i hk).2, hT, hh.timestamp_eq hn]
  | woken hrun =>
    rename_i h t
    have hinv := (wake_keeps env h).ok hn.thread_inv hrun
    refine hf.framed hq hn hinv.toFrame ?_
    intro k i hk hT
    by_cases hi : i = h
    · subst hi
      rw [if_pos rfl, hT]
      refine hwake rfl ?_ hrun
      rw [← hT]
      exact hf k i hk
    · rw [if_neg hi, (wake_cases hrun).1]
      exact hf k i hk
  | fired hrun hr he =>
    rename_i h type r t
    have hinv := (hn.expire h type).callback hrun
    refine Node.Filed.framed (n := n.expire h type) hq hf (hn.expire h type) hinv.toFrame ?_
    intro k i hk hT
    exact hfired rfl hk hT (hf k i hk) (onTimeout_timedOut hrun)
  | marked => exact hf

end Filed

end Rankd

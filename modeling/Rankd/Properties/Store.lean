import Rankd.Node.ReplyRun
import Rankd.Node.StoreSpec

/-!
# Properties of the store

Over every run of a node:

* `store_invariant`: no two keys share a timestamp, and a step only renames keys, files a new
  handler, or erases on a REF
* `keyCoherent_of_conforming`: every handler is filed under its own UUID, as long as no REF is
  processed for a translated session without a pre-reservation. There (F.2.1.1) gives the handler
  another UUID and leaves the key (`keyCoherent_tie`), where ACC (E.2.1) changes both
-/

namespace Rankd

open Infra Prog

/-! ## One handler for each timestamp -/

/-- A lookup that re-keys renames a key to a free one. -/
theorem isUuidInStore_renames {n n' : Node} (hn : n.Inv) {env : Env} {id : UUIDv4} {found : Bool}
    (hrun : (isUuidInStore env id false).run n = (.ok found, n')) :
    Store.Renames (timestamp id) n.store n'.store := by
  rcases knownSession_cases hn.unique env id false with ⟨n₁, hf, hknown⟩ | ⟨-, hknown⟩
  · rw [show (isUuidInStore env id false).run n = (.ok true, n₁) from hknown] at hrun
    cases hrun
    exact hf.renames hn
  · rw [show (isUuidInStore env id false).run n = (.ok false, n) from hknown] at hrun
    cases hrun
    exact Or.inl rfl

/--
**The keys of the store have different timestamps**, in every run. A re-keying lookup
renames one key to a free one, and so does a step for an ACC after its lookup; the other
steps are in `Store.Step`.
-/
theorem store_invariant {n : Node} (hn : n.Reachable) :
    (∀ j ∈ n.store.keys, ∀ k ∈ n.store.keys, timestamp j = timestamp k → j = k) ∧
      (∀ env id found n', (isUuidInStore env id false).run n = (.ok found, n') →
        Store.Renames (timestamp id) n.store n'.store) ∧
      (∀ env action n', (perform env action).run n = (.ok (), n') →
        Store.Step action n n'.store) := by
  refine ⟨hn.inv.unique, ?_, ?_⟩
  · intro env id found n' hrun
    exact isUuidInStore_renames hn.inv hrun
  · intro env action n' hrun
    exact (hn.inv.step hrun).2

/-- A tie in one session, and an EAR of another one. -/
theorem store_invariant_tie : ∃ n, performAll .sample (sampleTie (sampleUuid 7 0) ++
      [.receive (.ear 1 (sampleUuid 8 3) (.sample 9)) ([5], .simulation)]) .initial = some n ∧
    n.store.keys = [sampleUuid 7 0, sampleUuid 8 3] ∧
    ∀ j ∈ n.store.keys, ∀ k ∈ n.store.keys, timestamp j = timestamp k → j = k := by
  have hkeys : (performAll .sample (sampleTie (sampleUuid 7 0) ++
      [.receive (.ear 1 (sampleUuid 8 3) (.sample 9)) ([5], .simulation)]) .initial).map
        (·.store.keys) = some [sampleUuid 7 0, sampleUuid 8 3] := by
    decide +kernel
  obtain ⟨n, hn, hk⟩ := Option.map_eq_some_iff.mp hkeys
  exact ⟨n, hn, hk, (store_invariant (performAll_steps hn)).1⟩

/-! ## Handlers and their keys -/

/-- Every handler is filed under its own UUID. -/
def Node.KeyCoherent (n : Node) : Prop :=
  ∀ k h, n.store.find? k = some h → (n.handler h).uuid = k

/-- The state of the reservation that `get_reservation_for` finds. -/
def Node.reservationState (env : Env) (n : Node) (uuid : UUIDv4) : Option ReservationState :=
  (n.resources.reservations.find? fun e => isSameTimestamp env.ulid e.2.uuid uuid).map (·.2.state)

/-- The handler of the session, if there is one, is idle and takes messages. -/
def Node.Takes (n : Node) (uuid : UUIDv4) : Prop :=
  ∀ k h, n.store.find? k = some h → timestamp k = timestamp uuid →
    (n.handler h).running = false ∧ (n.handler h).state.resumable = true

/--
A step that processes a REF for a session with a translated UUID and without a pre-reservation.
-/
def Node.Misfiles (env : Env) (n : Node) : Action → Prop
  | .receive (.ref version uuid) _ =>
    n.Takes uuid ∧ n.reservationState env uuid ≠ some .preReserved ∧
      ∃ original, n.translationTable.find? (handledUuid env n (.ref version uuid)) = some original ∧
        original ≠ handledUuid env n (.ref version uuid)
  | _ => False

section Coherence

variable {n n' : Node} {env : Env} {h : HandlerId} {key : UUIDv4} {t : Thread}

theorem Node.KeyCoherent.found (hc : n.KeyCoherent) (hn : n.Inv) {id : UUIDv4} {n₁ : Node}
    (hf : Node.Found id n n₁) : n₁.KeyCoherent := by
  cases hf with
  | same => exact hc
  | rekeyed hk hts hne =>
    rename_i k h
    intro j i hj
    rw [Node.find?_rekey hk hne] at hj
    split_ifs at hj with h1 h2
    · cases hj
      rw [Node.handler_rekey_self hk (hn.stored k h hk).1, h1]
    · have hih : i ≠ h := by
        rintro rfl
        exact h2 (hn.key_unique hj hk)
      rw [Node.handler_rekey_ne hk hih]
      exact hc j i hj

/-- A thread that files its handler under its UUID and leaves the other entries. -/
theorem Node.KeyCoherent.putThread (hc : n.KeyCoherent) (hh : h < n.handlers.length)
    (hstore : ∀ j i, t.store.find? j = some i →
      (i = h ∧ t.self.uuid = j) ∨ (i ≠ h ∧ n.store.find? j = some i)) :
    (Node.putThread t h n).KeyCoherent := by
  intro j i hj
  rcases hstore j i hj with ⟨rfl, hu⟩ | ⟨hih, hold⟩
  · rw [Node.handler_putThread_self hh, hu]
  · rw [Node.handler_putThread_ne hih]
    exact hc j i hold

/-- The entries of a store that a thread left alone. -/
theorem Node.KeyCoherent.kept (hc : n.KeyCoherent) (hu : t.self.uuid = (n.handler h).uuid)
    {j : UUIDv4} {i : HandlerId} (hj : n.store.find? j = some i) :
    (i = h ∧ t.self.uuid = j) ∨ (i ≠ h ∧ n.store.find? j = some i) := by
  by_cases hih : i = h
  · subst hih
    exact Or.inl ⟨rfl, by rw [hu, hc j i hj]⟩
  · exact Or.inr ⟨hih, hj⟩

theorem Node.KeyCoherent.created (hc : n.KeyCoherent) (hn : n.Inv) {id : UUIDv4} :
    (n.created id).KeyCoherent := by
  intro j i hj
  have hj' : (if j = id then some n.handlers.length else n.store.find? j) = some i := by
    rw [← OrdMap.find?_assign]
    exact hj
  split_ifs at hj' with hjid
  · cases hj'
    rw [Node.handler_created_self, hjid]
    rfl
  · rw [Node.handler_created_lt (hn.stored j i hj').1]
    exact hc j i hj'

end Coherence

/-! ## Runs that keep the keys -/

section Runs

variable {n n' : Node} {env : Env} {h : HandlerId} {key : UUIDv4} {message : Message}
  {source : NodeIdentifier}

/-- A handler that holds a pre-reservation does not survive a REF. -/
theorem deliver_ref_faults {version : UInt8} {uuid : UUIDv4} (hn : n.Inv)
    (hk : n.store.find? (n.handler h).uuid = some h)
    (hpre : n.reservationState env (n.handler h).uuid = some .preReserved) :
    (deliver env h (.ref version uuid) source).run n ≠ (.ok (), n') := by
  intro hrun
  have hh := (hn.stored _ _ hk).1
  obtain ⟨⟨a, x⟩, hfind, hx⟩ := Option.map_eq_some_iff.mp hpre
  rcases hr : (operatorCall env h (n.accepting h (.ref version uuid) source).handlers
    (.ref version uuid)).run (n.startThread h (.ref version uuid) source) with ⟨r, t'⟩
  rw [deliver_run hh hr] at hrun
  obtain ⟨rfl, -⟩ := Prod.mk.inj hrun
  exact operatorCall_ref_faults (t := n.startThread h (.ref version uuid) source)
    hn.valid hk hfind hx hr

/-- A round of a handler that is filed under its UUID keeps the keys, but for REF on
translations. -/
theorem Node.KeyCoherent.deliver (hc : n.KeyCoherent) (hn : n.Inv)
    (hk : n.store.find? key = some h)
    (hpre : ∀ v u original, message = .ref v u → n.translationTable.find? key = some original →
      original ≠ key → n.reservationState env key = some .preReserved)
    (hrun : (Rankd.deliver env h message source).run n = (.ok (), n')) : n'.KeyCoherent := by
  have hh := (hn.stored key h hk).1
  have hkey := hc key h hk
  obtain ⟨r, t, hr, -, hf, -⟩ := deliver_filed hn hh rfl env message source
  have hrun' := hrun
  rw [hr] at hrun
  obtain ⟨rfl, rfl⟩ := Prod.mk.inj hrun
  have hkept : t.store = n.store ∧ t.self.uuid = (n.handler h).uuid →
      (Node.putThread t h n).KeyCoherent := by
    rintro ⟨hs, hu⟩
    refine hc.putThread hh ?_
    intro j i hj
    rw [hs] at hj
    exact hc.kept hu hj
  cases message with
  | acc v u =>
    rcases hf with hsame | ⟨horig, -, hs⟩
    · exact hkept hsame
    · have hfind : n.store.find? (n.handler h).uuid = some h := by rw [hkey]; exact hk
      have hts : timestamp t.self.uuid = timestamp (n.handler h).uuid := (hn.table _ _ horig).symm
      have hfree : t.self.uuid = (n.handler h).uuid ∨ n.store.find? t.self.uuid = none := by
        rcases hx : n.store.find? t.self.uuid with _ | i
        · exact Or.inr rfl
        · exact Or.inl (hn.unique _ (OrdMap.mem_keys.mpr ⟨i, hx⟩) _
            (OrdMap.mem_keys.mpr ⟨h, hfind⟩) hts)
      refine hc.putThread hh ?_
      intro j i hj
      have hj' := OrdMap.find?_rename hfind hfree j
      rw [show n.store.rename (n.handler h).uuid t.self.uuid = t.store from hs.symm, hj] at hj'
      split_ifs at hj' with h1 h2
      · exact Or.inl ⟨Option.some.inj hj', h1.symm⟩
      · refine Or.inr ⟨?_, hj'.symm⟩
        rintro rfl
        exact h2 (hn.key_unique hj'.symm hfind)
  | ref v u =>
    by_cases hu : t.self.uuid = (n.handler h).uuid
    · refine hc.putThread hh ?_
      intro j i hj
      rcases hf.store with hs | hs
      · rw [hs] at hj
        exact hc.kept hu hj
      · rw [hs, OrdMap.find?_erase] at hj
        split_ifs at hj
        exact hc.kept hu hj
    · -- The handler took the original of its UUID, so it held a pre-reservation.
      have horig : n.translationTable.find? (n.handler h).uuid = some t.self.uuid :=
        hf.uuid.resolve_left hu
      rw [hkey] at horig hu
      refine absurd hrun' (deliver_ref_faults hn ?_ ?_)
      · rw [hkey]
        exact hk
      · rw [hkey]
        exact hpre v u _ rfl horig hu
  | ear v u r | mar v u r | bid v u value | rep v u length reserved listener => exact hkept hf

/-- A lookup changes neither reservations nor what handlers are doing. -/
theorem Node.Found.unchanged {id : UUIDv4} {n₁ : Node} (hn : n.Inv) (hf : Node.Found id n n₁)
    (i : HandlerId) : n₁.resources = n.resources ∧
      (n₁.handler i).state = (n.handler i).state ∧ (n₁.handler i).running =
      (n.handler i).running := by
  cases hf with
  | same => exact ⟨rfl, rfl, rfl⟩
  | rekeyed hk hts hne =>
    rename_i k h
    refine ⟨Node.resources_rekey, ?_⟩
    by_cases hi : i = h
    · rw [hi, Node.handler_rekey_self hk (hn.stored k h hk).1]
      exact ⟨rfl, rfl⟩
    · rw [Node.handler_rekey_ne hk hi]
      exact ⟨rfl, rfl⟩

theorem reservationState_congr {n₁ : Node} {u v : UUIDv4} (hr : n₁.resources = n.resources)
    (huv : timestamp u = timestamp v) : n₁.reservationState env u = n.reservationState env v := by
  have hfun : (fun e : Nat × Reservation => isSameTimestamp env.ulid e.2.uuid u) =
      fun e => isSameTimestamp env.ulid e.2.uuid v := by
    funext e
    rw [Bool.eq_iff_iff, isSameTimestamp_iff, isSameTimestamp_iff, huv]
  rw [Node.reservationState, Node.reservationState, hr, hfun]

theorem Node.KeyCoherent.receive (hc : n.KeyCoherent) (hn : n.Inv)
    (hm : ¬n.Misfiles env (.receive message source))
    (hrun : (Rankd.receive env message source).run n = (.ok (), n')) : n'.KeyCoherent := by
  have hcases := receive_cases hn env message source
  have hts := handledUuid_timestamp hn env message
  generalize (Rankd.receive env message source).run n = result at hcases hrun
  cases hcases with
  | dropped hf =>
    cases hrun
    exact hc.found hn hf
  | stopped hf he => cases hrun
  | bid hf hk hs hr hm =>
    rename_i n₁ h value
    obtain ⟨address, rfl⟩ := addBid_ok hrun
    intro j i hj
    have hi := ((hf.inv hn).stored j i hj).1
    by_cases hih : i = h
    · subst hih
      rw [Node.handler_modify_self hi]
      exact hc.found hn hf j i hj
    · rw [Node.handler_modify_ne hih]
      exact hc.found hn hf j i hj
  | resumed hf hk hs hr hq =>
    rename_i n₁ h
    refine (hc.found hn hf).deliver (hf.inv hn) hk ?_ hrun
    rintro v u original rfl horig hne
    rw [hf.translationTable] at horig
    by_contra hstate
    refine hm ⟨?_, ?_, original, horig, hne⟩
    · -- The only handler of the timestamp is the one that took the message.
      intro k i hki hkts
      obtain ⟨j, hj, hjts⟩ := (hf.renames hn).find?_of_eq_some hki
      have hjk : j = handledUuid env n (.ref v u) :=
        (hf.inv hn).unique j (OrdMap.mem_keys.mpr ⟨i, hj⟩) _ (OrdMap.mem_keys.mpr ⟨h, hk⟩)
          (hjts.trans (hkts.trans hts.symm))
      rw [hjk, hk] at hj
      cases hj
      obtain ⟨-, hstate', hrunning⟩ := hf.unchanged hn h
      rw [hstate'] at hs
      rw [hrunning] at hr
      exact ⟨hr, hs⟩
    · intro hp
      refine hstate ?_
      rw [reservationState_congr (hf.unchanged hn h).1 hts]
      exact hp
  | created hfree =>
    have hk : (n.created message.uuid).store.find? message.uuid = some n.handlers.length := by
      simp [Node.created]
    refine (hc.created hn).deliver (hn.created hfree) hk ?_ hrun
    · rintro v u original rfl horig hne
      by_contra hstate
      -- without a related key the REF is handled under its own UUID
      have hrel : storeContainsUuidsRelatedTo env n u = false := by
        rw [storeContainsUuidsRelatedTo, List.any_eq_false]
        intro k hk hsame
        exact hfree k hk (isSameTimestamp_iff.mp hsame)
      have huuid : handledUuid env n (.ref v u) = u := by
        simp only [handledUuid, Message.uuid, hrel, Bool.and_false, Bool.false_eq_true, if_false]
      refine hm ⟨?_, hstate, original, ?_, ?_⟩
      · intro k i hki hkts
        exact absurd hkts (hfree k (OrdMap.mem_keys.mpr ⟨i, hki⟩))
      · rw [huuid]
        exact horig
      · rw [huuid]
        exact hne

/-- A step that does not give a handler a UUID without its key. -/
def Node.ConformingStep (n n' : Node) : Prop :=
  ∃ env action, action.enabled n ∧ ¬n.Misfiles env action ∧
    (perform env action).run n = (.ok (), n')

theorem Node.KeyCoherent.of_frame {t : Thread} (hc : n.KeyCoherent) (hn : n.Inv)
    (hs : t.store = n.store) (hu : t.self.uuid = (n.handler h).uuid) :
    (Node.putThread t h n).KeyCoherent := by
  intro j i hj
  have hj' : n.store.find? j = some i := by
    rw [← hs]
    exact hj
  by_cases hih : i = h
  · subst hih
    rw [Node.handler_putThread_self (hn.stored j i hj').1, hu]
    exact hc j i hj'
  · rw [Node.handler_putThread_ne hih]
    exact hc j i hj'

theorem Node.KeyCoherent.step (hc : n.KeyCoherent) (hn : n.Inv) {action : Action}
    (hm : ¬n.Misfiles env action) (hrun : (perform env action).run n = (.ok (), n')) :
    n'.KeyCoherent := by
  cases action with
  | receive message source => exact hc.receive hn hm hrun
  | wake h =>
    obtain ⟨t, ht, rfl⟩ := runThread_run hrun
    have hinv := (wake_keeps env h).ok hn.thread_inv ht
    exact hc.of_frame hn hinv.store hinv.uuid
  | timeout h type =>
    obtain ⟨t, hinv, rfl⟩ := hn.timeout_thread hrun
    exact Node.KeyCoherent.of_frame (n := n.expire h type) hc
      (hn.expire h type) hinv.store hinv.uuid
  | markOrigin uuid pid =>
    cases hrun
    exact hc

/--
**Every handler is filed under its own UUID**, in every run that processes no REF for a session with
a translated UUID and without a pre-reservation.
-/
theorem keyCoherent_of_conforming
    (hrun : Relation.ReflTransGen Node.ConformingStep Node.initial n) :
    ∀ k h, n.store.find? k = some h → (n.handler h).uuid = k := by
  have hboth : n.Inv ∧ n.KeyCoherent := by
    induction hrun with
    | refl => exact ⟨Node.Inv.initial, by intro k h hk; cases hk⟩
    | tail _ hstep ih =>
      obtain ⟨env, action, -, hm, hrun⟩ := hstep
      exact ⟨(ih.1.step hrun).1, ih.2.step ih.1 hm hrun⟩
  exact hboth.2

/-- Runs without REFs conform. -/
theorem performAll_conforming {env : Env} {actions : List Action} {n' : Node}
    (hrefs : ∀ action ∈ actions, ∀ m : Node, ¬m.Misfiles env action)
    (hrun : performAll env actions n = some n') :
    Relation.ReflTransGen Node.ConformingStep n n' := by
  induction actions generalizing n with
  | nil =>
    cases hrun
    exact .refl
  | cons action rest ih =>
    obtain ⟨n₁, hen, hstep, hrest⟩ := performAll_cons hrun
    refine .head ⟨env, action, hen, hrefs action List.mem_cons_self n, hstep⟩ (ih ?_ hrest)
    exact fun a ha => hrefs a (List.mem_cons_of_mem _ ha)

/-- After a tie the ACC of the first winner moves the handler to the key of its
translation and back. -/
theorem keyCoherent_of_conforming_acc : ∃ n : Node,
    performAll .sample (sampleTie (sampleUuid 7 0) ++
      [.receive (.acc 1 (translation .sample 0 (sampleUuid 7 0))) ([6], .simulation)]) .initial =
        some n ∧ n.store.find? (sampleUuid 7 0) = some 0 ∧ (n.handler 0).state = .reserved ∧
      (n.handler 0).uuid = sampleUuid 7 0 := by
  have hrun : (performAll .sample (sampleTie (sampleUuid 7 0) ++
      [.receive (.acc 1 (translation .sample 0 (sampleUuid 7 0))) ([6], .simulation)])
      .initial).any (fun n => n.store.find? (sampleUuid 7 0) = some 0 ∧
        (n.handler 0).state = .reserved) = true := by
    decide +kernel
  obtain ⟨n, hn, hfacts⟩ := (Option.any_eq_true _ _).mp hrun
  obtain ⟨hfind, hstate⟩ := of_decide_eq_true hfacts
  refine ⟨n, hn, hfind, hstate, keyCoherent_of_conforming (performAll_conforming ?_ hn) _ _ hfind⟩
  intro action haction m
  simp only [sampleTie, List.cons_append, List.nil_append, List.mem_cons, List.not_mem_nil,
    or_false] at haction
  rcases haction with rfl | rfl | rfl | rfl | rfl <;> exact id

/-- After a tie, an ACC and then a REF for the translations leave the handler under a foreign
key. -/
theorem keyCoherent_tie : ¬∀ n : Node, n.Reachable →
    ∀ k h, n.store.find? k = some h → (n.handler h).uuid = k := by
  have hrun : (performAll .sample (sampleTie (sampleUuid 7 0) ++
      [.receive (.acc 1 (translation .sample 0 (sampleUuid 7 0))) ([6], .simulation),
        .receive (.ref 1 (translation .sample 1 (sampleUuid 7 0))) ([7], .simulation)])
      .initial).map (fun n => (n.store.find? (translation .sample 1 (sampleUuid 7 0)),
        (n.handler 0).uuid)) = some (some 0, sampleUuid 7 0) := by
    decide +kernel
  obtain ⟨n, hn, heq⟩ := Option.map_eq_some_iff.mp hrun
  obtain ⟨hfind, huuid⟩ := Prod.mk.inj heq
  intro hcoherent
  have hbad := hcoherent n (performAll_steps hn) _ _ hfind
  rw [huuid] at hbad
  exact absurd hbad (by decide +kernel)

end Runs

end Rankd

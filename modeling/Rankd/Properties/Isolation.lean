import Rankd.Properties.Store

/-!
# Sessions do not disturb each other

A session is known by its timestamp: the store, the reservations and the origin set are searched by
it. So a message stays within the sessions of its timestamp (`Node.Within`, `session_isolation`),
and two UUIDs that share a timestamp share a session even when no translation relates them
(`session_isolation_collision`).
-/

namespace Rankd

open Infra Prog

/-- What changed between two nodes belongs to the timestamp `T`. -/
structure Node.Within (T : Nat) (n n' : Node) : Prop where
  store : ∀ k, timestamp k ≠ T → n'.store.find? k = n.store.find? k
  length : n.handlers.length ≤ n'.handlers.length
  handler : ∀ h < n.handlers.length, timestamp (n.handler h).uuid ≠ T → n'.handler h = n.handler h
  others : ReservationList.others T n'.resources.reservations =
    ReservationList.others T n.resources.reservations

section Within

variable {n n₁ n' : Node} {T : Nat} {h : HandlerId} {message : Message} {source : NodeIdentifier}
  {env : Env}

theorem Node.Within.trans (h₁ : Node.Within T n n₁) (h₂ : Node.Within T n₁ n') :
    Node.Within T n n' where
  store k hk := (h₂.store k hk).trans (h₁.store k hk)
  length := Nat.le_trans h₁.length h₂.length
  handler i hi hT := by
    have heq := h₁.handler i hi hT
    rw [h₂.handler i (Nat.lt_of_lt_of_le hi h₁.length) (by rw [heq]; exact hT), heq]
  others := h₂.others.trans h₁.others

theorem Node.Within.found (hn : n.Inv) {id : UUIDv4} (hf : Node.Found id n n₁) :
    Node.Within (timestamp id) n n₁ := by
  cases hf with
  | same => exact ⟨fun _ _ => rfl, Nat.le_refl _, fun _ _ _ => rfl, rfl⟩
  | rekeyed hk hts hne =>
    rename_i k h
    refine ⟨?_, ?_, ?_, ?_⟩
    · intro j hj
      have hj₁ : j ≠ id := by rintro rfl; exact hj rfl
      have hj₂ : j ≠ k := by rintro rfl; exact hj hts
      rw [Node.find?_rekey hk hne, if_neg hj₁, if_neg hj₂]
    · rw [Node.length_rekey]
    · intro i hi hT
      have hih : i ≠ h := by
        rintro rfl
        exact hT ((hn.stored k i hk).2.trans hts)
      exact Node.handler_rekey_ne hk hih
    · rw [Node.resources_rekey]

theorem Store.Moves.find?_ne {s s' : Store} (hm : Store.Moves message T s s') {k : UUIDv4}
    (hk : timestamp k ≠ T) : s'.find? k = s.find? k := by
  have hne : ∀ {j : UUIDv4}, timestamp j = T → k ≠ j := by
    rintro j hj rfl
    exact hk hj
  rcases hm with (rfl | ⟨j, j', h, hj, hj', -, -, hs⟩) | ⟨v, u, j, -, hj, rfl⟩
  · rfl
  · rw [hs, if_neg (hne hj'), if_neg (hne hj)]
  · rw [OrdMap.find?_erase, if_neg (hne hj)]

theorem Node.Within.deliver (hn : n.Inv) (hh : h < n.handlers.length)
    (hT : timestamp (n.handler h).uuid = T) :
    Node.Within T n ((deliver env h message source).run n).2 := by
  obtain ⟨r, t, hr, htame, hf, -⟩ := deliver_filed hn hh hT env message source
  rw [hr]
  refine ⟨?_, ?_, ?_, htame.confined.others⟩
  · intro k hk
    exact (hf.moves hn hT).1.find?_ne hk
  · rw [Node.length_putThread]
  · intro i hi hiT
    have hih : i ≠ h := by rintro rfl; exact hiT hT
    exact Node.handler_putThread_ne hih

theorem Node.Within.created {id : UUIDv4} : Node.Within (timestamp id) n (n.created id) where
  store k hk := by
    have hne : k ≠ id := by rintro rfl; exact hk rfl
    simp [Node.created, hne]
  length := by simp [Node.created]
  handler i hi _ := Node.handler_created_lt hi
  others := rfl

/-- **A message stays within the sessions of its timestamp**, also when its processing faults. -/
theorem Node.Within.receive (hn : n.Inv) (env : Env) (message : Message) (source : NodeIdentifier) :
    Node.Within (timestamp message.uuid) n ((receive env message source).run n).2 := by
  have hcases := receive_cases hn env message source
  have hts := handledUuid_timestamp hn env message
  generalize (Rankd.receive env message source).run n = result at hcases
  cases hcases with
  | dropped hf => exact .found hn hf
  | stopped hf => exact .found hn hf
  | bid hf hk hs hr hm =>
    rename_i n₁ h value
    refine (Node.Within.found hn hf).trans ?_
    have hT := ((hf.inv hn).stored _ _ hk).2.trans hts
    rcases addBid_run env h value source n₁ with he | ⟨address, -, hadd⟩
    · rw [he]
      exact ⟨fun _ _ => rfl, Nat.le_refl _, fun _ _ _ => rfl, rfl⟩
    · rw [hadd]
      refine ⟨fun _ _ => rfl, ?_, ?_, rfl⟩
      · rw [Node.length_modifyHandler]
      · intro i hi hiT
        have hih : i ≠ h := by rintro rfl; exact hiT hT
        exact Node.handler_modify_ne hih
  | resumed hf hk hs hr hq =>
    obtain ⟨hh, hT⟩ := (hf.inv hn).stored _ _ hk
    exact (Node.Within.found hn hf).trans (.deliver (hf.inv hn) hh (hT.trans hts))
  | created hfree =>
    have hh : n.handlers.length < (n.created message.uuid).handlers.length := by
      simp [Node.created]
    refine Node.Within.created.trans (.deliver (hn.created hfree) hh ?_)
    rw [Node.handler_created_self]
    rfl

end Within

/-! ## Isolation -/

/-- An EAR whose listener can be read. Listener codes from the wire are below 8. -/
def Message.listenerReadable : Message → Prop
  | .ear _ _ r => r.listenerLength.toNat ≤ 16
  | _ => True

theorem listenerField_ok {code : UInt8} (listener : ListenerArray) (h : code.toNat ≤ 16) :
    ∃ first rest, listenerField code listener = .ok (first :: rest) := by
  have hread : ∀ n : Nat, 0 < n → n ≤ 16 →
      ∃ first rest, readRun Thrown.outOfRange listener.toList n 0 [] = .ok (first :: rest) := by
    intro n hpos hle
    have hlen : listener.toList.length = 16 := by simp
    obtain ⟨first, rest, hlist⟩ := List.exists_cons_of_length_pos
      (show 0 < (listener.toList.take n).length by rw [List.length_take, hlen]; omega)
    refine ⟨first, rest, ?_⟩
    rw [readRun_of_le (by rw [hlen]; omega), List.nil_append, List.drop_zero, hlist]
  unfold listenerField
  split_ifs with hc
  · exact hread 1 (by omega) (by omega)
  · refine hread code.toNat (Nat.pos_of_ne_zero ?_) h
    intro h0
    exact hc (UInt8.toNat.inj h0)

theorem listenerOfMessage_free {env : Env} {message : Message} {n : Node}
    (hm : message.listenerReadable)
    (hfree : ∀ k ∈ n.store.keys, timestamp k ≠ timestamp message.uuid) :
    (listenerOfMessage env message).run n = (.ok false, n) := by
  cases message with
  | ear v u r =>
    have hrel : storeContainsUuidsRelatedTo env n u = false := by
      rw [storeContainsUuidsRelatedTo, List.any_eq_false]
      intro k hk hsame
      exact hfree k hk (isSameTimestamp_iff.mp hsame)
    obtain ⟨first, rest, hfield⟩ := listenerField_ok r.listener hm
    simp only [listenerOfMessage, requestListener, run_bind, run_get, hfield, run_pure,
      List.head?_cons, require_some, hrel, Bool.and_false]
  | mar v u r | bid v u value | acc v u | ref v u | rep v u length reserved listener => rfl

/-- The first message of a session starts a handler of its own. -/
theorem receive_first {n : Node} {env : Env} {message : Message} {source : NodeIdentifier}
    (hm : message.listenerReadable)
    (hfree : ∀ k ∈ n.store.keys, timestamp k ≠ timestamp message.uuid) :
    (receive env message source).run n =
      (deliver env n.handlers.length message source).run (n.created message.uuid) := by
  have hknown : (knownSession env message.uuid false).run n = (.ok false, n) :=
    isUuidInStore_free hfree false
  rw [receive, bind_ok (run_get n), bind_ok (listenerOfMessage_free hm hfree),
    bind_ok (isUuidInStore_free hfree true), Bool.false_and, if_neg Bool.false_ne_true,
    Bool.and_false, Bool.or_false, bind_ok hknown, if_neg Bool.false_ne_true,
    bind_ok (createHandler_run message.uuid n)]

/--
**Sessions with different timestamps are isolated.** A message for `u` leaves the store entry, the
handler and the reservations of `v` as they are, also when its processing faults; and the first
message of a session gets a handler of its own, whatever else is in the store.
-/
theorem session_isolation {n : Node} (hn : n.Reachable) {u v : UUIDv4}
    (huv : timestamp u ≠ timestamp v) :
    (∀ env message source, message.uuid = u →
      ((receive env message source).run n).2.store.find? v = n.store.find? v ∧
        (∀ h, n.store.find? v = some h →
          ((receive env message source).run n).2.handler h = n.handler h) ∧
        ReservationList.session (timestamp v)
        ((receive env message source).run n).2.resources.reservations =
          ReservationList.session (timestamp v) n.resources.reservations) ∧
      ∀ env message source, message.uuid = u → message.listenerReadable →
        (∀ k ∈ n.store.keys, timestamp k ≠ timestamp u) →
        (receive env message source).run n =
          (deliver env n.handlers.length message source).run (n.created u) := by
  refine ⟨?_, ?_⟩
  · rintro env message source rfl
    have hw := Node.Within.receive hn.inv env message source
    refine ⟨hw.store v huv.symm, ?_, ReservationList.session_of_others huv.symm hw.others⟩
    intro h hv
    obtain ⟨hh, hts⟩ := hn.inv.stored v h hv
    exact hw.handler h hh (by rw [hts]; exact huv.symm)
  · rintro env message source rfl hm hfree
    exact receive_first hm hfree

theorem session_isolation_tie :
    ∃ n, performAll .sample (sampleTie (sampleUuid 7 0)) .initial = some n ∧
      timestamp (sampleUuid 8 0) ≠ timestamp (sampleUuid 7 0) ∧
      ((receive .sample (.ear 1 (sampleUuid 8 0) (.sample 9)) ([5], .simulation)).run
      n).2.store.find?
        (sampleUuid 7 0) = some 0 := by
  have hfind : (performAll .sample (sampleTie (sampleUuid 7 0)) .initial).map
      (·.store.find? (sampleUuid 7 0)) = some (some 0) := by
    decide +kernel
  obtain ⟨n, hn, hv⟩ := Option.map_eq_some_iff.mp hfind
  have hne : timestamp (sampleUuid 8 0) ≠ timestamp (sampleUuid 7 0) := by decide +kernel
  refine ⟨n, hn, hne, ?_⟩
  rw [← hv]
  exact ((session_isolation (performAll_steps hn) hne).1 .sample
    (.ear 1 (sampleUuid 8 0) (.sample 9)) ([5], .simulation) rfl).1

/--
Two UUIDs with one timestamp and no translation between them: a message for one takes the store
entry, the handler and the reservation of the other.
-/
theorem session_isolation_collision : ¬∀ (n : Node) (u v : UUIDv4), n.Reachable → u ≠ v →
    n.translationTable.find? u ≠ some v → n.translationTable.find? v ≠ some u →
    ∀ env message source, message.uuid = u →
      ((receive env message source).run n).2.store.find? v = n.store.find? v := by
  have hrun :
    (performAll .sample [.receive (.ear 1 (sampleUuid 7 0) (.sample 6)) ([5], .simulation)]
      .initial).map (fun n => (n.store.find? (sampleUuid 7 0), n.translationTable.keys,
        ((receive .sample (.acc 1 (sampleUuid 7 1)) ([6], .simulation)).run n).2.store.find?
          (sampleUuid 7 0))) = some (some 0, [], none) := by
    decide +kernel
  obtain ⟨n, hn, heq⟩ := Option.map_eq_some_iff.mp hrun
  simp only [Prod.mk.injEq] at heq
  obtain ⟨hfind, htable, hafter⟩ := heq
  have hnone : ∀ u : UUIDv4, n.translationTable.find? u = none := by
    intro u
    rcases hu : n.translationTable.find? u with _ | v
    · rfl
    · have := OrdMap.mem_keys.mpr ⟨v, hu⟩
      rw [htable] at this
      cases this
  intro hall
  have h := hall n (sampleUuid 7 1) (sampleUuid 7 0) (performAll_steps hn) (by decide +kernel)
    (by rw [hnone]; nofun) (by rw [hnone]; nofun) .sample (.acc 1 (sampleUuid 7 1))
    ([6], .simulation) rfl
  rw [hafter, hfind] at h
  cases h

end Rankd

import Rankd.Node.Log
import Rankd.Properties.Isolation

/-!
# What a step leaves alone

A step belongs to the session of its message, of the handler whose thread or timer runs, or of the
UUID that the API marks. To the sessions of other timestamps the node looks the same afterwards
(`Node.Untouched`): store, handlers, reservations, timers, translations, origin and results; and no
message of theirs is sent.

* `Node.Inv.untouched`: one step
* `Node.Timed`: the timers are those of handlers
-/

namespace Rankd

open Infra Prog

/-- The timestamp of the session that a step belongs to. -/
def Action.session (n : Node) : Action → Nat
  | .receive message _ => timestamp message.uuid
  | .wake h | .timeout h _ => timestamp (n.handler h).uuid
  | .markOrigin uuid _ => timestamp uuid

/-- Every timer is the timer of a handler. -/
def Node.Timed (n : Node) : Prop := ∀ e ∈ n.timeouts, e.1 < n.handlers.length

/-- The timers of the sessions with timestamp `T`. -/
def Node.timersOf (T : Nat) (n : Node) : List (HandlerId × TimeoutType) :=
  n.timeouts.filter fun e => timestamp (n.handler e.1).uuid = T

/-- The results of the sessions with timestamp `T`. -/
def Node.resultsOf (T : Nat) (n : Node) : List (ApiResult × UUIDv4) :=
  n.results.filter fun e => timestamp e.2 = T

/-- The node `n'` looks like `n` to the sessions with timestamp `T`. -/
structure Node.Untouched (T : Nat) (n n' : Node) : Prop where
  store : ∀ k, timestamp k = T → n'.store.find? k = n.store.find? k
  length : n.handlers.length ≤ n'.handlers.length
  handler : ∀ h < n.handlers.length, timestamp (n.handler h).uuid = T → n'.handler h = n.handler h
  known : ∀ h < n'.handlers.length, timestamp (n'.handler h).uuid = T →
    h < n.handlers.length ∧ timestamp (n.handler h).uuid = T
  reservations : ReservationList.session T n'.resources.reservations =
    ReservationList.session T n.resources.reservations
  timers : n'.timersOf T = n.timersOf T
  translations : ∀ k, timestamp k = T → n'.translationTable.find? k = n.translationTable.find? k
  origins : ∀ k, timestamp k = T → n'.originSet.find? k = n.originSet.find? k
  results : n'.resultsOf T = n.resultsOf T
  sends : ∃ l, n'.sendingMessages = n.sendingMessages ++ l ∧ ∀ e ∈ l, timestamp e.1.uuid ≠ T

section Untouched

variable {env : Env} {n n₁ n' n'' : Node} {h : HandlerId} {T T' : Nat} {message : Message}
  {source : NodeIdentifier} {starts : TimeoutType → Prop}

theorem Node.Untouched.refl (T : Nat) (n : Node) : Node.Untouched T n n where
  store _ _ := rfl
  length := le_rfl
  handler _ _ _ := rfl
  known _ hh hT := ⟨hh, hT⟩
  reservations := rfl
  timers := rfl
  translations _ _ := rfl
  origins _ _ := rfl
  results := rfl
  sends := append_nothing _

theorem Node.Untouched.trans (h₁ : Node.Untouched T n n') (h₂ : Node.Untouched T n' n'') :
    Node.Untouched T n n'' where
  store k hk := (h₂.store k hk).trans (h₁.store k hk)
  length := h₁.length.trans h₂.length
  handler h hh hT := by
    have heq := h₁.handler h hh hT
    rw [h₂.handler h (hh.trans_le h₁.length) (by rw [heq]; exact hT), heq]
  known h hh hT := by
    obtain ⟨hh', hT'⟩ := h₂.known h hh hT
    exact h₁.known h hh' hT'
  reservations := h₂.reservations.trans h₁.reservations
  timers := h₂.timers.trans h₁.timers
  translations k hk := (h₂.translations k hk).trans (h₁.translations k hk)
  origins k hk := (h₂.origins k hk).trans (h₁.origins k hk)
  results := h₂.results.trans h₁.results
  sends := by
    obtain ⟨l₁, hl₁, hall₁⟩ := h₁.sends
    obtain ⟨l₂, hl₂, hall₂⟩ := h₂.sends
    refine ⟨l₁ ++ l₂, by rw [hl₂, hl₁, List.append_assoc], ?_⟩
    rw [List.forall_mem_append]
    exact ⟨hall₁, hall₂⟩

/-- A lookup of another session. -/
theorem Node.Untouched.found {id : UUIDv4} (hn : n.Inv) (hf : Node.Found id n n₁)
    (hT : timestamp id ≠ T) : Node.Untouched T n n₁ := by
  cases hf with
  | same => exact .refl T n
  | rekeyed hk hts hne =>
    rename_i k h
    have hlt := (hn.stored k h hk).1
    have hself : timestamp (n.handler h).uuid ≠ T := by
      rw [(hn.stored k h hk).2, hts]
      exact hT
    have hsame : ∀ i, timestamp ((n.rekey k id).handler i).uuid = timestamp (n.handler i).uuid := by
      intro i
      by_cases hi : i = h
      · subst hi
        rw [Node.handler_rekey_self hk hlt, (hn.stored k i hk).2]
        exact hts.symm
      · rw [Node.handler_rekey_ne hk hi]
    refine ⟨?_, ?_, ?_, ?_, ?_, ?_, ?_, ?_, ?_, ?_⟩
    · intro j hj
      have hj₁ : j ≠ id := by rintro rfl; exact hT hj
      have hj₂ : j ≠ k := by rintro rfl; exact hT (hts ▸ hj)
      rw [Node.find?_rekey hk hne, if_neg hj₁, if_neg hj₂]
    · rw [Node.length_rekey]
    · intro i _ hi
      have hih : i ≠ h := by rintro rfl; exact hself hi
      exact Node.handler_rekey_ne hk hih
    · intro i hi hiT
      rw [Node.length_rekey] at hi
      rw [hsame] at hiT
      exact ⟨hi, hiT⟩
    · rw [Node.resources_rekey]
    · simp only [Node.timersOf, hsame]
      rw [(Node.Found.rekeyed hk hts hne).timeouts]
    all_goals rw [Node.rekey_eq hk]
    · exact fun _ _ => rfl
    · exact fun _ _ => rfl
    · rfl
    · exact append_nothing _

theorem Node.Untouched.created {id : UUIDv4} (ht : n.Timed) (hT : timestamp id ≠ T) :
    Node.Untouched T n (n.created id) where
  store k hk := by
    have hne : k ≠ id := by rintro rfl; exact hT hk
    simp [Node.created, hne]
  length := by simp [Node.created]
  handler h hh _ := Node.handler_created_lt hh
  known h hh hhT := by
    by_cases hnew : h = n.handlers.length
    · rw [hnew, Node.handler_created_self] at hhT
      exact absurd hhT hT
    · have hlen : (n.created id).handlers.length = n.handlers.length + 1 := by simp [Node.created]
      rw [Node.handler_created_ne hnew] at hhT
      exact ⟨by omega, hhT⟩
  reservations := rfl
  timers := by
    refine List.filter_congr fun e he => ?_
    rw [Node.handler_created_lt (ht e he)]
  translations _ _ := rfl
  origins _ _ := rfl
  results := rfl
  sends := append_nothing _

/-- A filter that takes nothing of what was added. -/
theorem filter_append_of_none {α : Type} {p : α → Bool} {l l' added : List α} (h : l' = l ++ added)
    (hp : ∀ e ∈ added, p e = false) : l'.filter p = l.filter p := by
  have hnone : added.filter p = [] := by
    rw [List.filter_eq_nil_iff]
    intro e he
    rw [hp e he]
    exact Bool.false_ne_true
  rw [h, List.filter_append, hnone, List.append_nil]

/-- A round of a handler of another session. -/
theorem Node.Untouched.putThread {t : Thread} (hh : h < n.handlers.length)
    (hT : timestamp (n.handler h).uuid = T') (hne : T' ≠ T)
    (hlog : Thread.Logged h T' starts (n.thread h) t)
    (hconf : Resources.Confined T' n.resources t.resources)
    (hstore : ∀ k, timestamp k ≠ T' → t.store.find? k = n.store.find? k) :
    Node.Untouched T n (Node.putThread t h n) := by
  have hsame : ∀ i, timestamp ((Node.putThread t h n).handler i).uuid =
      timestamp (n.handler i).uuid := by
    intro i
    by_cases hi : i = h
    · subst hi
      rw [Node.handler_putThread_self hh, hlog.session, hT]
    · rw [Node.handler_putThread_ne hi]
  have hother : ∀ {k : UUIDv4}, timestamp k = T → timestamp k ≠ T' := by
    rintro k rfl
    exact hne.symm
  refine ⟨fun k hk => hstore k (hother hk), ?_, ?_, ?_, ?_, ?_, ?_, ?_, ?_, ?_⟩
  · rw [Node.length_putThread]
  · intro i _ hi
    have hih : i ≠ h := by
      rintro rfl
      exact hne (hT.symm.trans hi)
    exact Node.handler_putThread_ne hih
  · intro i hi hiT
    rw [Node.length_putThread] at hi
    rw [hsame] at hiT
    exact ⟨hi, hiT⟩
  · exact ReservationList.session_of_others hne.symm hconf.others
  · obtain ⟨types, htypes, -⟩ := hlog.timeouts
    simp only [Node.timersOf, hsame]
    refine filter_append_of_none htypes fun e he => ?_
    obtain ⟨type, -, rfl⟩ := List.mem_map.mp he
    rw [decide_eq_false_iff_not, hT]
    exact hne
  · exact fun k hk => hlog.translations k (hother hk)
  · exact fun k hk => hlog.origins k (hother hk)
  · obtain ⟨l, hl, hall⟩ := hlog.results
    refine filter_append_of_none hl fun e he => ?_
    rw [decide_eq_false_iff_not, hall e he]
    exact hne
  · obtain ⟨l, hl, hall⟩ := hlog.sends
    exact ⟨l, hl, fun e he => by rw [hall e he]; exact hne⟩

/-- A bid for an auction of another session. -/
theorem Node.Untouched.withBid {bid : Bid} (hh : h < n.handlers.length)
    (hT : timestamp (n.handler h).uuid ≠ T) : Node.Untouched T n (n.withBid h bid) := by
  have hsame : ∀ i, timestamp ((n.withBid h bid).handler i).uuid =
    timestamp (n.handler i).uuid := by
    intro i
    by_cases hi : i = h
    · subst hi
      rw [Node.withBid, Node.handler_modify_self hh]
    · rw [Node.withBid, Node.handler_modify_ne hi]
  have hlength : (n.withBid h bid).handlers.length = n.handlers.length := Node.length_modifyHandler
  refine ⟨fun _ _ => rfl, hlength.ge, ?_, ?_, rfl, ?_, fun _ _ => rfl, fun _ _ => rfl, rfl,
    append_nothing _⟩
  · intro i _ hi
    have hih : i ≠ h := by rintro rfl; exact hT hi
    exact Node.handler_modify_ne hih
  · intro i hi hiT
    rw [hlength] at hi
    rw [hsame] at hiT
    exact ⟨hi, hiT⟩
  · simp only [Node.timersOf, hsame]
    rfl

theorem Node.Untouched.expire {type : TimeoutType} (hT : timestamp (n.handler h).uuid ≠ T) :
    Node.Untouched T n (n.expire h type) where
  store _ _ := rfl
  length := le_rfl
  handler _ _ _ := rfl
  known _ hh hT := ⟨hh, hT⟩
  reservations := rfl
  timers := by
    show (n.timeouts.erase (h, type)).filter (fun e => timestamp (n.handler e.1).uuid = T) =
      n.timeouts.filter fun e => timestamp (n.handler e.1).uuid = T
    rw [← List.erase_filter, List.erase_of_not_mem]
    intro hmem
    exact hT (of_decide_eq_true (List.mem_filter.mp hmem).2)
  translations _ _ := rfl
  origins _ _ := rfl
  results := rfl
  sends := append_nothing _

/-- The callback of a timer writes no log. -/
theorem Thread.TimedOut.logged {type : TimeoutType} {r : Except Fault Unit} {t t' : Thread}
    (ht : t.TimedOut type r t')
    (htable : ∀ k v, t.translationTable.find? k = some v → timestamp k = timestamp v) :
    Thread.Logged h (timestamp t.self.uuid) (Action.starts env (.timeout h type)) t t' := by
  cases ht <;> exact { Thread.Logged.start rfl htable with }

/-- A handler that takes a message of another session. -/
theorem Node.Untouched.hands (hh : Node.Hands env message n n₁ h) (hn : n.Inv) (ht : n.Timed)
    (hT : timestamp message.uuid ≠ T) : Node.Untouched T n n₁ := by
  cases hh with
  | resumed hf => exact .found hn hf hT
  | created => exact .created ht hT

/-- **A step of another session leaves a session alone.** -/
theorem Node.Inv.untouched (hn : n.Inv) (ht : n.Timed) {action : Action} (hen : action.enabled n)
    (hT : action.session n ≠ T) (hrun : (perform env action).run n = (.ok (), n')) :
    Node.Untouched T n n' := by
  cases hn.stepped hrun with
  | dropped hf => exact .found hn hf hT
  | bid hf hk hs hr hb =>
    obtain ⟨hlt, hts⟩ := (hf.inv hn).stored _ _ hk
    refine (Node.Untouched.found hn hf hT).trans (.withBid hlt ?_)
    rw [hts, handledUuid_timestamp hn]
    exact hT
  | round hh hcall =>
    rename_i message source n₁ h t
    refine (Node.Untouched.hands hh hn ht hT).trans ?_
    have hlog := hh.logged hn hcall
    obtain ⟨hconf, hmoves⟩ := hh.confined hn hcall
    refine .putThread (hh.lt hn) (hh.timestamp_eq hn) hT hlog (hh.resources ▸ hconf) ?_
    exact fun k hk => hmoves.find?_ne hk
  | woken hwake =>
    rename_i h t
    have hlog := hn.wake_logged hwake
    have hframe := (wake_keeps env h).ok hn.thread_inv hwake
    exact .putThread hen.1 rfl hT hlog hframe.confined fun k _ => by rw [hframe.store]; rfl
  | fired hfire =>
    rename_i h type r t _ _
    have hlt : h < n.handlers.length := ht _ hen
    have hlog : Thread.Logged h (timestamp (n.handler h).uuid) (Action.starts env (.timeout h type))
        ((n.expire h type).thread h) t := (onTimeout_timedOut hfire).logged hn.table
    have hexpire : Node.Untouched T n (n.expire h type) := .expire hT
    refine hexpire.trans ?_
    have hframe := (hn.expire h type).callback hfire
    exact .putThread (n := n.expire h type) hlt rfl hT hlog
      hframe.confined fun k _ => by rw [hframe.store]; rfl
  | marked =>
    rename_i uuid pid
    refine { Node.Untouched.refl T n with origins := fun k hk => ?_ }
    have hne : k ≠ uuid := by
      rintro rfl
      exact hT hk
    rw [OrdMap.find?_insertNew, if_neg hne]

/-! ## Timers and their handlers -/

theorem Node.Timed.putThread {t : Thread} (ht : n.Timed) (hh : h < n.handlers.length)
    (hlog : Thread.Logged h T starts (n.thread h) t) : (Node.putThread t h n).Timed := by
  obtain ⟨types, htypes, -⟩ := hlog.timeouts
  intro e he
  have he' : e ∈ n.timeouts ++ types.map (h, ·) := htypes ▸ he
  rw [Node.length_putThread]
  rcases List.mem_append.mp he' with hold | hnew
  · exact ht e hold
  · obtain ⟨type, -, rfl⟩ := List.mem_map.mp hnew
    exact hh

theorem Node.Timed.step (ht : n.Timed) (hn : n.Inv) {action : Action} (hen : action.enabled n)
    (hrun : (perform env action).run n = (.ok (), n')) : n'.Timed := by
  have hfound : ∀ {id : UUIDv4} {n₁ : Node}, Node.Found id n n₁ → n₁.Timed := by
    intro id n₁ hf e he
    rw [hf.timeouts] at he
    rw [hf.length]
    exact ht e he
  cases hn.stepped hrun with
  | dropped hf => exact hfound hf
  | bid hf hk hs hr hb =>
    intro e he
    rw [Node.withBid, Node.length_modifyHandler]
    exact hfound hf e he
  | round hh hcall =>
    rename_i message source n₁ h t
    have ht₁ : n₁.Timed := by
      cases hh with
      | resumed hf => exact hfound hf
      | created hfree =>
        intro e he
        have hlen : (n.created message.uuid).handlers.length = n.handlers.length + 1 := by
          simp [Node.created]
        rw [hlen]
        exact Nat.lt_succ_of_lt (ht e he)
    exact ht₁.putThread (hh.lt hn) (hh.logged hn hcall)
  | woken hwake => exact ht.putThread hen.1 (hn.wake_logged hwake)
  | fired hfire =>
    rename_i h type r t _ _
    have hexpired : (n.expire h type).Timed := fun e he => ht e (List.mem_of_mem_erase he)
    have hlog : Thread.Logged h (timestamp (n.handler h).uuid) (Action.starts env (.timeout h type))
        ((n.expire h type).thread h) t := (onTimeout_timedOut hfire).logged hn.table
    exact hexpired.putThread (ht _ hen) hlog
  | marked => exact ht

theorem Node.Reachable.timed (hn : n.Reachable) : n.Timed := by
  induction hn with
  | refl => exact nofun
  | tail hrun hstep ih =>
    obtain ⟨env, action, hen, hperform⟩ := hstep
    exact ih.step (Node.Reachable.inv hrun) hen hperform

/-! ## Messages that a step sends -/

/-- What is sent on the way is what was added to the messages. -/
theorem Node.mem_sentUntil {l : SendingQueue} (hl : n'.sendingMessages = n.sendingMessages ++ l)
    {e : Message × Bytes × IdentifierType} (he : e ∈ n.sentUntil n') : e ∈ l := by
  rw [Node.sentUntil_eq hl] at he
  exact he

/-- **The messages of a step belong to the session of the step.** -/
theorem Node.Inv.sends_session (hn : n.Inv) {action : Action}
    (hrun : (perform env action).run n = (.ok (), n')) :
    ∀ e ∈ n.sentUntil n', timestamp e.1.uuid = action.session n := by
  have hsilent : n'.sendingMessages = n.sendingMessages →
      ∀ e ∈ n.sentUntil n', timestamp e.1.uuid = action.session n := by
    intro hsame e he
    have hnone : e ∈ ([] : SendingQueue) :=
      Node.mem_sentUntil (hsame.trans (List.append_nil _).symm) he
    cases hnone
  cases hn.stepped hrun with
  | dropped hf => exact hsilent hf.sendingMessages
  | bid hf hk hs hr hb => exact hsilent hf.sendingMessages
  | round hh hcall =>
    obtain ⟨l, hl, hall⟩ := (hh.logged hn hcall).sends
    have hl' : _ = n.sendingMessages ++ l := hl.trans (congrArg (· ++ l) hh.sendingMessages)
    exact fun e he => hall e (Node.mem_sentUntil hl' he)
  | woken hwake =>
    obtain ⟨l, hl, hall⟩ := (hn.wake_logged hwake).sends
    exact fun e he => hall e (Node.mem_sentUntil hl he)
  | fired hfire => exact hsilent (by cases onTimeout_timedOut hfire <;> rfl)
  | marked => exact hsilent rfl

/-! ## Runs -/

/-- A step that does not belong to the sessions with timestamp `T`. -/
def Node.Elsewhere (T : Nat) (n n' : Node) : Prop :=
  ∃ env action, action.enabled n ∧ action.session n ≠ T ∧
    (perform env action).run n = (.ok (), n')

/--
**Sessions do not interfere**: however long other sessions run, with messages of every
kind, auctions and timers, a session finds its part of the node as it left it, and no
message of it is sent.
-/
theorem session_untouched (hn : n.Reachable)
    (hrun : Relation.ReflTransGen (Node.Elsewhere T) n n') : Node.Untouched T n n' := by
  suffices h : n'.Reachable ∧ Node.Untouched T n n' from h.2
  induction hrun with
  | refl => exact ⟨hn, .refl T n⟩
  | tail _ hstep ih =>
    obtain ⟨env, action, hen, hT, hperform⟩ := hstep
    obtain ⟨hreachable, huntouched⟩ := ih
    refine ⟨.tail hreachable ⟨env, action, hen, hperform⟩, huntouched.trans ?_⟩
    exact hreachable.inv.untouched hreachable.timed hen hT hperform

end Untouched

/-- A session that ended its auction in a tie, and the request of another one. -/
theorem session_untouched_tie : ∃ n n',
    performAll .sample (sampleTie (sampleUuid 7 0)) .initial = some n ∧
      performAll .sample [.receive (.ear 1 (sampleUuid 8 0) (.sample 9)) ([5], .simulation)] n =
        some n' ∧ n'.handlers.length = 2 ∧ Node.Untouched 7 n n' := by
  have hrun : ((performAll .sample (sampleTie (sampleUuid 7 0)) .initial).bind fun n =>
      (performAll .sample [.receive (.ear 1 (sampleUuid 8 0) (.sample 9)) ([5], .simulation)] n).map
        fun n' => n'.handlers.length) = some 2 := by
    decide +kernel
  obtain ⟨n, hn, hn'⟩ := Option.bind_eq_some_iff.mp hrun
  obtain ⟨n', hstep, hlength⟩ := Option.map_eq_some_iff.mp hn'
  refine ⟨n, n', hn, hstep, hlength, session_untouched (performAll_steps hn) (.single ?_)⟩
  have hother : timestamp (sampleUuid 8 0) ≠ 7 := by decide
  exact ⟨.sample, .receive (.ear 1 (sampleUuid 8 0) (.sample 9)) ([5], .simulation),
    trivial, hother,
    performAll_single hstep⟩

end Rankd

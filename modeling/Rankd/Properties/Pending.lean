import Rankd.Node.Armed

/-!
# No session hangs

A handler that waits for an answer has a timer that closes it, in every run: whatever messages come,
in whatever order, whatever bids are waited for and whatever timers have fired. The one exception is
a callback that throws, whose exception the future of the timer keeps.

* `Node.Spared.armed`: the runs of a node
* `handler_settles`: with callbacks only, the handler comes to rest
-/

namespace Rankd

open Infra Relation

/-- A step that is no callback of the handler `h` that throws. -/
def Node.StepSparing (h : HandlerId) (n n' : Node) : Prop :=
  ∃ env action, action.enabled n ∧ ¬n.Throws h action ∧ (perform env action).run n = (.ok (), n')

/-- The nodes of all runs in which no callback of the handler `h` throws. -/
def Node.Spared (h : HandlerId) (n : Node) : Prop :=
  ReflTransGen (Node.StepSparing h) Node.initial n

/-- So many callbacks in a row, none of which is one of the handler `h` that throws. -/
inductive Node.Firings (h : HandlerId) : Nat → Node → Node → Prop
  | none {n : Node} : Node.Firings h 0 n n
  | fire {k : Nat} {n n₁ n' : Node} {i : HandlerId} {type : TimeoutType} {env : Env}
    (hrest : Node.Firings h k n n₁) (hen : (Action.timeout i type).enabled n₁)
    (hthrows : ¬n₁.Throws h (.timeout i type))
    (hrun : (perform env (.timeout i type)).run n₁ = (.ok (), n')) : Node.Firings h (k + 1) n n'

section Runs

variable {h : HandlerId} {n n' : Node} {k : Nat}

theorem Node.Spared.reachable (hs : n.Spared h) : n.Reachable := by
  induction hs with
  | refl => exact .refl
  | tail _ hstep ih =>
    obtain ⟨env, action, hen, -, hrun⟩ := hstep
    exact ih.tail ⟨env, action, hen, hrun⟩

/-- **In every run the handler waits for nothing, or a timer will close it.** -/
theorem Node.Spared.armed (hs : n.Spared h) : n.Armed h := by
  induction hs with
  | refl => exact Or.inl (Or.inl rfl)
  | tail hrun hstep ih =>
    obtain ⟨env, action, -, hthrows, hperform⟩ := hstep
    exact ih.step (Node.Spared.reachable hrun).inv hthrows hperform

/-- A callback uses up its timer and starts none. -/
theorem fireTimeout_timeouts {env : Env} {i : HandlerId} {type : TimeoutType}
    (hrun : (perform env (.timeout i type)).run n = (.ok (), n')) :
    n'.timeouts = n.timeouts.erase (i, type) := by
  obtain ⟨r, hr⟩ := fireTimeout_run hrun
  obtain ⟨t, ht, rfl⟩ := runThread_run hr
  show t.timeouts = _
  rw [(onTimeout_timedOut ht).shared]
  rfl

theorem Node.Firings.spared (hf : Node.Firings h k n n') (hs : n.Spared h) : n'.Spared h := by
  induction hf with
  | none => exact hs
  | fire hrest hen hthrows hrun ih => exact (ih hs).tail ⟨_, _, hen, hthrows, hrun⟩

theorem Node.Firings.timeouts (hf : Node.Firings h k n n') :
    n'.timeouts.length + k = n.timeouts.length := by
  induction hf with
  | none => rfl
  | fire hrest hen hthrows hrun ih =>
    have hpos := List.length_pos_of_mem hen
    rw [fireTimeout_timeouts hrun, List.length_erase_of_mem hen]
    omega

/--
**Handlers settle**: in every run in which none of its callbacks throws, a handler is READY,
RESERVED or CLOSED, or has an EAR, MAR, BID or REP timer. If only callbacks follow, each of them
uses up one timer, and when none is left the handler is READY, RESERVED or CLOSED.
-/
theorem handler_settles (hs : n.Spared h) (hf : Node.Firings h k n n') :
    n.Armed h ∧ n'.timeouts.length + k = n.timeouts.length ∧
      (n'.timeouts = [] → (n'.handler h).state.Resting) := by
  refine ⟨hs.armed, hf.timeouts, fun hempty => ?_⟩
  refine (hf.spared hs).armed.resolve_right ?_
  rintro ⟨type, -, hmem⟩
  rw [hempty] at hmem
  exact List.not_mem_nil hmem

end Runs

/-- A request that is sent on and never answered: its handler is closed by its timer. -/
theorem handler_settles_ear : ∃ n n',
    performAll .sample
    [.receive (.ear 1 (sampleUuid 7 0) (.sample 6)) ([5], .simulation)] .initial =
      some n ∧ (n.handler 0).state = .preReserved ∧
      performAll .sample [.timeout 0 .ear] n = some n' ∧ (n'.handler 0).state.Resting := by
  have hrun : ((performAll .sample
      [.receive (.ear 1 (sampleUuid 7 0) (.sample 6)) ([5], .simulation)] .initial).bind fun n =>
      (performAll .sample [.timeout 0 .ear] n).map fun n' =>
        decide ((n.handler 0).state = .preReserved ∧ n'.timeouts = [] ∧
          ((onTimeout .ear).run ((n.expire 0 .ear).thread 0)).1.toBool = true)) = some true := by
    decide +kernel
  obtain ⟨n, hn, hn'⟩ := Option.bind_eq_some_iff.mp hrun
  obtain ⟨n', hfire, hdecide⟩ := Option.map_eq_some_iff.mp hn'
  obtain ⟨hstate, hempty, hok⟩ := of_decide_eq_true hdecide
  obtain ⟨n₁, hreceivable, hreceive, hend⟩ := performAll_cons hn
  cases hend
  have hthrows : ¬n.Throws 0 (.timeout 0 .ear) := by
    rintro ⟨type, e, heq, hthrown⟩
    cases heq
    rw [hthrown] at hok
    cases hok
  have hspared : n.Spared 0 := by
    refine .single ⟨.sample, _, hreceivable, ?_, hreceive⟩
    rintro ⟨type, e, heq, -⟩
    cases heq
  obtain ⟨n₂, hen, hcallback, hlast⟩ := performAll_cons hfire
  cases hlast
  exact ⟨n, n', hn, hstate, hfire,
    (handler_settles hspared (.fire .none hen hthrows hcallback)).2.2 hempty⟩

end Rankd

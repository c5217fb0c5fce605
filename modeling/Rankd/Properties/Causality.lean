import Rankd.Node.Acts
import Rankd.Properties.Traffic

/-!
# Where a grant comes from

In any network of nodes, with auctions, ties, losses and other sessions, a session is not granted
before a listener has taken a request of it: until then no node reports success, no handler is
RESERVED, and no ACC is on its way.

* `Node.Ungranted.step`: what a step needs to grant
* `granted_by_listener`: the first step of a run that grants is one in which the listener grants
-/

namespace Rankd

open Infra Prog Relation

variable {k : Nat}

/-- The node has reported no success and reserved no handler in the sessions with timestamp `T`. -/
structure Node.Ungranted (T : Nat) (n : Node) : Prop where
  results : ∀ e ∈ n.results, timestamp e.2 = T → e.1 ≠ .ok
  handlers : ∀ h < n.handlers.length, timestamp (n.handler h).uuid = T →
    (n.handler h).state ≠ .reserved

/-- A message that grants nothing to the sessions with timestamp `T`. -/
def Message.Ungranting (T : Nat) (m : Message) : Prop := timestamp m.uuid = T → m.type ≠ .acc

section Steps

variable {T : Nat} {env : Env} {n n' : Node} {action : Action} {σ : Scope}

/-- A handler stays in its session. -/
theorem Node.Inv.session_kept (hn : n.Inv) (ht : n.Timed) (hen : action.enabled n)
    (hrun : (perform env action).run n = (.ok (), n')) {h : HandlerId}
    (hh : h < n.handlers.length) :
    h < n'.handlers.length ∧ timestamp (n'.handler h).uuid = timestamp (n.handler h).uuid := by
  have huntouched : ∀ T, action.session n ≠ T → Node.Untouched T n n' :=
    fun T hT => hn.untouched ht hen hT hrun
  by_cases hT : action.session n = timestamp (n.handler h).uuid
  · have hlt : h < n'.handlers.length :=
      (huntouched (action.session n + 1) (Nat.lt_succ_self _).ne).length.trans_lt' hh
    refine ⟨hlt, ?_⟩
    by_contra hne
    have hother := huntouched (timestamp (n'.handler h).uuid) (hT.trans_ne (Ne.symm hne))
    exact hne (hother.known h hlt rfl).2.symm
  · have hother := huntouched _ hT
    exact ⟨hother.length.trans_lt' hh, by rw [hother.handler h hh rfl]⟩

/-- The scope allows no grant. -/
structure Scope.Ungranting (σ : Scope) : Prop where
  states : ¬σ.states .reserved
  sends : ∀ m, σ.sends m → m.type ≠ .acc
  results : ¬σ.results .ok

/-- Only an ACC and an EAR at the listener can grant. -/
theorem Message.scope_ungranting {message : Message} (hacc : message.type ≠ .acc)
    (hear : ∀ v u r, message = .ear v u r → r.forMe env = false) :
    (message.scope env).Ungranting := by
  cases message with
  | ear v u r =>
    rw [Message.scope, hear v u r rfl, if_neg Bool.false_ne_true]
    refine ⟨?_, ?_, id⟩
    · rintro (h | h | h | h) <;> cases h
    · rintro m ⟨u, rfl | ⟨r, rfl | rfl⟩⟩ h <;> cases h
  | mar v u r =>
    refine ⟨?_, ?_, id⟩
    · rintro (h | h | h) <;> cases h
    · rintro m ⟨u, value, rfl⟩ h
      cases h
  | bid v u value => exact ⟨fun h => (by cases h), fun m hm => False.elim hm, id⟩
  | acc v u => exact absurd rfl hacc
  | ref v u =>
    refine ⟨fun h => (by cases h), ?_, fun h => (by cases h)⟩
    rintro m ⟨u, rfl⟩ h
    cases h
  | rep v u length reserved listener =>
    refine ⟨?_, ?_, id⟩
    · rintro (h | h) <;> cases h
    · rintro m ⟨u, rfl | ⟨length, reserved, listener, rfl⟩⟩ h <;> cases h

theorem Action.scope_ungranting (hreceive : ∀ message source, action = .receive message source →
    message.type ≠ .acc ∧ ∀ v u r, message = .ear v u r → r.forMe env = false) :
    (action.scope env).Ungranting := by
  cases action with
  | receive message source =>
    obtain ⟨hacc, hear⟩ := hreceive message source rfl
    exact Message.scope_ungranting hacc hear
  | wake h =>
    refine ⟨?_, ?_, id⟩
    · rintro (h | h) <;> cases h
    · rintro m ⟨u, rfl | ⟨r, rfl⟩⟩ h <;> cases h
  | timeout h type => exact ⟨fun h => (by cases h), fun m hm => False.elim hm, id⟩
  | markOrigin uuid pid => exact ⟨id, fun m hm => False.elim hm, id⟩

/-- What grants nothing leaves a node without a grant. -/
theorem Node.Acted.ungranted (hacted : Node.Acted σ n n') (hσ : σ.Ungranting) (hu : n.Ungranted T)
    (hkept : ∀ h < n.handlers.length,
      timestamp (n'.handler h).uuid = timestamp (n.handler h).uuid) :
    n'.Ungranted T ∧ ∀ e ∈ n.sentUntil n', e.1.Ungranting T := by
  obtain ⟨sends, hsends, hsent⟩ := hacted.sends
  obtain ⟨results, hresults, hreported⟩ := hacted.results
  refine ⟨⟨?_, ?_⟩, ?_⟩
  · rw [hresults, List.forall_mem_append]
    refine ⟨hu.results, fun e he _ hok => hσ.results ?_⟩
    rw [← hok]
    exact hreported e he
  · intro h hh hsession hreserved
    rcases hacted.states h with hsame | hstate
    · rw [hsame] at hreserved
      rcases lt_or_ge h n.handlers.length with hlt | hge
      · rw [hkept h hlt] at hsession
        exact hu.handlers h hlt hsession hreserved
      · rw [Node.handler_of_ge hge] at hreserved
        cases hreserved
    · rw [hreserved] at hstate
      exact hσ.states hstate
  · rw [Node.sentUntil_eq hsends]
    exact fun e he _ => hσ.sends _ (hsent e he).1

/-- **A step grants nothing**, unless it takes an ACC or a request for the node itself. -/
theorem Node.Ungranted.step (hu : n.Ungranted T) (hn : n.Inv) (ht : n.Timed)
    (hen : action.enabled n) (hrun : (perform env action).run n = (.ok (), n'))
    (hreceive : ∀ message source, action = .receive message source → timestamp message.uuid = T →
      message.type ≠ .acc ∧ ∀ v u r, message = .ear v u r → r.forMe env = false) :
    n'.Ungranted T ∧ ∀ e ∈ n.sentUntil n', e.1.Ungranting T := by
  by_cases hT : action.session n = T
  · have hscope : (action.scope env).Ungranting := Action.scope_ungranting fun message source ha =>
      hreceive message source ha (by rw [ha] at hT; exact hT)
    exact (hn.acted hrun).ungranted hscope hu fun h hh => (hn.session_kept ht hen hrun hh).2
  · have huntouched := hn.untouched ht hen hT hrun
    refine ⟨⟨?_, ?_⟩, ?_⟩
    · intro e he hsession
      have hown : e ∈ n'.resultsOf T := List.mem_filter.mpr ⟨he, decide_eq_true hsession⟩
      rw [huntouched.results] at hown
      exact hu.results e (List.mem_filter.mp hown).1 hsession
    · intro h hh hsession
      obtain ⟨hlt, hbefore⟩ := huntouched.known h hh hsession
      rw [huntouched.handler h hlt hbefore]
      exact hu.handlers h hlt hbefore
    · obtain ⟨sends, hsends, hsent⟩ := huntouched.sends
      rw [Node.sentUntil_eq hsends]
      exact fun e he hsession => absurd hsession (hsent e he)

end Steps

/-! ## Networks -/

/--
A node takes any message, its auctions end, its timers fire and its API marks origins; and any
messages that satisfy `outside` may come at any time.
-/
def Chain.world (c : Chain k) (outside : Message → Prop) : Protocol (Fin (k + 1)) Node Parcel where
  takes := (c.protocol .ear).takes
  acts i n n' sends :=
    (∃ env action, c.site i env ∧ action.Internal (fun _ => True) ∧ action.enabled n ∧
      (perform env action).run n = (.ok (), n') ∧ sends = c.arrivals i (n.sentUntil n')) ∨
    (n' = n ∧ ∀ e ∈ sends, outside e.2.2)

/-- No node has granted anything to the sessions with timestamp `T`, and no ACC is on its way. -/
def Chain.Ungranted (T : Nat) (net : ChainNet k) : Prop :=
  net.Holds (fun _ n => n.Ungranted T) fun _ m => m.2.Ungranting T

/-- The listener of a request of the session takes it. -/
def Chain.Hears (c : Chain k) (T : Nat) (net net' : ChainNet k) : Prop :=
  ∃ i env source v u r before after n', c.site i env ∧
    net.flight = before ++ (i, source, .ear v u r) :: after ∧ timestamp u = T ∧
    r.forMe env = true ∧
    (perform env (.receive (.ear v u r) source)).run (net.party i) = (.ok (), n') ∧
    net' = net.goes i n' (before ++ after ++ c.arrivals i ((net.party i).sentUntil n'))

section Networks

variable {c : Chain k} {T : Nat} {net net' : ChainNet k} {outside : Message → Prop}

/-- What is lost in the end, one step is the first to lose. -/
theorem exists_first_loss {Q : Nat → Prop} {m : Nat} (h : Q 0) (hm : ¬Q m) :
    ∃ j < m, (∀ i ≤ j, Q i) ∧ ¬Q (j + 1) := by
  classical
  have hlost : ∃ j, ¬Q j := ⟨m, hm⟩
  have hfirst := Nat.find_spec hlost
  have hne : Nat.find hlost ≠ 0 := by
    intro hzero
    rw [hzero] at hfirst
    exact hfirst h
  obtain ⟨j, hj⟩ := Nat.exists_eq_succ_of_ne_zero hne
  rw [hj] at hfirst
  refine ⟨j, ?_, fun i hi => ?_, hfirst⟩
  · exact Nat.lt_of_succ_le (hj ▸ Nat.find_min' hlost hm)
  · refine not_not.mp (Nat.find_min hlost ?_)
    rw [hj]
    exact Nat.lt_succ_of_le hi

theorem Chain.reachable_run (h : ∀ i, (net.party i).Reachable)
    (hrun : Net.Run (c.world outside) net net') (i : Fin (k + 1)) : (net'.party i).Reachable := by
  have hholds : net.Holds (fun _ n => n.Reachable) fun _ _ => True := ⟨h, fun _ _ => trivial⟩
  refine (hrun.holds ?_ ?_ hholds).party i
  · rintro i m n n' sends hn - ⟨env, -, hperform, -⟩
    exact ⟨hn.tail ⟨env, .receive m.2 m.1, trivial, hperform⟩, fun _ _ => trivial⟩
  · rintro i n n' sends hn (⟨env, action, -, -, hen, hperform, -⟩ | ⟨rfl, -⟩)
    · exact ⟨hn.tail ⟨env, action, hen, hperform⟩, fun _ _ => trivial⟩
    · exact ⟨hn, fun _ _ => trivial⟩

/-- **A step that grants is one in which a listener takes a request.** -/
theorem Chain.Ungranted.step (hu : Chain.Ungranted T net) (h : ∀ i, (net.party i).Reachable)
    (hoff : ∀ m, outside m → m.Ungranting T) (hstep : Net.Step (c.world outside) net net')
    (hg : ¬Chain.Ungranted T net') : c.Hears T net net' := by
  have harrivals : ∀ {i : Fin (k + 1)} {n : Node},
      (∀ e ∈ (net.party i).sentUntil n, e.1.Ungranting T) →
      ∀ e ∈ c.arrivals i ((net.party i).sentUntil n), e.2.2.Ungranting T := by
    intro i n hsent e he
    obtain ⟨s, hs, heq⟩ := Chain.mem_arrivals he
    rw [heq]
    exact hsent s hs
  cases hstep with
  | take hf htake =>
    rename_i i m before after sends n'
    obtain ⟨env, hsite, hperform, rfl⟩ := htake
    have hflight := hu.flight
    rw [hf, List.forall_mem_append, List.forall_mem_cons] at hflight
    obtain ⟨hbefore, hm, hafter⟩ := hflight
    by_contra hnot
    refine hg ?_
    have hen : (Action.receive m.2 m.1).enabled (net.party i) := trivial
    have hdone := (hu.party i).step (h i).inv (h i).timed hen hperform ?_
    · refine ⟨Net.forall_party_goes (I := fun _ (n : Node) => n.Ungranted T) hu.party hdone.1, ?_⟩
      rw [Net.flight_goes, List.forall_mem_append, List.forall_mem_append]
      exact ⟨⟨hbefore, hafter⟩, harrivals hdone.2⟩
    · rintro message source ⟨⟩ hT
      refine ⟨hm hT, fun v u r hear => ?_⟩
      obtain ⟨source, message⟩ := m
      obtain rfl : message = .ear v u r := hear
      rw [← Bool.not_eq_true]
      exact fun hme => hnot ⟨i, env, source, v, u, r, before, after, n', hsite, hf, hT, hme,
        hperform, rfl⟩
  | lose hf =>
    have hflight := hu.flight
    rw [hf, List.forall_mem_append, List.forall_mem_cons] at hflight
    exact absurd ⟨hu.party, List.forall_mem_append.mpr ⟨hflight.1, hflight.2.2⟩⟩ hg
  | act hact =>
    rename_i i n' sends
    refine absurd ?_ hg
    rcases hact with ⟨env, action, -, hinternal, hen, hperform, rfl⟩ | ⟨rfl, hsends⟩
    · have hdone := (hu.party i).step (h i).inv (h i).timed hen hperform ?_
      · refine ⟨Net.forall_party_goes (I := fun _ (n : Node) => n.Ungranted T) hu.party hdone.1, ?_⟩
        rw [Net.flight_goes, List.forall_mem_append]
        exact ⟨hu.flight, harrivals hdone.2⟩
      · rintro message source rfl
        exact False.elim hinternal
    · refine ⟨Net.forall_party_goes (I := fun _ (n : Node) => n.Ungranted T) hu.party (hu.party i),
        ?_⟩
      rw [Net.flight_goes, List.forall_mem_append]
      exact ⟨hu.flight, fun e he => hoff _ (hsends e he)⟩

/--
**Every grant comes from a listener**: as long as no ACC of the session is forged, a network of any
shape in which a node reports success, reserves a handler or sends an ACC for the session has come
to this in a step of its run in which the listener of one of its requests took it, and before that
step nothing was granted.
-/
theorem granted_by_listener {run : Nat → ChainNet k} {m : Nat}
    (h : ∀ i, ((run 0).party i).Reachable) (hu : Chain.Ungranted T (run 0))
    (hrun : ∀ j < m, Net.Step (c.world (Message.Ungranting T)) (run j) (run (j + 1)))
    (hg : ¬Chain.Ungranted T (run m)) :
    ∃ j < m, (∀ i ≤ j, Chain.Ungranted T (run i)) ∧ c.Hears T (run j) (run (j + 1)) ∧
      ¬Chain.Ungranted T (run (j + 1)) := by
  obtain ⟨j, hj, hbefore, hlost⟩ :=
    exists_first_loss (Q := fun j => Chain.Ungranted T (run j)) hu hg
  have hto : Net.Run (c.world (Message.Ungranting T)) (run 0) (run j) :=
    Net.Run.of_steps fun i hi => hrun i (hi.trans hj)
  have hhears := (hbefore j le_rfl).step (Chain.reachable_run h hto) (fun _ hm => hm)
    (hrun j hj) hlost
  exact ⟨j, hj, hbefore, hhears, hlost⟩

end Networks

/-- At the start of the sample nothing is granted. -/
theorem sampleAdmission_ungranted : Chain.Ungranted 7 sampleAdmission := by
  refine ⟨fun i => ⟨fun e he => absurd he List.not_mem_nil, fun h hh => ?_⟩, fun e he => ?_⟩
  · exact absurd hh (Nat.not_lt_zero h)
  · rw [List.mem_singleton.mp he]
    exact fun _ hacc => by cases hacc

/-- In the end its origin reports success. -/
theorem sampleAdmission_granted : ∃ net',
    Net.Run (Chain.sample.world (Message.Ungranting 7)) sampleAdmission net' ∧
      ¬(net'.party 0).Ungranted 7 := by
  have hrun : (Chain.sample.takeFirst sampleSite 3 sampleAdmission).map (fun net' =>
      decide ((.ok, sampleUuid 7 0) ∈ (net'.party 0).results)) = some true := by
    decide +kernel
  obtain ⟨net', hnet, hok⟩ := Option.map_eq_some_iff.mp hrun
  refine ⟨net', Chain.takeFirst_run (P := Chain.sample.world _) (fun _ => rfl) rfl hnet, ?_⟩
  exact fun hu => hu.results _ (of_decide_eq_true hok) (by decide +kernel) rfl

/-- The request of the sample is granted, by its listener, and nothing is granted before. -/
theorem granted_by_listener_sample : ∃ run : Nat → ChainNet 1, ∃ m, run 0 = sampleAdmission ∧
    ¬((run m).party 0).Ungranted 7 ∧ ∃ j < m, (∀ i ≤ j, Chain.Ungranted 7 (run i)) ∧
      Chain.sample.Hears 7 (run j) (run (j + 1)) ∧ ¬Chain.Ungranted 7 (run (j + 1)) := by
  obtain ⟨net', hnet, hg⟩ := sampleAdmission_granted
  obtain ⟨run, m, hstart, rfl, hsteps⟩ := hnet.exists_states
  exact ⟨run, m, hstart, hg, granted_by_listener (hstart ▸ sampleAdmission_starts.reachable)
    (hstart ▸ sampleAdmission_ungranted) hsteps fun hu => hg (hu.party 0)⟩

end Rankd

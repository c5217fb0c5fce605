import Rankd.Infra.Network

/-!
# Where a message comes from

A party makes a turn when it takes a message or acts on its own. If a certain kind of message is
only sent by parties that took one themselves or had another reason, then each of them goes back,
from party to party, to one that had the other reason (`Net.Run.origin`).
-/

namespace Rankd.Infra

open Relation

variable {ι σ μ : Type} [DecidableEq ι]

/-- A party takes a message, or acts on its own (`none`), and sends messages. -/
inductive Net.Turn (P : Protocol ι σ μ) (i : ι) (net : Net ι σ μ) :
    Option μ → List (ι × μ) → Net ι σ μ → Prop
  | take {m : μ} {before after sends : List (ι × μ)} {s : σ}
    (hf : net.flight = before ++ (i, m) :: after) (h : P.takes i m (net.party i) s sends) :
    Net.Turn P i net (some m) sends (net.goes i s (before ++ after ++ sends))
  | act {s : σ} {sends : List (ι × μ)} (h : P.acts i (net.party i) s sends) :
    Net.Turn P i net none sends (net.goes i s (net.flight ++ sends))

/--
Why a party has got something, and what it then is: `marked` are the messages by which it gets from
party to party, `root` the turns in which it comes into being, and `effect` is the state in which
each party is when it has got it.
-/
structure Cause (ι σ μ : Type) where
  marked : μ → Prop
  root : ι → Option μ → σ → σ → Prop
  effect : ι → σ → Prop

/--
In a run from `start`, a party has got it: in a turn that brings it into being, or with a marked
message, which a party that had got it before has sent.
-/
inductive Net.Traced (P : Protocol ι σ μ) (c : Cause ι σ μ) (start : Net ι σ μ) :
    Net ι σ μ → ι → Prop
  | root {net net' : Net ι σ μ} {i : ι} {o : Option μ} {sends : List (ι × μ)}
    (hrun : Net.Run P start net) (hturn : Net.Turn P i net o sends net')
    (h : c.root i o (net.party i) (net'.party i)) (he : c.effect i (net'.party i)) :
    Net.Traced P c start net' i
  | passed {net₁ net₂ net net' : Net ι σ μ} {i j : ι} {o : Option μ} {m : μ}
    {sends sends' : List (ι × μ)} (hsend : Net.Turn P j net₁ o sends net₂)
    (h : Net.Traced P c start net₂ j) (hm : (i, m) ∈ sends) (hmarked : c.marked m)
    (hrun : Net.Run P net₂ net) (hturn : Net.Turn P i net (some m) sends' net')
    (he : c.effect i (net'.party i)) : Net.Traced P c start net' i
  | later {net net' : Net ι σ μ} {i : ι} (h : Net.Traced P c start net i)
    (hstep : Net.Step P net net') : Net.Traced P c start net' i

/-- A message in flight was sent by a party that had got what it brings. -/
def Net.Forwarded (P : Protocol ι σ μ) (c : Cause ι σ μ) (start net : Net ι σ μ)
    (e : ι × μ) : Prop :=
  ∃ j o sends net₁ net₂, Net.Turn P j net₁ o sends net₂ ∧ Net.Traced P c start net₂ j ∧ e ∈ sends ∧
    Net.Run P net₂ net

/--
What one turn of a party has to keep: a party that has nothing (`holds`) gets it, or sends a marked
message, only in a root or with a marked message, and is in the state of the effect then. `inv` are
the states that are reached.
-/
structure Cause.Sound (P : Protocol ι σ μ) (c : Cause ι σ μ) (inv holds : ι → σ → Prop) : Prop where
  takes : ∀ {i m s s' sends}, inv i s → P.takes i m s s' sends → inv i s' ∧
    (¬holds i s → (holds i s' ∨ ∃ e ∈ sends, c.marked e.2) →
      c.effect i s' ∧ (c.root i (some m) s s' ∨ c.marked m))
  acts : ∀ {i s s' sends}, inv i s → P.acts i s s' sends → inv i s' ∧
    (¬holds i s → (holds i s' ∨ ∃ e ∈ sends, c.marked e.2) → c.effect i s' ∧ c.root i none s s')

variable {P : Protocol ι σ μ} {c : Cause ι σ μ} {inv holds : ι → σ → Prop}
  {start net net' : Net ι σ μ} {i : ι} {o : Option μ} {sends : List (ι × μ)} {e : ι × μ}

theorem Net.Turn.step (h : Net.Turn P i net o sends net') : Net.Step P net net' := by
  cases h with
  | take hf h => exact .take hf h
  | act h => exact .act h

/-- A step is a turn of a party, or a message is lost. -/
theorem Net.Step.cases_turn (h : Net.Step P net net') :
    (∃ i o sends, Net.Turn P i net o sends net') ∨
      net'.party = net.party ∧ ∀ e ∈ net'.flight, e ∈ net.flight := by
  cases h with
  | take hf h => exact Or.inl ⟨_, _, _, .take hf h⟩
  | act h => exact Or.inl ⟨_, _, _, .act h⟩
  | lose hf =>
    refine Or.inr ⟨rfl, fun e he => ?_⟩
    rw [hf]
    rcases List.mem_append.mp he with hbefore | hafter
    · exact List.mem_append_left _ hbefore
    · exact List.mem_append_right _ (List.mem_cons_of_mem _ hafter)

theorem Net.Turn.party_ne (h : Net.Turn P i net o sends net') {j : ι} (hj : j ≠ i) :
    net'.party j = net.party j := by
  cases h with
  | take => exact Net.party_goes_ne hj
  | act => exact Net.party_goes_ne hj

/-- What is in flight after a turn was in flight before, or was sent. -/
theorem Net.Turn.mem_flight (h : Net.Turn P i net o sends net') (he : e ∈ net'.flight) :
    e ∈ net.flight ∨ e ∈ sends := by
  cases h with
  | take hf h =>
    rw [Net.flight_goes, List.mem_append, List.mem_append] at he
    rw [hf]
    rcases he with (hbefore | hafter) | hsent
    · exact Or.inl (List.mem_append_left _ hbefore)
    · exact Or.inl (List.mem_append_right _ (List.mem_cons_of_mem _ hafter))
    · exact Or.inr hsent
  | act h =>
    rw [Net.flight_goes] at he
    exact List.mem_append.mp he

theorem Net.Forwarded.later (h : Net.Forwarded P c start net e) (hstep : Net.Step P net net') :
    Net.Forwarded P c start net' e := by
  obtain ⟨j, o, sends, net₁, net₂, hturn, htraced, he, hrun⟩ := h
  exact ⟨j, o, sends, net₁, net₂, hturn, htraced, he, hrun.tail hstep⟩

/-- What is known of the parties and of the messages in flight, at any moment of a run. -/
structure Net.Known (P : Protocol ι σ μ) (c : Cause ι σ μ) (inv holds : ι → σ → Prop)
    (start net : Net ι σ μ) : Prop where
  run : Net.Run P start net
  inv : ∀ i, inv i (net.party i)
  party : ∀ i, holds i (net.party i) → Net.Traced P c start net i
  flight : ∀ e ∈ net.flight, c.marked e.2 → Net.Forwarded P c start net e

/-- **A party that gets it, or sends it on, has got it from somewhere.** -/
theorem Net.Known.turn (hc : c.Sound P inv holds) (h : Net.Known P c inv holds start net)
    (hturn : Net.Turn P i net o sends net') : inv i (net'.party i) ∧
      ((holds i (net'.party i) ∨ ∃ e ∈ sends, c.marked e.2) → Net.Traced P c start net' i) := by
  by_cases hbefore : holds i (net.party i)
  · refine ⟨?_, fun _ => .later (h.party i hbefore) hturn.step⟩
    cases hturn with
    | take hf htake =>
      rw [Net.party_goes_self]
      exact (hc.takes (h.inv i) htake).1
    | act hact =>
      rw [Net.party_goes_self]
      exact (hc.acts (h.inv i) hact).1
  cases hturn with
  | take hf htake =>
    rename_i m before after s
    obtain ⟨hinv, hgets⟩ := hc.takes (h.inv i) htake
    refine ⟨by rw [Net.party_goes_self]; exact hinv, fun hheld => ?_⟩
    rw [Net.party_goes_self] at hheld
    obtain ⟨heffect, hroot | hmarked⟩ := hgets hbefore hheld
    · refine .root h.run (.take hf htake) ?_ ?_
      · rw [Net.party_goes_self]
        exact hroot
      · rw [Net.party_goes_self]
        exact heffect
    · -- The message that is taken was sent by a party that had got it.
      have hmem : (i, m) ∈ net.flight := by
        rw [hf]
        exact List.mem_append_right _ List.mem_cons_self
      obtain ⟨j, o, sends₁, net₁, net₂, hsent, htraced, he, hrun⟩ := h.flight _ hmem hmarked
      refine .passed hsent htraced he hmarked hrun (.take hf htake) ?_
      rw [Net.party_goes_self]
      exact heffect
  | act hact =>
    obtain ⟨hinv, hgets⟩ := hc.acts (h.inv i) hact
    refine ⟨by rw [Net.party_goes_self]; exact hinv, fun hheld => ?_⟩
    rw [Net.party_goes_self] at hheld
    obtain ⟨heffect, hroot⟩ := hgets hbefore hheld
    refine .root h.run (.act hact) ?_ ?_
    · rw [Net.party_goes_self]
      exact hroot
    · rw [Net.party_goes_self]
      exact heffect

theorem Net.Known.step (hc : c.Sound P inv holds) (h : Net.Known P c inv holds start net)
    (hstep : Net.Step P net net') : Net.Known P c inv holds start net' := by
  rcases hstep.cases_turn with ⟨i, o, sends, hturn⟩ | ⟨hparty, hflight⟩
  · obtain ⟨hinv, hgot⟩ := h.turn hc hturn
    refine ⟨h.run.tail hstep, fun j => ?_, fun j hj => ?_, fun e he hmarked => ?_⟩
    · by_cases hji : j = i
      · subst hji
        exact hinv
      · rw [hturn.party_ne hji]
        exact h.inv j
    · by_cases hji : j = i
      · subst hji
        exact hgot (Or.inl hj)
      · rw [hturn.party_ne hji] at hj
        exact .later (h.party j hj) hstep
    · rcases hturn.mem_flight he with hbefore | hsent
      · exact (h.flight e hbefore hmarked).later hstep
      · exact ⟨i, o, sends, net, net', hturn, hgot (Or.inr ⟨e, hsent, hmarked⟩), hsent, .refl⟩
  · refine ⟨h.run.tail hstep, ?_, ?_, ?_⟩
    · rw [hparty]
      exact h.inv
    · rw [hparty]
      exact fun j hj => .later (h.party j hj) hstep
    · exact fun e he hmarked => (h.flight e (hflight e he) hmarked).later hstep

/--
**Whatever a party has got goes back to a root**, if nobody had it at the start and no message that
brings it was in flight.
-/
theorem Net.Run.origin (hc : c.Sound P inv holds) (hinv : ∀ i, inv i (start.party i))
    (hparty : ∀ i, ¬holds i (start.party i)) (hflight : ∀ e ∈ start.flight, ¬c.marked e.2)
    (hrun : Net.Run P start net) : Net.Known P c inv holds start net := by
  induction hrun with
  | refl =>
    exact ⟨.refl, hinv, fun i hi => absurd hi (hparty i), fun e he hm => absurd hm (hflight e he)⟩
  | tail _ hstep ih => exact ih.step hc hstep

end Rankd.Infra

import Rankd.Infra.Network

/-!
# Some of the messages in flight

A net in which only the messages with a property are seen. A step of the net is a step of what is
seen, or one that takes a message that is not seen.
-/

namespace Rankd.Infra

variable {ι σ μ : Type} {p : μ → Bool} {net net' : Net ι σ μ}

/-- The net without the messages that lack the property. -/
def Net.slice (p : μ → Bool) (net : Net ι σ μ) : Net ι σ μ where
  party := net.party
  flight := net.flight.filter fun e => p e.2

/-- What is seen of the messages around one that is seen. -/
theorem Net.slice_flight_seen {e : ι × μ} {before after : List (ι × μ)} (he : p e.2 = true)
    (hf : net.flight = before ++ e :: after) : (net.slice p).flight =
      (before.filter fun e => p e.2) ++ e :: after.filter fun e => p e.2 := by
  rw [Net.slice, hf, List.filter_append, List.filter_cons, if_pos he]

theorem Net.slice_flight_unseen {e : ι × μ} {before after : List (ι × μ)} (he : p e.2 = false)
    (hf : net.flight = before ++ e :: after) : (net.slice p).flight =
      (before ++ after).filter fun e => p e.2 := by
  have hne : ¬p e.2 = true := by rw [he]; exact Bool.false_ne_true
  rw [Net.slice, hf, List.filter_append, List.filter_cons, if_neg hne, List.filter_append]

variable [DecidableEq ι] {P : Protocol ι σ μ}

/-- What a step of the net is for the messages with the property. -/
inductive Net.Sliced (p : μ → Bool) (P : Protocol ι σ μ) (net : Net ι σ μ) : Net ι σ μ → Prop
  | take {i : ι} {m : μ} {before after sends : List (ι × μ)} {s : σ} (hm : p m = true)
    (hf : (net.slice p).flight = before ++ (i, m) :: after)
    (h : P.takes i m (net.party i) s sends) :
    Net.Sliced p P net
      ((net.slice p).goes i s (before ++ after ++ sends.filter fun e => p e.2))
  | other {i : ι} {m : μ} {sends : List (ι × μ)} {s : σ} (hm : p m = false)
    (h : P.takes i m (net.party i) s sends) :
    Net.Sliced p P net
      ((net.slice p).goes i s ((net.slice p).flight ++ sends.filter fun e => p e.2))
  | lose {e : ι × μ} {before after : List (ι × μ)}
    (hf : (net.slice p).flight = before ++ e :: after) :
    Net.Sliced p P net ⟨net.party, before ++ after⟩
  | unseen : Net.Sliced p P net (net.slice p)
  | act {i : ι} {s : σ} {sends : List (ι × μ)} (h : P.acts i (net.party i) s sends) :
    Net.Sliced p P net
      ((net.slice p).goes i s ((net.slice p).flight ++ sends.filter fun e => p e.2))

theorem Net.Step.sliced (p : μ → Bool) (h : Net.Step P net net') :
    Net.Sliced p P net (net'.slice p) := by
  cases h with
  | take hf h =>
    rename_i i m before after sends s
    rcases hm : p m with _ | _
    · have hseen := Net.slice_flight_unseen (e := (i, m)) hm hf
      have heq : (net.goes i s (before ++ after ++ sends)).slice p =
          (net.slice p).goes i s ((net.slice p).flight ++ sends.filter fun e => p e.2) := by
        rw [hseen, ← List.filter_append]
        rfl
      rw [heq]
      exact .other hm h
    · have heq : (net.goes i s (before ++ after ++ sends)).slice p = (net.slice p).goes i s
          ((before.filter fun e => p e.2) ++ (after.filter fun e => p e.2) ++
            sends.filter fun e => p e.2) := by
        rw [← List.filter_append, ← List.filter_append]
        rfl
      rw [heq]
      exact .take hm (Net.slice_flight_seen (e := (i, m)) hm hf) h
  | lose hf =>
    rename_i e before after
    rcases he : p e.2 with _ | _
    · have heq : Net.slice p ⟨net.party, before ++ after⟩ = net.slice p := by
        rw [Net.slice, ← Net.slice_flight_unseen he hf]
        rfl
      rw [heq]
      exact .unseen
    · have heq : Net.slice p ⟨net.party, before ++ after⟩ = ⟨net.party,
          (before.filter fun e => p e.2) ++ after.filter fun e => p e.2⟩ := by
        rw [← List.filter_append]
        rfl
      rw [heq]
      exact .lose (Net.slice_flight_seen he hf)
  | act h =>
    rename_i i s sends
    have heq : (net.goes i s (net.flight ++ sends)).slice p =
        (net.slice p).goes i s ((net.slice p).flight ++ sends.filter fun e => p e.2) := by
      rw [Net.slice, Net.flight_goes, List.filter_append]
      rfl
    rw [heq]
    exact .act h

end Rankd.Infra

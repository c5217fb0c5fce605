import Mathlib.Algebra.BigOperators.Group.Finset.Basic
import Mathlib.Data.Multiset.Filter
import Mathlib.Tactic.Abel
import Rankd.Infra.Network

/-!
# Parties behind queues

Parties that exchange encoded messages. What a party sends waits in its outbox until it is encoded;
what comes to it waits to be decoded, and then to be handled.

A `Coding` says what the queues hold as messages. With it a net of such parties is a net in
which the messages themselves are in flight, and in which a message may be read as another
one: `Coding.run`.
-/

namespace Rankd.Infra

open Relation

/-- A party and its queues. -/
structure Station (σ τ β μ : Type) where
  state : σ
  /-- What was sent, and is not encoded yet. -/
  outbox : List τ
  /-- What has come, and is not decoded yet. -/
  raw : List β
  /-- What is decoded, and not handled yet. -/
  inbox : List μ

structure Pipeline (ι σ τ β μ : Type) where
  /-- The state before and after a message is handled, and what is sent. -/
  handles : ι → μ → σ → σ → List τ → Prop
  /-- A step of the party on its own. -/
  acts : ι → σ → σ → List τ → Prop
  /-- What is emitted for something sent, and where it goes. -/
  emits : ι → τ → Option (ι × β) → Prop
  /-- What a receiver takes in. -/
  keeps : β → Prop
  reads : ι → β → Option μ → Prop
  /-- What comes to the inbox from outside. -/
  submits : ι → μ → Prop
  /-- What comes to the wire from outside. -/
  injects : ι → β → Prop

variable {ι σ τ β μ : Type}

/-- The threads of a party. -/
inductive Pipeline.Works (p : Pipeline ι σ τ β μ) (i : ι) (st : Station σ τ β μ) :
    Station σ τ β μ → List (ι × β) → Prop
  | handle {m : μ} {rest : List μ} {s : σ} {sent : List τ} (hf : st.inbox = m :: rest)
    (h : p.handles i m st.state s sent) : Pipeline.Works p i st
      { st with state := s, inbox := rest, outbox := st.outbox ++ sent } []
  | act {s : σ} {sent : List τ} (h : p.acts i st.state s sent) : Pipeline.Works p i st
      { st with state := s, outbox := st.outbox ++ sent } []
  | emit {t : τ} {rest : List τ} {letter : Option (ι × β)} (hf : st.outbox = t :: rest)
    (h : p.emits i t letter) : Pipeline.Works p i st { st with outbox := rest } letter.toList
  | read {b : β} {rest : List β} {m : Option μ} (hf : st.raw = b :: rest) (h : p.reads i b m) :
    Pipeline.Works p i st { st with raw := rest, inbox := st.inbox ++ m.toList } []
  | submit {m : μ} (h : p.submits i m) :
    Pipeline.Works p i st { st with inbox := st.inbox ++ [m] } []
  | inject {e : ι × β} (h : p.injects e.1 e.2) : Pipeline.Works p i st st [e]

/-- The encoded messages in flight between the parties. -/
def Pipeline.wire (p : Pipeline ι σ τ β μ) : Protocol ι (Station σ τ β μ) β where
  takes _ b st st' sends := sends = [] ∧
    ((p.keeps b ∧ st' = { st with raw := st.raw ++ [b] }) ∨ (¬p.keeps b ∧ st' = st))
  acts := p.Works

/-! ## Messages in flight -/

/-- What is on its way, in the form that it has there. -/
inductive Cargo (τ β μ : Type)
  | sent (t : τ)
  | letter (b : β)
  | message (m : μ)

/-- The items of one kind that wait at a party. -/
def waiting {α : Type} (i : ι) (kind : α → Cargo τ β μ) (queue : List α) :
    Multiset (ι × Cargo τ β μ) :=
  (queue.map fun a => (i, kind a) : List (ι × Cargo τ β μ))

def Station.items (i : ι) (st : Station σ τ β μ) : Multiset (ι × Cargo τ β μ) :=
  waiting i .sent st.outbox + waiting i .letter st.raw + waiting i .message st.inbox

/-- What the letters in flight are. -/
def letters (flight : List (ι × β)) : Multiset (ι × Cargo τ β μ) :=
  (flight.map fun e => (e.1, Cargo.letter e.2) : List (ι × Cargo τ β μ))

/-- Everything that is on its way, in queues or in flight. -/
def Net.transit [Fintype ι] (net : Net ι (Station σ τ β μ) β) : Multiset (ι × Cargo τ β μ) :=
  letters net.flight + ∑ i, (net.party i).items i

/-- How the messages of a pipeline are sent and read. -/
structure Coding (p : Pipeline ι σ τ β μ) where
  /-- The message that something sent is, and where it goes. -/
  route : ι → τ → Option (ι × μ)
  carries : β → μ → Prop
  /-- A message may be read as another one. -/
  readsAs : μ → μ → Prop
  /-- What comes from outside. -/
  outside : ι × μ → Prop
  refl : ∀ m, readsAs m m
  emitted : ∀ {i t e}, p.emits i t (some e) → ∃ m, route i t = some (e.1, m) ∧ carries e.2 m
  read : ∀ {i b m m'}, carries b m → p.reads i b (some m') → readsAs m m'
  submitted : ∀ {i m}, p.submits i m → outside (i, m)
  injected : ∀ {i b m}, p.injects i b → p.reads i b (some m) → outside (i, m)

variable {p : Pipeline ι σ τ β μ} (C : Coding p)

/-- The net of the messages themselves. -/
def Coding.messages : Protocol ι σ μ where
  takes i m s s' sends := ∃ m' sent, C.readsAs m m' ∧ p.handles i m' s s' sent ∧
    sends = sent.filterMap (C.route i)
  acts i s s' sends := (∃ sent, p.acts i s s' sent ∧ sends = sent.filterMap (C.route i)) ∨
    (s' = s ∧ ∀ e ∈ sends, C.outside e)

/-- What an item is as a message: none if it is lost, or if it is not from a party. -/
def Coding.Stands (x : ι × Cargo τ β μ) (o : Option (ι × μ)) : Prop :=
  match x.2, o with
  | .sent t, o => o = C.route x.1 t
  | .letter b, some e => e.1 = x.1 ∧ C.carries b e.2
  | .letter b, none => ∀ m, p.reads x.1 b (some m) → C.outside (x.1, m)
  | .message m, some e => e.1 = x.1 ∧ C.readsAs e.2 m
  | .message _, none => False

/-- The messages in flight are what the items are. -/
structure Coding.Depicts [Fintype ι] (plant : Net ι (Station σ τ β μ) β) (net : Net ι σ μ) :
    Prop where
  party : ∀ i, net.party i = (plant.party i).state
  flight : ∃ os, Multiset.Rel C.Stands plant.transit os ∧
    (net.flight : Multiset (ι × μ)) = os.filterMap id

/-! ## Where the items are -/

section Items

variable {i : ι} {α : Type} {kind : α → Cargo τ β μ}

theorem waiting_cons (a : α) (queue : List α) :
    waiting i kind (a :: queue) = (i, kind a) ::ₘ waiting i kind queue := rfl

theorem waiting_append (queue queue' : List α) :
    waiting i kind (queue ++ queue') = waiting i kind queue + waiting i kind queue' := by
  rw [waiting, List.map_append, ← Multiset.coe_add]
  rfl

theorem waiting_concat (queue : List α) (a : α) :
    waiting i kind (queue ++ [a]) = {(i, kind a)} + waiting i kind queue := by
  rw [waiting_append, add_comm]
  rfl

theorem letters_append (flight flight' : List (ι × β)) :
    (letters (flight ++ flight') : Multiset (ι × Cargo τ β μ)) =
    letters flight + letters flight' := by
  rw [letters, List.map_append, ← Multiset.coe_add]
  rfl

theorem letters_concat (flight : List (ι × β)) (e : ι × β) :
    (letters (flight ++ [e]) : Multiset (ι × Cargo τ β μ)) =
      {(e.1, .letter e.2)} + letters flight := by
  rw [letters_append, add_comm]
  rfl

theorem letters_cons (e : ι × β) (flight : List (ι × β)) :
    (letters (e :: flight) : Multiset (ι × Cargo τ β μ)) =
    (e.1, .letter e.2) ::ₘ letters flight := rfl

theorem letters_split {e : ι × β} {before after : List (ι × β)} :
    (letters (before ++ e :: after) : Multiset (ι × Cargo τ β μ)) =
      (e.1, .letter e.2) ::ₘ letters (before ++ after) := by
  rw [letters_append, letters_cons, letters_append, Multiset.add_cons]

/-- A message that is in flight is somewhere in the list. -/
theorem flight_split {e : ι × μ} {flight : List (ι × μ)} {others : Multiset (ι × μ)}
    (h : (flight : Multiset (ι × μ)) = e ::ₘ others) : ∃ before after,
      flight = before ++ e :: after ∧
      ((before ++ after : List (ι × μ)) : Multiset (ι × μ)) = others := by
  have hmem : e ∈ flight := by
    rw [← Multiset.mem_coe, h]
    exact Multiset.mem_cons_self e others
  obtain ⟨before, after, rfl⟩ := List.append_of_mem hmem
  refine ⟨before, after, rfl, ?_⟩
  rw [← Multiset.coe_add, ← Multiset.cons_coe, Multiset.add_cons, Multiset.cons_inj_right] at h
  rw [← Multiset.coe_add, h]

/-- What a party sends stands for the messages that are sent. -/
theorem Coding.stands_sent (C : Coding p) (i : ι) (sent : List τ) : ∃ os,
    Multiset.Rel C.Stands (waiting i .sent sent) os ∧
      ((sent.filterMap (C.route i) : List (ι × μ)) : Multiset (ι × μ)) = os.filterMap id := by
  induction sent with
  | nil => exact ⟨0, .zero, rfl⟩
  | cons t sent ih =>
    obtain ⟨os, hrel, hos⟩ := ih
    refine ⟨C.route i t ::ₘ os, ?_, ?_⟩
    · rw [waiting_cons]
      exact .cons rfl hrel
    · rcases hroute : C.route i t with _ | e
      · rw [List.filterMap_cons_none hroute, Multiset.filterMap_cons_none _ _ rfl, hos]
      · rw [List.filterMap_cons_some hroute, Multiset.filterMap_cons_some id (some e) os rfl,
          ← Multiset.cons_coe, hos]

/-- Items that stand for something with a property. -/
theorem exists_stands {C : Coding p} {P : Option (ι × μ) → Prop}
    {items : Multiset (ι × Cargo τ β μ)}
    (h : ∀ x ∈ items, ∃ o, C.Stands x o ∧ P o) :
    ∃ os, Multiset.Rel C.Stands items os ∧ ∀ o ∈ os, P o := by
  induction items using Multiset.induction with
  | empty => exact ⟨0, .zero, fun o ho => absurd ho (Multiset.notMem_zero o)⟩
  | cons x items ih =>
    obtain ⟨o, hstands, ho⟩ := h x (Multiset.mem_cons_self x items)
    obtain ⟨os, hrel, hos⟩ := ih fun y hy => h y (Multiset.mem_cons_of_mem hy)
    refine ⟨o ::ₘ os, .cons hstands hrel, fun o' ho' => ?_⟩
    rcases Multiset.mem_cons.mp ho' with rfl | hmem
    · exact ho
    · exact hos o' hmem

variable [DecidableEq ι] {plant : Net ι (Station σ τ β μ) β}

/-- A party whose state is as it was. -/
theorem state_goes {st : Station σ τ β μ} {flight : List (ι × β)}
    (h : st.state = (plant.party i).state) (j : ι) :
    ((plant.goes i st flight).party j).state = (plant.party j).state := by
  by_cases hj : j = i
  · subst hj
    rw [Net.party_goes_self, h]
  · rw [Net.party_goes_ne hj]

variable [Fintype ι]

/-- What is summed up elsewhere is not changed when a party goes on. -/
theorem Net.sum_goes {M : Type} [AddCommMonoid M] (f : ι → σ → M) (net : Net ι σ μ)
    (i : ι) : ∃ rest,
    ∑ j, f j (net.party j) = f i (net.party i) + rest ∧
      ∀ s flight, ∑ j, f j ((net.goes i s flight).party j) = f i s + rest := by
  refine ⟨∑ j ∈ Finset.univ.erase i, f j (net.party j), ?_, fun s flight => ?_⟩
  · rw [Finset.add_sum_erase _ (fun j => f j (net.party j)) (Finset.mem_univ i)]
  · rw [← Finset.add_sum_erase _ _ (Finset.mem_univ i), Net.party_goes_self]
    congr 1
    refine Finset.sum_congr rfl fun j hj => ?_
    rw [Net.party_goes_ne (Finset.ne_of_mem_erase hj)]

/-- What is on its way elsewhere is not changed when a party goes on. -/
theorem transit_goes (plant : Net ι (Station σ τ β μ) β) (i : ι) : ∃ rest,
    plant.transit = letters plant.flight + (plant.party i).items i + rest ∧
      ∀ st flight, (plant.goes i st flight).transit = letters flight + st.items i + rest := by
  obtain ⟨rest, hplant, hgoes⟩ := Net.sum_goes (fun j st => Station.items j st) plant i
  refine ⟨rest, ?_, fun st flight => ?_⟩
  · rw [Net.transit, hplant, add_assoc]
  · rw [Net.transit, hgoes, add_assoc, Net.flight_goes]

/-! ### The first item of a queue -/

theorem transit_emit {t : τ} {queue : List τ} (hf : (plant.party i).outbox = t :: queue) :
    ∃ others, plant.transit = (i, .sent t) ::ₘ others ∧ ∀ sends,
      (plant.goes i { plant.party i with outbox := queue } (plant.flight ++ sends)).transit =
        letters sends + others := by
  obtain ⟨rest, hplant, hgoes⟩ := transit_goes plant i
  refine ⟨letters plant.flight + waiting i .sent queue + waiting i .letter (plant.party i).raw +
    waiting i .message (plant.party i).inbox + rest, ?_, fun sends => ?_⟩
  · rw [hplant, Station.items, hf, waiting_cons, ← Multiset.singleton_add, ← Multiset.singleton_add]
    abel
  · rw [hgoes, Station.items, letters_append]
    abel

theorem transit_arrive {b : β} {before after : List (ι × β)}
    (hf : plant.flight = before ++ (i, b) :: after) :
    ∃ others, plant.transit = (i, .letter b) ::ₘ others ∧ ∀ arrived,
      (plant.goes i { plant.party i with raw := (plant.party i).raw ++ arrived }
        (before ++ after)).transit = waiting i .letter arrived + others := by
  obtain ⟨rest, hplant, hgoes⟩ := transit_goes plant i
  refine ⟨letters (before ++ after) + (plant.party i).items i + rest, ?_, fun arrived => ?_⟩
  · rw [hplant, hf, letters_split, Multiset.cons_add, Multiset.cons_add]
  · rw [hgoes, Station.items, Station.items, waiting_append]
    abel

theorem transit_read {b : β} {queue : List β} (hf : (plant.party i).raw = b :: queue) :
    ∃ others, plant.transit = (i, .letter b) ::ₘ others ∧ ∀ read,
      (plant.goes i { plant.party i with
        raw := queue
        inbox := (plant.party i).inbox ++ read } plant.flight).transit =
          waiting i .message read + others := by
  obtain ⟨rest, hplant, hgoes⟩ := transit_goes plant i
  refine ⟨letters plant.flight + waiting i .sent (plant.party i).outbox + waiting i .letter queue +
    waiting i .message (plant.party i).inbox + rest, ?_, fun read => ?_⟩
  · rw [hplant, Station.items, hf, waiting_cons, ← Multiset.singleton_add, ← Multiset.singleton_add]
    abel
  · rw [hgoes, Station.items, waiting_append]
    abel

theorem transit_handle {m : μ} {queue : List μ} (hf : (plant.party i).inbox = m :: queue) :
    ∃ others, plant.transit = (i, .message m) ::ₘ others ∧ ∀ s sent,
      (plant.goes i { plant.party i with
        state := s
        inbox := queue
        outbox := (plant.party i).outbox ++ sent } plant.flight).transit =
          waiting i .sent sent + others := by
  obtain ⟨rest, hplant, hgoes⟩ := transit_goes plant i
  refine ⟨letters plant.flight + waiting i .sent (plant.party i).outbox +
    waiting i .letter (plant.party i).raw + waiting i .message queue + rest, ?_, fun s sent => ?_⟩
  · rw [hplant, Station.items, hf, waiting_cons, ← Multiset.singleton_add, ← Multiset.singleton_add]
    abel
  · rw [hgoes, Station.items, waiting_append]
    abel

end Items

/-! ## Steps -/

section Steps

variable [Fintype ι] {C : Coding p} {plant plant' : Net ι (Station σ τ β μ) β} {net : Net ι σ μ}
  {i : ι} {x y : ι × Cargo τ β μ} {rest : Multiset (ι × Cargo τ β μ)}

/-- **An item goes on in another form**, and what it stands for is the same. -/
theorem Coding.Depicts.restage (h : C.Depicts plant net) (hx : plant.transit = x ::ₘ rest)
    (hy : plant'.transit = y ::ₘ rest) (hstands : ∀ o, C.Stands x o → C.Stands y o)
    (hparty : ∀ j, (plant'.party j).state = (plant.party j).state) : C.Depicts plant' net := by
  obtain ⟨os, hrel, hflight⟩ := h.flight
  refine ⟨fun j => (h.party j).trans (hparty j).symm, os, ?_, hflight⟩
  rw [hx, Multiset.rel_cons_left] at hrel
  obtain ⟨o, os', ho, hos', rfl⟩ := hrel
  rw [hy]
  exact .cons (hstands o ho) hos'

/-- A letter that is not from a party. -/
theorem Coding.Depicts.unknown (h : C.Depicts plant net) (hy : plant'.transit = y ::ₘ plant.transit)
    (hstands : C.Stands y none)
    (hparty : ∀ j, (plant'.party j).state = (plant.party j).state) : C.Depicts plant' net := by
  obtain ⟨os, hrel, hflight⟩ := h.flight
  refine ⟨fun j => (h.party j).trans (hparty j).symm, none ::ₘ os, ?_, ?_⟩
  · rw [hy]
    exact .cons hstands hrel
  · rw [Multiset.filterMap_cons_none _ _ rfl, hflight]

variable [DecidableEq ι]

/-- **An item is gone**: the message is lost, if it stands for one. -/
theorem Coding.Depicts.gone (h : C.Depicts plant net) (hx : plant.transit = x ::ₘ rest)
    (hy : plant'.transit = rest)
    (hparty : ∀ j, (plant'.party j).state = (plant.party j).state) :
    ∃ net', Net.Run C.messages net net' ∧ C.Depicts plant' net' := by
  obtain ⟨os, hrel, hflight⟩ := h.flight
  rw [hx, Multiset.rel_cons_left] at hrel
  obtain ⟨o, os', ho, hos', rfl⟩ := hrel
  rw [← hy] at hos'
  have hstate : ∀ j, net.party j = (plant'.party j).state :=
    fun j => (h.party j).trans (hparty j).symm
  cases o with
  | none =>
    rw [Multiset.filterMap_cons_none _ _ rfl] at hflight
    exact ⟨net, .refl, hstate, os', hos', hflight⟩
  | some e =>
    rw [Multiset.filterMap_cons_some id (some e) os' rfl] at hflight
    obtain ⟨before, after, hsplit, hothers⟩ := flight_split hflight
    exact ⟨⟨net.party, before ++ after⟩, .single (.lose hsplit), hstate, os', hos', hothers⟩

/-- **A message comes from outside.** -/
theorem Coding.Depicts.comes (h : C.Depicts plant net) {e : ι × μ} (he : C.outside e)
    (hy : plant'.transit = y ::ₘ plant.transit) (hstands : C.Stands y (some e))
    (hparty : ∀ j, (plant'.party j).state = (plant.party j).state) :
    ∃ net', Net.Run C.messages net net' ∧ C.Depicts plant' net' := by
  obtain ⟨os, hrel, hflight⟩ := h.flight
  have hact : C.messages.acts e.1 (net.party e.1) (net.party e.1) [e] :=
    .inr ⟨rfl, fun e' he' => by rw [List.mem_singleton.mp he']; exact he⟩
  refine ⟨_, .single (.act hact), ?_, some e ::ₘ os, ?_, ?_⟩
  · intro j
    rw [hparty j, ← h.party j]
    by_cases hj : j = e.1
    · rw [hj, Net.party_goes_self]
    · rw [Net.party_goes_ne hj]
  · rw [hy]
    exact .cons hstands hrel
  · rw [Net.flight_goes, Multiset.filterMap_cons_some id (some e) os rfl, ← Multiset.coe_add,
      hflight]
    exact (Multiset.add_comm _ {e}).trans (Multiset.singleton_add e _)

/-- **The parties go on with their states**, and send. -/
theorem Coding.Depicts.sends (h : C.Depicts plant net) {s : σ} {sent : List τ}
    {others : Multiset (Option (ι × μ))} {flight : List (ι × μ)}
    (hothers : Multiset.Rel C.Stands rest others)
    (hflight : (flight : Multiset (ι × μ)) = others.filterMap id)
    (hy : plant'.transit = waiting i .sent sent + rest)
    (hself : (plant'.party i).state = s)
    (hparty : ∀ j, j ≠ i → (plant'.party j).state = (plant.party j).state) :
    C.Depicts plant' (net.goes i s (flight ++ sent.filterMap (C.route i))) := by
  obtain ⟨os, hrel, hos⟩ := C.stands_sent i sent
  refine ⟨?_, os + others, ?_, ?_⟩
  · intro j
    by_cases hj : j = i
    · subst hj
      rw [Net.party_goes_self, hself]
    · rw [Net.party_goes_ne hj, h.party j, hparty j hj]
  · rw [hy]
    exact hrel.add hothers
  · rw [Net.flight_goes, ← Multiset.coe_add, Multiset.filterMap_add, hflight, hos, add_comm]

/-- **A letter is read** as a message of a party, or as one from outside. -/
theorem Coding.Depicts.reads (h : C.Depicts plant net) {b : β} {m : μ}
    (hx : plant.transit = (i, .letter b) ::ₘ rest) (hy : plant'.transit = (i, .message m) ::ₘ rest)
    (hreads : p.reads i b (some m))
    (hparty : ∀ j, (plant'.party j).state = (plant.party j).state) :
    ∃ net', Net.Run C.messages net net' ∧ C.Depicts plant' net' := by
  obtain ⟨os, hrel, hflight⟩ := h.flight
  rw [hx, Multiset.rel_cons_left] at hrel
  obtain ⟨o, os', ho, hos', rfl⟩ := hrel
  cases o with
  | some e =>
    have hstands : C.Stands (i, .message m) (some e) := ⟨ho.1, C.read ho.2 hreads⟩
    refine ⟨net, .refl, fun j => (h.party j).trans (hparty j).symm, some e ::ₘ os', ?_, hflight⟩
    rw [hy]
    exact .cons hstands hos'
  | none =>
    have hact : C.messages.acts i (net.party i) (net.party i) [(i, m)] :=
      .inr ⟨rfl, fun e he => by rw [List.mem_singleton.mp he]; exact ho m hreads⟩
    have hstands : C.Stands (i, .message m) (some (i, m)) := ⟨rfl, C.refl m⟩
    refine ⟨_, .single (.act hact), ?_, some (i, m) ::ₘ os', ?_, ?_⟩
    · exact Net.forall_party_goes (I := fun j s => s = (plant'.party j).state)
        (fun j => (h.party j).trans (hparty j).symm) ((h.party i).trans (hparty i).symm)
    · rw [hy]
      exact .cons hstands hos'
    · rw [Multiset.filterMap_cons_none _ _ rfl] at hflight
      rw [Net.flight_goes, Multiset.filterMap_cons_some id (some (i, m)) os' rfl,
        ← Multiset.coe_add,
        hflight]
      exact (Multiset.add_comm _ {(i, m)}).trans (Multiset.singleton_add _ _)

/-- **A message is handled**, as the one that it stands for may be read. -/
theorem Coding.Depicts.handles (h : C.Depicts plant net) {m : μ} {s : σ} {sent : List τ}
    (hx : plant.transit = (i, .message m) ::ₘ rest)
    (hy : plant'.transit = waiting i .sent sent + rest)
    (hhandles : p.handles i m (plant.party i).state s sent)
    (hself : (plant'.party i).state = s)
    (hparty : ∀ j, j ≠ i → (plant'.party j).state = (plant.party j).state) :
    ∃ net', Net.Run C.messages net net' ∧ C.Depicts plant' net' := by
  obtain ⟨os, hrel, hflight⟩ := h.flight
  rw [hx, Multiset.rel_cons_left] at hrel
  obtain ⟨o, os', ho, hos', rfl⟩ := hrel
  cases o with
  | none => exact False.elim ho
  | some e =>
    obtain ⟨j, m₀⟩ := e
    obtain ⟨rfl, hreads⟩ : j = i ∧ C.readsAs m₀ m := ho
    rw [Multiset.filterMap_cons_some id (some (j, m₀)) os' rfl] at hflight
    obtain ⟨before, after, hsplit, hothers⟩ := flight_split hflight
    rw [← h.party j] at hhandles
    exact ⟨_, .single (.take hsplit ⟨m, sent, hreads, hhandles, rfl⟩),
      h.sends hos' hothers hy hself hparty⟩

/-- **A thread of a party** makes a number of steps of the messages. -/
theorem Coding.Depicts.works (h : C.Depicts plant net) {st : Station σ τ β μ}
    {sends : List (ι × β)} (hw : p.Works i (plant.party i) st sends) :
    ∃ net', Net.Run C.messages net net' ∧
      C.Depicts (plant.goes i st (plant.flight ++ sends)) net' := by
  obtain ⟨rest, hplant, hgoes⟩ := transit_goes plant i
  rw [Station.items] at hplant
  have hothers : ∀ (st : Station σ τ β μ) flight j, j ≠ i →
      ((plant.goes i st flight).party j).state = (plant.party j).state :=
    fun st flight j hj => by rw [Net.party_goes_ne hj]
  cases hw with
  | handle hf hhandles =>
    obtain ⟨others, hx, hy⟩ := transit_handle hf
    rw [List.append_nil]
    exact h.handles hx (hy _ _) hhandles (by rw [Net.party_goes_self]) (hothers _ _)
  | @act s sent hact =>
    have hact' : C.messages.acts i (net.party i) s (sent.filterMap (C.route i)) := by
      rw [h.party i]
      exact .inl ⟨sent, hact, rfl⟩
    obtain ⟨os, hrel, hflight⟩ := h.flight
    refine ⟨_, .single (.act hact'), h.sends hrel hflight ?_ ?_ (hothers _ _)⟩
    · rw [hgoes, hplant, Station.items, waiting_append, List.append_nil]
      abel
    · rw [Net.party_goes_self]
  | @emit t queue letter hf hemits =>
    obtain ⟨others, hx, hy⟩ := transit_emit hf
    cases letter with
    | none => exact h.gone hx ((hy _).trans (Multiset.zero_add _)) (state_goes rfl)
    | some e =>
      obtain ⟨m, hroute, hcarries⟩ := C.emitted hemits
      refine ⟨net, .refl, h.restage (y := (e.1, .letter e.2)) hx ?_ ?_ (state_goes rfl)⟩
      · rw [hy]
        rfl
      · rintro o ho
        obtain rfl : o = some (e.1, m) := ho.trans hroute
        exact ⟨rfl, hcarries⟩
  | @read b queue m hf hreads =>
    obtain ⟨others, hx, hy⟩ := transit_read hf
    rw [List.append_nil]
    cases m with
    | none => exact h.gone hx ((hy _).trans (Multiset.zero_add _)) (state_goes rfl)
    | some m => exact h.reads hx (hy _) hreads (state_goes rfl)
  | @submit m hsubmits =>
    refine h.comes (y := (i, .message m)) (C.submitted hsubmits) ?_ ⟨rfl, C.refl m⟩ (state_goes rfl)
    rw [hgoes, hplant, Station.items, List.append_nil, waiting_concat, ← Multiset.singleton_add]
    abel
  | @inject e hinjects =>
    refine ⟨net, .refl, h.unknown (y := (e.1, .letter e.2)) ?_ ?_ (state_goes rfl)⟩
    · rw [hgoes, hplant, letters_concat, Station.items, ← Multiset.singleton_add]
      abel
    · exact fun m hm => C.injected hinjects hm

theorem Coding.Depicts.step (h : C.Depicts plant net) (hstep : Net.Step p.wire plant plant') :
    ∃ net', Net.Run C.messages net net' ∧ C.Depicts plant' net' := by
  cases hstep with
  | @take i b before after sends st hf htake =>
    obtain ⟨others, hx, hy⟩ := transit_arrive hf
    obtain ⟨rfl, ⟨-, rfl⟩ | ⟨-, rfl⟩⟩ := htake
    · -- the letter goes on to the queue of the receiver
      rw [List.append_nil]
      exact ⟨net, .refl, h.restage hx (hy [b]) (fun _ ho => ho) (state_goes rfl)⟩
    · have hnone := hy []
      rw [List.append_nil] at hnone ⊢
      exact h.gone hx (hnone.trans (Multiset.zero_add _)) (state_goes rfl)
  | @lose e before after hf =>
    have hplant : plant.transit =
        (e.1, .letter e.2) ::ₘ Net.transit ⟨plant.party, before ++ after⟩ := by
      rw [Net.transit, hf, letters_split, Multiset.cons_add]
      rfl
    exact h.gone hplant rfl fun _ => rfl
  | act hact => exact h.works hact

/-- **A run of the pipeline is a run of the messages.** -/
theorem Coding.Depicts.run (h : C.Depicts plant net) (hrun : Net.Run p.wire plant plant') :
    ∃ net', Net.Run C.messages net net' ∧ C.Depicts plant' net' := by
  induction hrun with
  | refl => exact ⟨net, .refl, h⟩
  | tail _ hstep ih =>
    obtain ⟨net₁, hrun₁, h₁⟩ := ih
    obtain ⟨net₂, hrun₂, h₂⟩ := h₁.step hstep
    exact ⟨net₂, hrun₁.trans hrun₂, h₂⟩

end Steps

end Rankd.Infra

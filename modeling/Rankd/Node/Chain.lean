import Rankd.Infra.Network
import Rankd.Node.Steps

/-!
# Nodes and the messages between them

The nodes of a simulation, from the origin of a request to its listener. What a node sends arrives
at the node that the topology gives for it, under the source that it gives; messages may be lost,
and come in any order.
-/

namespace Rankd

open Infra

/-- The nodes `0` to `k` as the simulation connects them. -/
structure Chain (k : Nat) where
  /-- The environments that a node may have in a step. -/
  site : Fin (k + 1) → Env → Prop
  /-- Where a node's send arrives, and under which source. -/
  route : Fin (k + 1) → Bytes → IdentifierType → Option (Fin (k + 1) × NodeIdentifier)

/-- A message in flight, with its source. -/
abbrev Parcel := NodeIdentifier × Message

variable {k : Nat}

/-- The messages in flight that a node's sends become. -/
def Chain.arrivals (c : Chain k) (i : Fin (k + 1)) (sends : SendingQueue) :
    List (Fin (k + 1) × Parcel) :=
  sends.filterMap fun e => (c.route i e.2.1 e.2.2).map fun hop => (hop.1, hop.2, e.1)

/-- A node takes a message, or the callback of one of its timers of the given type runs. -/
def Chain.protocol (c : Chain k) (type : TimeoutType) : Protocol (Fin (k + 1)) Node Parcel where
  takes i m n n' sends := ∃ env, c.site i env ∧
    (perform env (.receive m.2 m.1)).run n = (.ok (), n') ∧ sends = c.arrivals i (n.sentUntil n')
  acts i n n' sends := ∃ env h, c.site i env ∧ (Action.timeout h type).enabled n ∧
    (perform env (.timeout h type)).run n = (.ok (), n') ∧ sends = c.arrivals i (n.sentUntil n')

/-- The messages of a chain of nodes. -/
abbrev ChainNet (k : Nat) := Net (Fin (k + 1)) Node Parcel

/-- The node holds a reservation for the UUID in state RESERVED. -/
def Node.Reserves (u : UUIDv4) (n : Node) : Prop :=
  ∃ e ∈ n.resources.reservations, e.2.uuid = u ∧ e.2.state = .reserved

theorem Chain.arrivals_nil (c : Chain k) (i : Fin (k + 1)) : c.arrivals i [] = [] := rfl

/-- A node that sends nothing. -/
theorem Chain.arrivals_silent {c : Chain k} {i : Fin (k + 1)} {n n' : Node}
    (h : n'.sendingMessages = n.sendingMessages) : c.arrivals i (n.sentUntil n') = [] := by
  rw [Node.sentUntil_eq (h.trans (List.append_nil _).symm), Chain.arrivals_nil]

/-- One message that is sent is one in flight, or is lost. -/
theorem Chain.arrivals_single (c : Chain k) (i : Fin (k + 1)) (m : Message) (target : Bytes)
    (type : IdentifierType) : c.arrivals i [(m, target, type)] = [] ∨
      ∃ hop, c.route i target type = some hop ∧
        c.arrivals i [(m, target, type)] = [(hop.1, hop.2, m)] := by
  rcases hroute : c.route i target type with _ | hop
  · refine Or.inl ?_
    rw [Chain.arrivals, List.filterMap_cons_none (by rw [hroute]; rfl), List.filterMap_nil]
  · refine Or.inr ⟨hop, rfl, ?_⟩
    rw [Chain.arrivals, List.filterMap_cons_some (by rw [hroute]; rfl), List.filterMap_nil]

theorem Chain.mem_arrivals {c : Chain k} {i : Fin (k + 1)} {sends : SendingQueue}
    {e : Fin (k + 1) × Parcel} (h : e ∈ c.arrivals i sends) : ∃ s ∈ sends, e.2.2 = s.1 := by
  obtain ⟨s, hs, hroute⟩ := List.mem_filterMap.mp h
  obtain ⟨hop, -, rfl⟩ := Option.map_eq_some_iff.mp hroute
  exact ⟨s, hs, rfl⟩

end Rankd

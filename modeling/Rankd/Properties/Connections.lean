import Rankd.Infra.Running
import Rankd.Node.Marking

/-!
# Connections and ports

How a handler picks the way of a message: the nearest of its connections to a target, and the port
of a neighbour.

* `nearestConnections_shortest_iff` — the loop finds the shortest connections exactly when its first
  pair is one of them
* `portInTopology_neighbour_iff` — the port lookup finds the neighbours and nothing else, except
  that a topology of `n` neighbours also has the id `n`
-/

namespace Rankd

open Infra Infra.Prog

/-! ## Shortest connections -/

/-- `connections_to_target_raw`: pairs of depth and port, with their kind. -/
abbrev RawConnections := List (List (UInt8 × UInt8) × IdentifierType)

/-- All pairs with their kind, in the order in which the loop sees them. -/
def locators (raw : RawConnections) : List ((UInt8 × UInt8) × IdentifierType) :=
  raw.flatMap fun c => c.1.map fun locator => (locator, c.2)

/-- `{{locator}, type}`. -/
def candidate (l : (UInt8 × UInt8) × IdentifierType) : NodeIdentifier := ([l.1.2], l.2)

/-- No pair has a smaller depth. -/
def Nearest (raw : RawConnections) (l : (UInt8 × UInt8) × IdentifierType) : Prop :=
  ∀ other ∈ locators raw, l.1.1 ≤ other.1.1

instance (raw : RawConnections) (l : (UInt8 × UInt8) × IdentifierType) :
    Decidable (Nearest raw l) :=
  inferInstanceAs (Decidable (∀ other ∈ locators raw, l.1.1 ≤ other.1.1))

/-- The pairs of the least depth, in their order. -/
def shortestConnections (raw : RawConnections) : List NodeIdentifier :=
  ((locators raw).filter (Nearest raw ·)).map candidate

/-- What the loop is for: the shortest connections, their number, and one of them in front. -/
structure SelectsShortest (raw : RawConnections) : Prop where
  exact : nearestConnections raw = shortestConnections raw
  cardinal : (nearestConnections raw).length = (locators raw).countP (Nearest raw ·)
  front : ∀ c ∈ (nearestConnections raw).head?, c ∈ shortestConnections raw

variable {raw : RawConnections}

/-- The nested loop is one scan of all pairs. -/
theorem nearestConnections_scan (raw : RawConnections) :
    nearestConnections raw = (runningMinima (·.1.1) 255 (locators raw)).map candidate := by
  have hstep : ∀ (c : List (UInt8 × UInt8) × IdentifierType) (acc : UInt8 × List NodeIdentifier),
      c.1.foldl (nearestStep c.2) acc =
        (c.1.map fun l => (l, c.2)).foldl (runningStep (·.1.1) candidate) acc := by
    intro c acc
    rw [List.foldl_map]
    rfl
  unfold nearestConnections locators
  simp only [hstep]
  rw [← List.foldl_flatMap, foldl_runningStep, List.nil_append]

/-- The pairs of the least depth are those that share the depth of one of them. -/
theorem Nearest.iff_eq {least l : (UInt8 × UInt8) × IdentifierType} (hnear : Nearest raw least)
    (hleast : least ∈ locators raw) (hl : l ∈ locators raw) :
    Nearest raw l ↔ l.1.1 = least.1.1 := by
  constructor
  · exact fun h => le_antisymm (h least hleast) (hnear l hl)
  · exact fun h other hother => h ▸ hnear other hother

theorem Nearest.filter_eq {least : (UInt8 × UInt8) × IdentifierType} (hnear : Nearest raw least)
    (hleast : least ∈ locators raw) :
    (locators raw).filter (Nearest raw ·) = (locators raw).filter (·.1.1 = least.1.1) :=
  List.filter_congr fun _ hl => decide_eq_decide.mpr (hnear.iff_eq hleast hl)

theorem exists_nearest (h : locators raw ≠ []) : ∃ l ∈ locators raw, Nearest raw l := by
  obtain ⟨l, hl, hmin⟩ :=
    Finset.exists_min_image (locators raw).toFinset (·.1.1) (List.toFinset_nonempty_iff _ |>.mpr h)
  exact ⟨l, List.mem_toFinset.mp hl, fun other hother => hmin other (List.mem_toFinset.mpr hother)⟩

/-- An exact selection has the right number and a nearest connection in front. -/
theorem SelectsShortest.of_exact (h : nearestConnections raw = shortestConnections raw) :
    SelectsShortest raw where
  exact := h
  cardinal := by rw [h, shortestConnections, List.length_map, List.countP_eq_length_filter]
  front := fun c hc => h ▸ List.mem_of_mem_head? hc

/-- **The loop finds the shortest connections exactly when its first pair is one of them.** -/
theorem nearestConnections_shortest_iff (raw : RawConnections)
    (hdepth : ∀ l ∈ locators raw, l.1.1 < 255) :
    SelectsShortest raw ↔ ∀ first ∈ (locators raw).head?, Nearest raw first := by
  rcases hl : locators raw with _ | ⟨first, rest⟩
  · have hnone : nearestConnections raw = [] := by simp [nearestConnections_scan, hl, runningMinima]
    have hshort : shortestConnections raw = [] := by simp [shortestConnections, hl]
    exact iff_of_true (.of_exact (hnone.trans hshort.symm)) (by simp)
  · have hmem : first ∈ locators raw := hl ▸ List.mem_cons_self
    have hfirst : first.1.1 ≤ 255 := (hdepth first hmem).le
    constructor
    · -- a first pair that is undercut later is collected beside the nearest ones
      intro h c hc
      cases hc
      by_contra hnot
      obtain ⟨least, hleast, hnear⟩ := exists_nearest (List.ne_nil_of_mem hmem)
      have hlt : least.1.1 < first.1.1 :=
        lt_of_le_of_ne (hnear first hmem) fun heq => hnot ((hnear.iff_eq hleast hmem).mpr heq.symm)
      have hlen := h.cardinal
      rw [nearestConnections_scan, List.length_map, List.countP_eq_length_filter,
        hnear.filter_eq hleast, hl] at hlen
      have hmore : ((first :: rest).filter (·.1.1 = least.1.1)).length <
          (runningMinima (·.1.1) 255 (first :: rest)).length :=
        length_lt_runningMinima (fun b hb =>
          hnear b (hl ▸ List.mem_cons_of_mem first hb)) hlt hfirst
      exact absurd hlen hmore.ne'
    · intro h
      have hnear : Nearest raw first := h first rfl
      refine .of_exact ?_
      rw [nearestConnections_scan, shortestConnections, hnear.filter_eq hmem, hl,
        runningMinima_cons rest hfirst, ← runningMinima_cons rest le_rfl,
        runningMinima_eq fun b hb => hnear b (hl ▸ hb)]

/-- A connection of depth 2 before one of depth 1. -/
def detourConnections : RawConnections := [([(2, 7)], .simulation), ([(1, 9)], .simulation)]

/-- The longer connection is kept, so that there are two candidates instead of one. -/
theorem nearestConnections_detour : (∀ l ∈ locators detourConnections, l.1.1 < 255) ∧
    ¬ SelectsShortest detourConnections :=
  ⟨by decide, fun h => absurd h.exact (by decide)⟩

/-- Three connections of the depths 1, 2 and 1. -/
theorem nearestConnections_shortest_direct :
    SelectsShortest [([(1, 7), (2, 8)], .simulation), ([(1, 9)], .simulation)] :=
  (nearestConnections_shortest_iff [([(1, 7), (2, 8)], .simulation), ([(1, 9)], .simulation)]
    (by decide)).mpr (by decide)

/-! ## Ports -/

/-- The ids of the neighbours, in the order of the topology. -/
def neighbours (env : Env) : List UInt8 := env.topology.map (·.1)

/-- What the lookup is for: the position of a neighbour, and no message to another node. -/
structure FindsPort (env : Env) (id : UInt8) : Prop where
  found : (portInTopology env id).isSome ↔ id ∈ neighbours env
  position : ∀ i, (neighbours env)[i]? = some id → portInTopology env id = some [UInt8.ofNat i]
  /-- An ACC whose way leads to another node is not sent. -/
  refusesAcc : id ∉ neighbours env → ∀ (t : Thread) (x : Reservation) (rest : Bytes),
    t.held.read = .ok x → x.pastNode = (id :: rest, .simulation) →
      (accRelay env).run t = (.ok .breaks, t.stopped)
  /-- Nor is a REF. -/
  refusesRef : id ∉ neighbours env → ∀ (t : Thread) (rest : Bytes),
    t.self.sourceIdentifier = (id :: rest, .simulation) →
      (refRelay env).run t = (.ok .breaks, t.stopped)

variable {env : Env} {id : UInt8} {t : Thread}

theorem getTopology_eq (hlength : env.topology.length ≤ 255) : getTopology env = neighbours env ++
    List.replicate (255 - env.topology.length) (UInt8.ofNat env.topology.length) := by
  refine List.take_of_length_le ?_
  rw [List.length_append, List.length_map, List.length_replicate]
  omega

theorem portInTopology_neighbour (hlength : env.topology.length ≤ 255)
    (hnodup : (neighbours env).Nodup) {i : Nat} (hi : (neighbours env)[i]? = some id) :
    portInTopology env id = some [UInt8.ofNat i] := by
  have hidx : (getTopology env).idxOf? id = some i := by
    obtain ⟨hlt, hget⟩ := List.getElem?_eq_some_iff.mp hi
    rw [getTopology_eq hlength, List.idxOf?_eq_some_iff]
    refine ⟨by rw [List.length_append]; omega, by rw [List.getElem_append_left hlt, hget], ?_⟩
    intro j hj heq
    rw [List.getElem_append_left (hj.trans hlt)] at heq
    exact hj.ne ((hnodup.getElem_inj_iff).mp (heq.trans hget.symm))
  rw [portInTopology, hidx, Option.map_some]

/-- The only other id that is found is the number of neighbours. -/
theorem portInTopology_foreign (hlength : env.topology.length ≤ 255) (hid : id ∉ neighbours env) :
    portInTopology env id = none ↔
      255 ≤ env.topology.length ∨ id ≠ UInt8.ofNat env.topology.length := by
  rw [portInTopology, Option.map_eq_none_iff, List.idxOf?_eq_none_iff,
    getTopology_eq hlength, List.mem_append, List.mem_replicate]
  simp only [hid, false_or, not_and_or]
  exact or_congr_left (by omega)

/-- Without a port to the past node the ACC is not sent. -/
theorem accRelay_lost {x : Reservation} {rest : Bytes} (hport : portInTopology env id = none)
    (hx : t.held.read = .ok x) (hpast : x.pastNode = (id :: rest, .simulation)) :
    (accRelay env).run t = (.ok .breaks, t.stopped) := by
  have hlookup : (pastNodePort env).run t = (.ok none, t) := by
    rw [pastNodePort, bind_ok (run_onReservation (deref_run hx)), hpast, if_pos rfl]
    rw [bind_ok run_firstByte, run_pure, hport]
    rfl
  rw [accRelay, bind_ok (run_get t), bind_ok hlookup]
  rfl

/-- Nor the REF without a port to the source. -/
theorem refRelay_lost {rest : Bytes} (hport : portInTopology env id = none)
    (hsource : t.self.sourceIdentifier = (id :: rest, .simulation)) :
    (refRelay env).run t = (.ok .breaks, t.stopped) := by
  have hlookup : (sourcePort env).run t = (.ok none, t) := by
    have hfirst : sourceFirst.run t = (.ok id, t) := by
      rw [sourceFirst, bind_ok (run_get t), hsource, run_firstByte]
    rw [sourcePort, bind_ok (run_get t), hsource, if_pos rfl, bind_ok hfirst, run_pure, hport]
  rw [refRelay, bind_ok (run_get t), bind_ok hlookup]
  rfl

/-- **The port lookup finds the neighbours and no other node, unless the topology has as many
neighbours as the id says.** -/
theorem portInTopology_neighbour_iff (env : Env) (hlength : env.topology.length ≤ 255)
    (hnodup : (neighbours env).Nodup) (id : UInt8) : FindsPort env id ↔
      id ∈ neighbours env ∨ env.topology.length = 255 ∨ id.toNat ≠ env.topology.length := by
  have hne : id ≠ UInt8.ofNat env.topology.length ↔ id.toNat ≠ env.topology.length := by
    rw [Ne, ← UInt8.toNat_inj, UInt8.toNat_ofNat_of_lt' (Nat.lt_succ_of_le hlength)]
  by_cases hid : id ∈ neighbours env
  · refine iff_of_true ⟨?_, fun i hi => portInTopology_neighbour hlength hnodup hi, fun h =>
      ?_, fun h => ?_⟩
      (Or.inl hid)
    · obtain ⟨i, hi⟩ := List.mem_iff_getElem?.mp hid
      simp [portInTopology_neighbour hlength hnodup hi, hid]
    · exact absurd hid h
    · exact absurd hid h
  · constructor
    · intro h
      have hnone : portInTopology env id = none := by
        rw [← Option.not_isSome_iff_eq_none, h.found]
        exact hid
      rcases (portInTopology_foreign hlength hid).mp hnone with hfull | hother
      · exact Or.inr (Or.inl (le_antisymm hlength hfull))
      · exact Or.inr (Or.inr (hne.mp hother))
    · intro h
      have hnone : portInTopology env id = none := by
        rw [portInTopology_foreign hlength hid]
        rcases h with h | h | h
        · exact absurd h hid
        · exact Or.inl h.ge
        · exact Or.inr (hne.mpr h)
      refine ⟨by simp [hnone, hid], fun i hi => absurd (List.mem_of_getElem? hi) hid, ?_, ?_⟩
      · exact fun _ t x rest hx hpast => accRelay_lost hnone hx hpast
      · exact fun _ t rest hsource => refRelay_lost hnone hsource

/-- A node with the three neighbours 5, 6 and 7 finds a port to the node 3. -/
theorem portInTopology_stranger : 3 ∉ neighbours Env.sample ∧ ¬ FindsPort Env.sample 3 :=
  ⟨by decide, fun h => absurd (h.found.mp (by decide)) (by decide)⟩

/-- It finds none to the node 4. -/
theorem portInTopology_neighbour_sample : FindsPort Env.sample 4 :=
  (portInTopology_neighbour_iff Env.sample (by decide) (by decide) 4).mpr
    (Or.inr (Or.inr (by decide)))

end Rankd

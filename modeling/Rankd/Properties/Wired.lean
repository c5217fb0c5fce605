import Rankd.Node.Wiring
import Rankd.Properties.Traffic

/-!
# Admission over the wire

The nodes of a path as they run in a simulation: behind the queues of their dispatchers, with bytes
between them. A request is granted or refused as `traffic_agreement` says, since a run of the bytes
is one of the messages, and a message that is read as another one is of the same session and for
the same listener.
-/

namespace Rankd

open Infra

variable {k : Nat}

/-- The nodes of a wiring with their queues, and the bytes in flight. -/
abbrev Plant (k : Nat) := Net (Fin (k + 1)) (Station Node SendingItem Letter Parcel) Letter

/-- The item is not a message with the timestamp `T`, and is not read as one. -/
def ForeignCargo (ulid : Ulid) (T : Nat) : Cargo SendingItem Letter Parcel → Prop
  | .sent item => timestamp item.1.uuid ≠ T
  | .letter letter => ∀ uninit m,
    ReceiverSimulation.operatorCall ulid uninit letter = .ok (some m) → timestamp m.2.uuid ≠ T
  | .message m => timestamp m.2.uuid ≠ T

/--
The request waits at the origin, and no node knows its session. Everything else on its way is
of other sessions.
-/
structure Wiring.Begins (w : Wiring (k + 1)) (b : UInt8) (u : UUIDv4) (plant : Plant (k + 1)) :
    Prop where
  reachable : ∀ i, (plant.party i).state.Reachable
  fresh : ∀ i, (plant.party i).state.Fresh u (i = 0)
  quiet : ∀ i, (plant.party i).state.Quiet (timestamp u)
  unreported : ∀ code, (code, u) ∉ (plant.party 0).state.results
  request : ∃ source v r others, w.chain.Asks b 0 r ∧
    plant.transit = (0, .message (source, .ear v u r)) ::ₘ others ∧
    ∀ x ∈ others, ForeignCargo w.ulid (timestamp u) x.2

/-! ## Messages that are read -/

section Readings

variable {w : Wiring (k + 1)} {b : UInt8} {name : Fin (k + 1) → UInt8} {u : UUIDv4}
  {progress : Progress k} {net : ChainNet (k + 1)} {i : Fin (k + 2)} {m m' : Parcel}
  {before after : List (Fin (k + 2) × Parcel)}

theorem listenerAddress_congr {env : Env} {code : UInt8} {listener listener' : ListenerArray}
    (h : listenerField code listener' = listenerField code listener) :
    listenerAddress env code listener' = listenerAddress env code listener := by
  rw [listenerAddress, listenerAddress, h]

/-- A request that is read asks for the same listener. -/
theorem Wiring.ReadsAs.ear {source : NodeIdentifier} {v : UInt8} {r : Request}
    (h : w.ReadsAs (source, .ear v u r) m') : ∃ v' r', m' = (source, .ear v' u r') ∧
      ∀ i, w.chain.Asks b i r → w.chain.Asks b i r' := by
  rcases h with rfl | ⟨hsource, uninit, hparse⟩
  · exact ⟨v, r, rfl, fun _ hask => hask⟩
  · obtain ⟨v', r', hm, hlength, hfield⟩ := parse_ear_listener hparse
    refine ⟨v', r', Prod.ext hsource hm, fun i hask env address hsite hl => ?_⟩
    rw [hlength] at hfield hl ⊢
    exact hask env address hsite ((listenerAddress_congr hfield).symm.trans hl)

/-- An answer is read as the same answer. -/
theorem Wiring.ReadsAs.answer {source : NodeIdentifier} {code : ApiResult}
    (h : w.ReadsAs (source, answer u code) m') : m' = (source, answer u code) := by
  have hversion : headerVersion < 4 := by decide
  rcases h with rfl | ⟨hsource, uninit, hparse⟩
  · rfl
  · refine Prod.ext hsource ?_
    cases code with
    | ok => exact Option.some.inj (Except.ok.inj (hparse.symm.trans (parse_acc hversion)))
    | fail => exact Option.some.inj (Except.ok.inj (hparse.symm.trans (parse_ref hversion)))

/-- **How far a request has come is not changed when its message is read.** -/
theorem Progress.flight_reads (h : progress.flight w.chain b name u (before ++ (i, m) :: after))
    (hreads : w.ReadsAs m m') :
    progress.flight w.chain b name u (before ++ (i, m') :: after) := by
  have hone : ∀ {e : Fin (k + 2) × Parcel}, before ++ (i, m) :: after = [e] →
      before = [] ∧ after = [] ∧ (i, m) = e := by
    intro e he
    rcases List.append_eq_singleton_iff.mp he with ⟨hbefore, hcons⟩ | ⟨-, hnil⟩
    · obtain ⟨hhead, htail⟩ := List.cons.inj hcons
      exact ⟨hbefore, htail, hhead⟩
    · cases hnil
  cases progress with
  | asked p =>
    obtain ⟨source, v, r, hf, hask, hsource⟩ := h
    obtain ⟨rfl, rfl, heq⟩ := hone hf
    cases heq
    obtain ⟨v', r', rfl, hasks⟩ := hreads.ear (b := b)
    exact ⟨source, v', r', rfl, hasks _ hask, hsource⟩
  | answered code p =>
    obtain ⟨source, hf⟩ := h
    obtain ⟨rfl, rfl, heq⟩ := hone hf
    cases heq
    exact ⟨source, by rw [hreads.answer]; rfl⟩
  | bounced =>
    obtain ⟨j, source, hf⟩ := h
    obtain ⟨rfl, rfl, heq⟩ := hone hf
    cases heq
    exact ⟨_, source, by rw [hreads.answer]; rfl⟩
  | lost | reported code => exact absurd h (by simp [Progress.flight])

theorem Chain.Among.reads (ha : w.chain.Among b name u progress net)
    (hf : net.flight = before ++ (i, m) :: after) (hreads : w.ReadsAs m m') :
    w.chain.Among b name u progress ⟨net.party, before ++ (i, m') :: after⟩ := by
  have hat := ha.progress
  have hflight := hat.flight
  rw [hf] at hflight
  exact ⟨⟨hat.inv, hat.party, Progress.flight_reads hflight hreads, hat.results⟩,
    ha.timed, ha.quiet⟩

end Readings

/-! ## Runs -/

section Runs

variable {w : Wiring (k + 1)} {b : UInt8} {name : Fin (k + 1) → UInt8} {u : UUIDv4}
  {progress : Progress k} {net net' : ChainNet (k + 1)} {plant plant' : Plant (k + 1)}

/-- The bytes of the wiring, where what comes from outside is of other sessions than those of
`u`. -/
abbrev Wiring.traffic (w : Wiring k) (u : UUIDv4) :
    Pipeline (Fin (k + 1)) Node SendingItem Letter Parcel :=
  w.pipeline (fun v => timestamp v ≠ timestamp u) fun _ => True

abbrev Wiring.trafficCoding (w : Wiring k) (u : UUIDv4) : Coding (w.traffic u) := w.coding _ _

/-- The messages of the bytes are traffic of the chain in which a message may be read as another. -/
theorem Chain.Among.wired (hc : w.chain.Linear b name)
    (ha : w.chain.Among b name u progress (net.slice (Parcel.isOf (timestamp u))))
    (hstep : Net.Sliced (Parcel.isOf (timestamp u))
      (w.trafficCoding u).messages net net') :
    ∃ progress', w.chain.Among b name u progress' net' := by
  have hisOf : ∀ {m m' : Parcel}, w.ReadsAs m m' →
      Parcel.isOf (timestamp u) m' = Parcel.isOf (timestamp u) m :=
    fun hreads => by rw [Parcel.isOf, Parcel.isOf, hreads.uuid]
  cases hstep with
  | @take i m before after sends s hm hf h =>
    obtain ⟨m', sent, hreads, ⟨env, hsite, hrun, rfl⟩, rfl⟩ := h
    -- the net in which the message is the one that it is read as
    have hread := ha.reads hf hreads
    have hseen : ∀ e ∈ before ++ (i, m') :: after, Parcel.isOf (timestamp u) e.2 = true := by
      have hall : ∀ e ∈ before ++ (i, m) :: after, Parcel.isOf (timestamp u) e.2 = true := by
        rw [← hf]
        exact fun e he => (List.mem_filter.mp he).2
      rw [List.forall_mem_append, List.forall_mem_cons] at hall ⊢
      exact ⟨hall.1, (hisOf hreads).trans hall.2.1, hall.2.2⟩
    have hslice : Net.slice (Parcel.isOf (timestamp u)) ⟨net.party, before ++ (i, m') :: after⟩ =
        ⟨net.party, before ++ (i, m') :: after⟩ := by
      rw [Net.slice, List.filter_eq_self.mpr hseen]
    have hread' : w.chain.Among b name u progress
        (Net.slice (Parcel.isOf (timestamp u)) ⟨net.party, before ++ (i, m') :: after⟩) := by
      rw [hslice]
      exact hread
    exact hread'.step hc (.take ((hisOf hreads).trans hm) (by rw [hslice])
      ⟨env, hsite, hrun, rfl⟩)
  | other hm h =>
    obtain ⟨m', sent, hreads, ⟨env, hsite, hrun, rfl⟩, rfl⟩ := h
    exact ha.step hc (.other ((hisOf hreads).trans hm) ⟨env, hsite, hrun, rfl⟩)
  | lose hf => exact ha.step hc (.lose hf)
  | unseen => exact ha.step hc .unseen
  | act h =>
    refine ha.step hc (.act ?_)
    rcases h with ⟨sent, ⟨env, action, hsite, hinternal, hen, hrun, rfl⟩, rfl⟩ | ⟨rfl, hsends⟩
    · exact Or.inl ⟨env, action, hsite, hinternal, hen, hrun, rfl⟩
    · exact Or.inr ⟨rfl, hsends⟩

/-- The messages that are on their way when a request begins. -/
theorem Wiring.Begins.depicts (h : w.Begins b u plant) : ∃ net : ChainNet (k + 1),
    (w.trafficCoding u).Depicts plant net ∧ w.chain.Begins b u net := by
  obtain ⟨source, v, r, others, hask, htransit, hforeign⟩ := h.request
  have hothers : ∀ x ∈ others, ∃ o,
      (w.trafficCoding u).Stands x o ∧
        ∀ e, o = some e → Parcel.isOf (timestamp u) e.2 = false := by
    rintro ⟨i, item⟩ hx
    have hitem := hforeign _ hx
    cases item with
    | sent t =>
      refine ⟨_, rfl, fun e he => ?_⟩
      obtain ⟨hop, -, rfl⟩ := Option.map_eq_some_iff.mp he
      exact decide_eq_false hitem
    | letter letter =>
      refine ⟨none, ?_, fun e he => by cases he⟩
      rintro m ⟨uninit, hcall⟩
      exact hitem uninit m hcall
    | message m =>
      refine ⟨some (i, m), ⟨rfl, Or.inl rfl⟩, fun e he => ?_⟩
      cases he
      exact decide_eq_false hitem
  obtain ⟨os, hrel, hos⟩ := exists_stands hothers
  refine ⟨⟨fun i => (plant.party i).state,
    (0, source, .ear v u r) :: (os.filterMap id).toList⟩, ⟨fun _ => rfl,
      some (0, source, .ear v u r) ::ₘ os, ?_, ?_⟩, ?_⟩
  · rw [htransit]
    exact .cons ⟨rfl, Or.inl rfl⟩ hrel
  · rw [Multiset.filterMap_cons_some id (some (0, source, .ear v u r)) os rfl, ← Multiset.cons_coe,
      Multiset.coe_toList]
  · refine ⟨h.reachable, h.fresh, h.quiet, h.unreported, source, v, r, ?_, hask⟩
    have hnone : ((os.filterMap id).toList.filter fun e => Parcel.isOf (timestamp u) e.2) = [] := by
      rw [List.filter_eq_nil_iff]
      intro e he
      obtain ⟨o, ho, heq⟩ := (Multiset.mem_filterMap id os).mp (Multiset.mem_toList.mp he)
      rw [hos o ho e heq]
      exact Bool.false_ne_true
    have hown : Parcel.isOf (timestamp u) (source, .ear v u r) = true := decide_eq_true rfl
    rw [Net.slice, List.filter_cons, if_pos hown, hnone]

/-- A run of the threads and the bytes as a run of the nodes and their messages. -/
def Wiring.Refines (w : Wiring (k + 1)) (b : UInt8) (u : UUIDv4) (plant plant' : Plant (k + 1))
    (net' : ChainNet (k + 1)) : Prop :=
  ∃ net : ChainNet (k + 1), (w.trafficCoding u).Depicts plant net ∧ w.chain.Begins b u net ∧
    Net.Run (w.trafficCoding u).messages net net' ∧ (w.trafficCoding u).Depicts plant' net'

/-- **The threads refine the network of messages.** -/
theorem Wiring.Begins.refines (h : w.Begins b u plant)
    (hrun : Net.Run (w.traffic u).wire plant plant') : ∃ net', w.Refines b u plant plant' net' := by
  obtain ⟨net, hdepicts, hbegins⟩ := h.depicts
  obtain ⟨net', hmessages, hdepicts'⟩ := hdepicts.run hrun
  exact ⟨net', net, hdepicts, hbegins, hmessages, hdepicts'⟩

/-- How far the request has come in a run of the threads. -/
theorem Wiring.Begins.among (h : w.Begins b u plant) (hc : w.chain.Linear b name)
    (hrun : Net.Run (w.traffic u).wire plant plant') : ∃ progress, ∃ net : ChainNet (k + 1),
      (∀ i, net.party i = (plant'.party i).state) ∧ w.chain.Among b name u progress net := by
  obtain ⟨net', net, -, hbegins, hmessages, hdepicts'⟩ := h.refines hrun
  have hamong : ∃ progress,
      w.chain.Among b name u progress (net'.slice (Parcel.isOf (timestamp u))) := by
    clear hdepicts'
    induction hmessages with
    | refl => exact ⟨_, hbegins.among⟩
    | tail _ hstep ih =>
      obtain ⟨progress, ha⟩ := ih
      exact ha.wired hc (hstep.sliced _)
  obtain ⟨progress, ha⟩ := hamong
  exact ⟨progress, net'.slice (Parcel.isOf (timestamp u)), hdepicts'.party, ha⟩

/--
**Admission agreement over the wire**: however the threads of the nodes run, and whatever other
sessions and other bytes there are, the run is one of the network of messages, and the origin
reports that the request was granted only if every node has its reservation, and that it failed only
if none has, and never both.
-/
theorem wired_agreement (h : w.Begins b u plant) (hc : w.chain.Linear b name)
    (hrun : Net.Run (w.traffic u).wire plant plant') :
    (∃ net', w.Refines b u plant plant' net') ∧
      ((.ok, u) ∈ (plant'.party 0).state.results → ∀ i, (plant'.party i).state.Reserves u) ∧
      ((.fail, u) ∈ (plant'.party 0).state.results → ∀ i, ¬(plant'.party i).state.Reserves u) ∧
      ¬((.ok, u) ∈ (plant'.party 0).state.results ∧
        (.fail, u) ∈ (plant'.party 0).state.results) := by
  obtain ⟨progress, net, hparty, ha⟩ := h.among hc hrun
  have hagrees := ha.agrees
  rw [hparty 0] at hagrees
  exact ⟨h.refines hrun, fun hok i => hparty i ▸ hagrees.1 hok i,
    fun hfail i => hparty i ▸ hagrees.2.1 hfail i, hagrees.2.2⟩

end Runs

/-! ## A request that is granted -/

/-- What the first message, letter or item of a node's queues becomes; `none` where a thread
faults. -/
def Wiring.turn (w : Wiring k) (env : Env) (i : Fin (k + 1))
    (st : Station Node SendingItem Letter Parcel) :
    Option (Station Node SendingItem Letter Parcel × List (Fin (k + 1) × Letter)) :=
  match st with
  | ⟨n, outbox, raw, m :: rest⟩ =>
    match (perform env (.receive m.2 m.1)).run n with
    | (.ok (), n') => some (⟨n', outbox ++ n.sentUntil n', raw, rest⟩, [])
    | (.error _, _) => none
  | ⟨n, outbox, letter :: rest, []⟩ =>
    match ReceiverSimulation.operatorCall w.ulid (Vector.replicate 16 0) letter with
    | .ok m => some (⟨n, outbox, rest, m.toList⟩, [])
    | .error _ => none
  | ⟨n, item :: rest, [], []⟩ =>
    match Sender.operatorCall w.ulid item with
    | .ok out => some (⟨n, rest, [], []⟩,
      (out.bind fun e => (w.link i e.1).map fun hop => (hop.1, hop.2, e.2)).toList)
    | .error _ => none
  | ⟨_, [], [], []⟩ => none

/-- Turns of the given nodes, and of the wire, which delivers the first letter in flight. -/
def Wiring.turns (w : Wiring k) (env : Fin (k + 1) → Env) :
    List (Option (Fin (k + 1))) → Plant k → Option (Plant k)
  | [], plant => some plant
  | some i :: order, plant =>
    (w.turn (env i) i (plant.party i)).bind fun done =>
      w.turns env order (plant.goes i done.1 (plant.flight ++ done.2))
  | none :: order, plant =>
    match plant.flight with
    | [] => none
    | (i, letter) :: rest => if letter.1 = 255 then none else
      w.turns env order (plant.goes i
        { plant.party i with raw := (plant.party i).raw ++ [letter] } rest)

section Turns

variable {w : Wiring k} {foreign : UUIDv4 → Prop} {noise : Letter → Prop} {env : Env}
  {i : Fin (k + 1)}
  {plant plant' : Plant k} {st st' : Station Node SendingItem Letter Parcel}
  {sends : List (Fin (k + 1) × Letter)}

theorem Wiring.turn_works (hsite : w.site i env) (h : w.turn env i st = some (st', sends)) :
    (w.pipeline foreign noise).Works i st st' sends := by
  obtain ⟨n, outbox, raw, inbox⟩ := st
  rcases inbox with _ | ⟨m, rest⟩
  · rcases raw with _ | ⟨letter, rest⟩
    · rcases outbox with _ | ⟨item, rest⟩
      · cases h
      · rcases hcall : Sender.operatorCall w.ulid item with e | out
        · simp only [Wiring.turn, hcall] at h
          cases h
        · simp only [Wiring.turn, hcall] at h
          cases h
          exact .emit rfl ⟨out, hcall, rfl⟩
    · rcases hcall :
        ReceiverSimulation.operatorCall w.ulid (Vector.replicate 16 0) letter with e | m
      · simp only [Wiring.turn, hcall] at h
        cases h
      · simp only [Wiring.turn, hcall] at h
        cases h
        exact .read (m := m) rfl ⟨_, hcall⟩
  · rcases hrun : (perform env (.receive m.2 m.1)).run n with ⟨_ | _, n'⟩
    · simp only [Wiring.turn, hrun] at h
      cases h
    · simp only [Wiring.turn, hrun] at h
      cases h
      exact .handle rfl ⟨env, hsite, hrun, rfl⟩

theorem Wiring.turns_run {env : Fin (k + 1) → Env} (hsite : ∀ i, w.site i (env i))
    {order : List (Option (Fin (k + 1)))} (h : w.turns env order plant = some plant') :
    Net.Run (w.pipeline foreign noise).wire plant plant' := by
  induction order generalizing plant with
  | nil =>
    cases h
    exact .refl
  | cons choice order ih =>
    cases choice with
    | some i =>
      obtain ⟨⟨st, sends⟩, hturn, hrest⟩ := Option.bind_eq_some_iff.mp h
      exact .head (.act (Wiring.turn_works (hsite i) hturn)) (ih hrest)
    | none =>
      rw [Wiring.turns] at h
      rcases hf : plant.flight with _ | ⟨⟨i, letter⟩, rest⟩
      · simp only [hf] at h
        cases h
      · simp only [hf] at h
        split_ifs at h with hsource
        refine .head ?_ (ih h)
        have htake : (w.pipeline foreign noise).wire.takes i letter (plant.party i)
            { plant.party i with raw := (plant.party i).raw ++ [letter] } [] :=
          ⟨rfl, Or.inl ⟨hsource, rfl⟩⟩
        have hsplit : plant.flight = [] ++ (i, letter) :: rest := hf
        have hstep := Net.Step.take hsplit htake
        rwa [List.nil_append, List.append_nil] at hstep

end Turns

/-- The simulator between two nodes: port 9 of the first leads to the second, which knows it as
5. -/
def Wiring.sample : Wiring 1 where
  ulid := .bigEndian
  site i env := env = sampleSite i
  link i port := (Chain.sample.route i [port] .simulation).map fun hop => (hop.1, hop.2.1.headD 0)

/-- A request that the API of the origin has submitted. -/
def samplePlant : Plant 1 where
  party i := ⟨sampleAdmission.party i, [], [], (sampleAdmission.flight.filter (·.1 = i)).map (·.2)⟩
  flight := []

theorem Wiring.sample_linear : Wiring.sample.chain.Linear 9 fun _ => 5 := by
  refine sampleSite_linear (fun i => (sampleSite i).assessment) rfl ?_ ?_ ?_
  · rintro hop ⟨⟩
    rfl
  · rintro hop ⟨⟩
    rfl
  · rintro hop ⟨⟩

theorem samplePlant_begins : Wiring.sample.Begins 9 (sampleUuid 7 0) samplePlant where
  reachable := sampleAdmission_starts.reachable
  fresh := sampleAdmission_starts.fresh
  quiet _ := ⟨fun e he => absurd he List.not_mem_nil, fun _ h => absurd h (Nat.not_lt_zero _)⟩
  unreported := sampleAdmission_starts.unreported
  request := by
    obtain ⟨source, v, r, hf, hask⟩ := sampleAdmission_starts.request
    refine ⟨source, v, r, 0, hask, ?_, fun x hx => absurd hx (Multiset.notMem_zero x)⟩
    cases hf
    rw [Net.transit, Fin.sum_univ_two]
    rfl

/-- The request is granted over the wire. -/
theorem wired_agreement_granted : ∃ plant',
    Net.Run (Wiring.sample.traffic (sampleUuid 7 0)).wire samplePlant plant' ∧
      (.ok, sampleUuid 7 0) ∈ (plant'.party 0).state.results ∧
      ∀ i, (plant'.party i).state.Reserves (sampleUuid 7 0) := by
  -- the origin and its sender, the wire, the receiver, the node and the sender of the
  -- listener, and back
  have hturns : (Wiring.sample.turns sampleSite
      [some 0, some 0, none, some 1, some 1, some 1, none, some 0, some 0] samplePlant).map
        (fun plant' => decide ((.ok, sampleUuid 7 0) ∈ (plant'.party 0).state.results)) =
      some true := by
    decide +kernel
  obtain ⟨plant', hplant, hok⟩ := Option.map_eq_some_iff.mp hturns
  have hrun : Net.Run (Wiring.sample.traffic (sampleUuid 7 0)).wire samplePlant plant' :=
    Wiring.turns_run (fun _ => rfl) hplant
  have hok' := of_decide_eq_true hok
  exact ⟨plant', hrun, hok',
    (wired_agreement samplePlant_begins Wiring.sample_linear hrun).2.1 hok'⟩

end Rankd

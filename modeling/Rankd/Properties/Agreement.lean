import Rankd.Node.Path
import Rankd.Properties.Listener
import Rankd.Properties.Replenishment

/-!
# Admission on a path

A request goes from its origin to its listener over nodes with one connection toward it, and
the ACC or REF that answers it goes the same way back. Messages may be lost, and EAR timers
may fire at any time.

There is never more than one message of the request on its way. `Progress` says where it is and what
the nodes before and behind it have done: those before it wait for the answer or have timed out, and
those behind it are all reserved, or none is.

* `Chain.At.step`: what a step does to the progress
* `admission_agreement`: what the origin reports holds of the whole path
-/

namespace Rankd

open Infra

variable {k : Nat}

/--
A chain of nodes to the listener `b`, with one connection toward it at each node. A node that
follows another knows it by its name. What is sent toward the listener, to the name of the node
before or over the port of that name comes to the intended neighbour, if it comes at all.
-/
structure Chain.Linear (c : Chain (k + 1)) (b : UInt8) (name : Fin (k + 1) → UInt8) : Prop where
  identity : ∀ i env, c.site i env → (env.identity b = true ↔ i = Fin.last (k + 1))
  toward : ∀ (i : Fin (k + 1)) env, c.site i.castSucc env →
    ∃ locator, env.connections b = [locator] ∧
    ∀ hop, c.route i.castSucc [locator.2] .simulation = some hop →
      hop = (i.succ, [name i], .simulation)
  back : ∀ (i : Fin (k + 1)) env, c.site i.succ env → ∀ target hop,
    env.Nearest ([name i], .simulation) target → c.route i.succ target .simulation = some hop →
      hop.1 = i.castSucc
  past : ∀ (i : Fin (k + 1)) env, c.site i.succ env → ∀ target hop,
    portInTopology env (name i) = some target → c.route i.succ target .simulation = some hop →
      hop.1 = i.castSucc

/-- At the node `i` the request is for the listener `b`, which is the last node. -/
def Chain.Asks (c : Chain (k + 1)) (b : UInt8) (i : Fin (k + 2)) (r : Request) : Prop :=
  ∀ env address, c.site i env → listenerAddress env r.listenerLength r.listener = .ok address →
    address.head? = some b ∧
    (iAmListener env r.listenerLength address = true ↔ i = Fin.last (k + 1))

/-- The request is on its way to the origin, and no node knows its session. -/
structure Chain.Starts (c : Chain (k + 1)) (b : UInt8) (u : UUIDv4) (net : ChainNet (k + 1)) :
    Prop where
  reachable : ∀ i, (net.party i).Reachable
  fresh : ∀ i, (net.party i).Fresh u (i = 0)
  unreported : ∀ code, (code, u) ∉ (net.party 0).results
  request : ∃ source v r, net.flight = [(0, source, .ear v u r)] ∧ c.Asks b 0 r

/-! ## Progress -/

/--
How far a request has come: it is on its way to a node, or its answer is, or the REF of the origin
itself; or no message is left, because it was lost, or because the origin has reported the answer.
-/
inductive Progress (k : Nat)
  | asked (p : Fin (k + 2))
  | answered (code : ApiResult) (p : Fin (k + 2))
  | bounced
  | lost
  | reported (code : ApiResult)

/-- The node has sent the request on. It waits for the answer, or its timer has closed it. -/
def Node.Open (name : Fin (k + 1) → UInt8) (u : UUIDv4) (i : Fin (k + 2)) (n : Node) : Prop :=
  n.Shut u ∨ ∃ source h, n.Awaits u (i = 0) source h ∧
    ∀ j : Fin (k + 1), i = j.succ → source = ([name j], .simulation)

/-- What the nodes have done. -/
def Progress.party (name : Fin (k + 1) → UInt8) (u : UUIDv4) :
    Progress k → Fin (k + 2) → Node → Prop
  | .asked p, i, n => if i < p then n.Open name u i else n.Fresh u (i = 0)
  | .answered code p, i, n => if i ≤ p then n.Open name u i else n.Done u code
  | .bounced, i, n => if i = 0 then n.Shut u else n.Fresh u false
  | .lost, _, _ => True
  | .reported code, _, n => n.Done u code

/-- The message on its way. -/
def Progress.flight (c : Chain (k + 1)) (b : UInt8) (name : Fin (k + 1) → UInt8) (u : UUIDv4) :
    Progress k → List (Fin (k + 2) × Parcel) → Prop
  | .asked p, l => ∃ source v r, l = [(p, source, .ear v u r)] ∧ c.Asks b p r ∧
      ∀ j : Fin (k + 1), p = j.succ → source = ([name j], .simulation)
  | .answered code p, l => ∃ source, l = [(p, source, answer u code)]
  | .bounced, l => ∃ i source, l = [(i, source, answer u .fail)]
  | .lost, l | .reported _, l => l = []

structure Chain.At (c : Chain (k + 1)) (b : UInt8) (name : Fin (k + 1) → UInt8) (u : UUIDv4)
    (progress : Progress k) (net : ChainNet (k + 1)) : Prop where
  inv : ∀ i, (net.party i).Inv
  party : ∀ i, progress.party name u i (net.party i)
  flight : progress.flight c b name u net.flight
  results : ∀ code, (code, u) ∈ (net.party 0).results → progress = .reported code

section Steps

variable {c : Chain (k + 1)} {b : UInt8} {name : Fin (k + 1) → UInt8} {u : UUIDv4}
  {progress progress' : Progress k} {net net' : ChainNet (k + 1)} {i p : Fin (k + 2)}
  {env : Env} {n n' s : Node} {h : HandlerId} {source : NodeIdentifier} {code : ApiResult}
  {flight sends : List (Fin (k + 2) × Parcel)} {v : UInt8} {r : Request}

/-- While a message is on its way, the origin has reported nothing. -/
theorem Chain.At.unreported (hat : c.At b name u progress net) (hf : net.flight ≠ [])
    (code : ApiResult) : (code, u) ∉ (net.party 0).results := by
  intro hmem
  have hflight := hat.flight
  rw [hat.results code hmem] at hflight
  exact hf hflight

/-- A node that goes on without a result. -/
theorem Chain.At.goes (hat : c.At b name u progress net)
    (hun : ∀ code, (code, u) ∉ (net.party 0).results) (hs : s.Inv)
    (hresults : s.results = (net.party i).results) (hi : progress'.party name u i s)
    (hparty : ∀ j, j ≠ i → progress.party name u j (net.party j) →
      progress'.party name u j (net.party j))
    (hflight : progress'.flight c b name u flight) :
    c.At b name u progress' (net.goes i s flight) := by
  refine ⟨?_, ?_, hflight, ?_⟩
  · exact Net.forall_party_goes (I := fun _ (n : Node) => n.Inv) hat.inv hs
  · intro j
    by_cases hj : j = i
    · subst hj
      rw [Net.party_goes_self]
      exact hi
    · rw [Net.party_goes_ne hj]
      exact hparty j hj (hat.party j)
  · intro code hmem
    refine absurd ?_ (hun code)
    by_cases hzero : 0 = i
    · subst hzero
      rw [Net.party_goes_self, hresults] at hmem
      exact hmem
    · rw [Net.party_goes_ne hzero] at hmem
      exact hmem

/-- A node that goes on without a result or a message. -/
theorem Chain.At.stops (hat : c.At b name u progress net)
    (hun : ∀ code, (code, u) ∉ (net.party 0).results) (hs : s.Inv)
    (hresults : s.results = (net.party i).results) : c.At b name u .lost (net.goes i s []) :=
  hat.goes hun hs hresults trivial (fun _ _ _ => trivial) rfl

/-! ## Timers and losses -/

theorem Node.Open.fires (ho : n.Open name u i) (hn : n.Inv) (hen : (h, .ear) ∈ n.timeouts)
    (hf : Node.Fires h n n') : n'.Open name u i := by
  rcases ho with hshut | ⟨source, j, ha, hsource⟩
  · exact Or.inl (hshut.fires hf)
  · rcases ha.fires hn hen hf with ha' | hshut
    · exact Or.inr ⟨source, j, ha', hsource⟩
    · exact Or.inl hshut

/-- **A timeout does not change how far the request has come.** -/
theorem Progress.party_fires (hp : progress.party name u i n) (hn : n.Inv)
    (hen : (h, .ear) ∈ n.timeouts) (hf : Node.Fires h n n') : progress.party name u i n' := by
  cases progress with
  | asked p =>
    rw [Progress.party] at hp ⊢
    split_ifs at hp ⊢ with hi
    · exact hp.fires hn hen hf
    · exact hp.fires hen hf
  | answered code p =>
    rw [Progress.party] at hp ⊢
    split_ifs at hp ⊢ with hi
    · exact hp.fires hn hen hf
    · exact hp.fires hen hf
  | bounced =>
    rw [Progress.party] at hp ⊢
    split_ifs at hp ⊢ with hi
    · exact hp.fires hf
    · exact hp.fires hen hf
  | lost => trivial
  | reported code => exact Node.Done.fires hp hen hf

theorem Chain.At.acts (hat : c.At b name u progress net)
    (hact : (c.protocol .ear).acts i (net.party i) s sends) :
    sends = [] ∧ c.At b name u progress (net.goes i s net.flight) := by
  obtain ⟨env, h, hsite, hen, hrun, rfl⟩ := hact
  have hfires := Node.Fires.of_run (hat.inv i) hrun
  refine ⟨Chain.arrivals_silent (by rw [hfires.shared]), ?_, ?_, hat.flight, ?_⟩
  · exact Net.forall_party_goes (I := fun _ (n : Node) => n.Inv) hat.inv ((hat.inv i).step hrun).1
  · exact Net.forall_party_goes hat.party
      (Progress.party_fires (hat.party i) (hat.inv i) hen hfires)
  · intro code hmem
    refine hat.results code ?_
    by_cases hzero : 0 = i
    · subst hzero
      rw [Net.party_goes_self, hfires.shared] at hmem
      exact hmem
    · rw [Net.party_goes_ne hzero] at hmem
      exact hmem

theorem Chain.At.loses (hat : c.At b name u progress net) (hf : net.flight ≠ []) :
    c.At b name u .lost ⟨net.party, []⟩ :=
  ⟨hat.inv, fun _ => trivial, rfl, fun code hmem => absurd hmem (hat.unreported hf code)⟩

/-! ## The request -/

/-- The only connection is the nearest one. -/
theorem nearestConnections_single {locator : UInt8 × UInt8} (h : env.connections b = [locator]) :
    nearestConnections (getConnectionsTo env b) = [([locator.2], .simulation)] := by
  rw [getConnectionsTo, h]
  have hle : locator.1 ≤ 255 := UInt8.le_iff_toNat_le.mpr (Nat.le_of_lt_succ locator.1.toNat_lt)
  rcases lt_or_eq_of_le hle with hlt | heq
  · simp [nearestConnections, nearestStep, hlt]
  · simp [nearestConnections, nearestStep, heq]

/-- A relayed request is for the same listener. -/
theorem Chain.Linear.asks (hc : c.Linear b name) {address : Bytes}
    {capabilities : RequestingCapabilities} {x : Reservation} (hb : address.head? = some b)
    (hx : x = { admittedReservation env u r address capabilities with state := .preReserved })
    (i : Fin (k + 2)) : c.Asks b i (relayedRequest env x) := by
  obtain ⟨rest, rfl⟩ : ∃ rest, address = b :: rest := by
    rcases address with _ | ⟨first, rest⟩
    · cases hb
    · cases hb
      exact ⟨rest, rfl⟩
  have hhead : x.listener.toList.headD 0 = b := by
    rw [hx]
    exact head_markListener capabilities r.priority b rest
  have hcode : (relayedRequest env x).listenerLength = 0 := by
    rw [hx]
    rfl
  have hlistener : (relayedRequest env x).listener = firstListenerByte x := rfl
  intro env' address hsite hl
  rw [hcode, hlistener, listenerAddress_zero, take_firstListenerByte, hhead] at hl
  cases hl
  rw [hcode]
  exact ⟨rfl, hc.identity i env' hsite⟩

/-- An answer leaves its node for the one before, or is lost. -/
theorem Chain.At.returns {j : Fin (k + 1)} {target : Bytes} {type : IdentifierType}
    (hat : c.At b name u progress net)
    (hun : ∀ code, (code, u) ∉ (net.party 0).results) (hs : s.Inv)
    (hresults : s.results = (net.party j.succ).results) (hd : s.Done u code)
    (hbefore : ∀ i, i < j.succ → (net.party i).Open name u i)
    (hbehind : ∀ i, j.succ < i → (net.party i).Done u code)
    (hroute : ∀ hop, c.route j.succ target type = some hop → hop.1 = j.castSucc) :
    ∃ progress', c.At b name u progress'
      (net.goes j.succ s (c.arrivals j.succ [(answer u code, target, type)])) := by
  rcases c.arrivals_single j.succ (answer u code) target type with hnone | ⟨hop, hsome, hone⟩
  · rw [hnone]
    exact ⟨.lost, hat.stops hun hs hresults⟩
  · rw [hone, hroute hop hsome]
    refine ⟨.answered code j.castSucc, hat.goes hun hs hresults ?_ ?_ ⟨hop.2, rfl⟩⟩
    · rw [Progress.party, if_neg (not_le.mpr Fin.castSucc_lt_succ)]
      exact hd
    · intro i hi _
      simp only [Progress.party, Fin.le_castSucc_iff]
      split_ifs with hlt
      · exact hbefore i hlt
      · exact hbehind i (lt_of_le_of_ne (not_lt.mp hlt) hi.symm)

/-- **The request at a node**: it goes on, or is answered, or is lost. -/
theorem Chain.At.ear (hc : c.Linear b name) (hat : c.At b name u (.asked p) net)
    (hun : ∀ code, (code, u) ∉ (net.party 0).results) (hask : c.Asks b p r)
    (hsource : ∀ j : Fin (k + 1), p = j.succ → source = ([name j], .simulation))
    (htake : (c.protocol .ear).takes p (source, .ear v u r) (net.party p) s sends) :
    ∃ progress, c.At b name u progress (net.goes p s sends) := by
  obtain ⟨env, hsite, hrun, rfl⟩ := htake
  have hinv := ((hat.inv p).step hrun).1
  have hparty : ∀ i, if i < p then (net.party i).Open name u i else (net.party i).Fresh u (i = 0) :=
    hat.party
  have hbefore : ∀ i, i < p → (net.party i).Open name u i := by
    intro i hi
    have hi' := hparty i
    rwa [if_pos hi] at hi'
  have hfresh : ∀ i, p ≤ i → (net.party i).Fresh u (i = 0) := by
    intro i hi
    have hi' := hparty i
    rwa [if_neg (not_lt.mpr hi)] at hi'
  -- A node that is not the listener has the one connection that the chain gives it.
  have hnext : ∀ address, listenerAddress env r.listenerLength r.listener = .ok address →
      iAmListener env r.listenerLength address = false → ∃ j : Fin (k + 1), p = j.castSucc := by
    intro address hl hme
    have hne : p ≠ Fin.last (k + 1) := by
      intro hlast
      rw [(hask env address hsite hl).2.mpr hlast] at hme
      cases hme
    obtain ⟨j, hj⟩ := Fin.exists_castSucc_eq.mpr hne
    exact ⟨j, hj.symm⟩
  have hone : ∀ address first, listenerAddress env r.listenerLength r.listener = .ok address →
      iAmListener env r.listenerLength address = false → address.head? = some first →
      (nearestConnections (getConnectionsTo env first)).length = 1 := by
    intro address first hl hme hfirst
    obtain ⟨j, rfl⟩ := hnext address hl hme
    rw [(hask env address hsite hl).1, Option.some.injEq] at hfirst
    subst hfirst
    obtain ⟨locator, hlocator, -⟩ := hc.toward j env hsite
    rw [nearestConnections_single hlocator, List.length_singleton]
  obtain ⟨hresults, sends, hsends, hasked⟩ := (hfresh p le_rfl).ear (hat.inv p) hone hrun
  rw [Node.sentUntil_eq hsends]
  cases hasked with
  | unreadable => exact ⟨.lost, hat.stops hun hinv hresults⟩
  | refused hs hr ht =>
    rename_i target
    -- the REF of the origin comes back to itself, if it goes anywhere
    by_cases hzero : p = 0
    · subst hzero
      rcases c.arrivals_single 0 (newRef u) target source.2 with hnone | ⟨hop, -, hone⟩
      · rw [hnone]
        exact ⟨.lost, hat.stops hun hinv hresults⟩
      · rw [hone]
        refine ⟨.bounced, hat.goes hun hinv hresults ?_ ?_ ⟨_, _, rfl⟩⟩
        · rw [Progress.party, if_pos rfl]
          exact hs
        · intro j hj _
          have hj' := hfresh j (Fin.zero_le j)
          rw [decide_eq_false hj] at hj'
          rw [Progress.party, if_neg hj]
          exact hj'
    · obtain ⟨j, rfl⟩ := Fin.exists_succ_eq.mpr hzero
      obtain rfl := hsource j rfl
      refine hat.returns hun hinv hresults (show s.Done u .fail from hr) hbefore ?_ ?_
      · intro i hi
        exact Node.not_reserves_of_free (hfresh i hi.le).free
      · exact fun hop hroute => hc.back j env hsite target hop ht hroute
  | accepted hl hme hsecure ht =>
    rename_i address target
    -- only the last node is the listener
    have hlast := (hask env address hsite hl).2.mp hme
    obtain ⟨j, rfl⟩ := Fin.exists_succ_eq.mpr (hlast ▸ Fin.last_pos.ne')
    obtain rfl := hsource j rfl
    refine hat.returns hun hinv hresults (show s.Done u .ok from hsecure) hbefore ?_ ?_
    · intro i hi
      rw [hlast] at hi
      exact absurd hi (not_lt.mpr (Fin.le_last i))
    · exact fun hop hroute => hc.back j env hsite target hop ht hroute
  | forwarded hl hme hb hconnection hx ha =>
    rename_i h address first connection capabilities x
    obtain rfl : b = first := Option.some.inj ((hask env address hsite hl).1.symm.trans hb)
    obtain ⟨j, rfl⟩ := hnext address hl hme
    obtain ⟨locator, hlocator, htoward⟩ := hc.toward j env hsite
    rw [nearestConnections_single hlocator, List.singleton_inj] at hconnection
    subst hconnection
    -- the EAR gets lost or comes to the next node
    rcases c.arrivals_single j.castSucc (.ear headerVersion u (relayedRequest env x)) [locator.2]
      .simulation with hnone | ⟨hop, hroute, hone⟩
    · rw [hnone]
      exact ⟨.lost, hat.stops hun hinv hresults⟩
    · rw [hone]
      obtain rfl := htoward hop hroute
      refine ⟨.asked j.succ, hat.goes hun hinv hresults ?_ ?_
        ⟨_, headerVersion, relayedRequest env x, rfl, hc.asks hb hx j.succ, ?_⟩⟩
      · rw [Progress.party, if_pos Fin.castSucc_lt_succ]
        exact Or.inr ⟨source, h, ha, hsource⟩
      · intro i hi hi'
        have hiff : i < j.succ ↔ i < j.castSucc := by rw [← Fin.le_castSucc_iff, hi.le_iff_lt]
        simp only [Progress.party, hiff]
        exact hi'
      · intro i hi
        rw [Fin.succ_inj.mp hi]

/-! ## The answer -/

/-- An answer at a node that is shut is dropped. -/
theorem Chain.At.drops (hat : c.At b name u progress net)
    (hun : ∀ code, (code, u) ∉ (net.party 0).results) (hs : (net.party p).Shut u)
    (htake : (c.protocol .ear).takes p (source, answer u code) (net.party p) s sends) :
    c.At b name u .lost (net.goes p s sends) := by
  obtain ⟨env, -, hrun, rfl⟩ := htake
  have hsame : s = net.party p := by
    cases code with
    | ok => exact hs.receive (.acc headerVersion u) (hat.inv p) nofun hrun
    | fail => exact hs.receive (.ref headerVersion u) (hat.inv p) nofun hrun
  subst hsame
  rw [Chain.arrivals_silent rfl]
  exact hat.stops hun (hat.inv p) rfl

/-- **The origin reports the answer.** -/
theorem Chain.At.reports (hat : c.At b name u (.answered code 0) net)
    (hun : ∀ code, (code, u) ∉ (net.party 0).results) (hs : s.Inv)
    (hresults : s.results = (net.party 0).results ++ [(code, u)]) (hd : s.Done u code) :
    c.At b name u (.reported code) (net.goes 0 s []) := by
  refine ⟨?_, ?_, rfl, ?_⟩
  · exact Net.forall_party_goes (I := fun _ (n : Node) => n.Inv) hat.inv hs
  · intro j
    by_cases hj : j = 0
    · subst hj
      rw [Net.party_goes_self]
      exact hd
    · have hj' : if j ≤ 0 then (net.party j).Open name u j else (net.party j).Done u code :=
        hat.party j
      rw [if_neg (not_le.mpr (Fin.pos_of_ne_zero hj))] at hj'
      rw [Net.party_goes_ne hj]
      exact hj'
  · intro code' hmem
    rw [Net.party_goes_self, hresults] at hmem
    have hlast := (List.mem_append.mp hmem).resolve_left (hun code')
    rw [(Prod.mk.inj (List.mem_singleton.mp hlast)).1]

/-- **The answer at a node** is reported, or goes back one node, or is lost. -/
theorem Chain.At.answered (hc : c.Linear b name) (hat : c.At b name u (.answered code p) net)
    (hun : ∀ code, (code, u) ∉ (net.party 0).results)
    (htake : (c.protocol .ear).takes p (source, answer u code) (net.party p) s sends) :
    ∃ progress, c.At b name u progress (net.goes p s sends) := by
  have hparty : ∀ i, if i ≤ p then (net.party i).Open name u i else (net.party i).Done u code :=
    hat.party
  have hopen : ∀ i, i ≤ p → (net.party i).Open name u i := by
    intro i hi
    have hi' := hparty i
    rwa [if_pos hi] at hi'
  have hdone : ∀ i, p < i → (net.party i).Done u code := by
    intro i hi
    have hi' := hparty i
    rwa [if_neg (not_le.mpr hi)] at hi'
  rcases hopen p le_rfl with hshut | ⟨past, h, ha, hpast⟩
  · exact ⟨.lost, hat.drops hun hshut htake⟩
  obtain ⟨env, hsite, hrun, rfl⟩ := htake
  have hinv := ((hat.inv p).step hrun).1
  obtain ⟨rfl, hanswered⟩ := ha.answered (hat.inv p) hrun
  by_cases hzero : p = 0
  · subst hzero
    rw [decide_eq_true rfl] at hanswered
    cases hanswered with
    | reported hd hresults hsends =>
      rw [Chain.arrivals_silent hsends]
      exact ⟨_, hat.reports hun hinv hresults hd⟩
  · rw [decide_eq_false hzero] at hanswered
    cases hanswered with
    | stuck hresults hsends =>
      rw [Chain.arrivals_silent hsends]
      exact ⟨.lost, hat.stops hun hinv hresults⟩
    | relayed hd hport hresults hsends =>
      rw [Node.sentUntil_eq hsends]
      obtain ⟨j, rfl⟩ := Fin.exists_succ_eq.mpr hzero
      obtain rfl := hpast j rfl
      exact hat.returns hun hinv hresults hd (fun i hi => hopen i hi.le) hdone
        fun hop hroute => hc.past j env hsite _ hop hport hroute

/-- The REF of the origin itself finds its handler closed, and elsewhere none that could take it. -/
theorem Chain.At.bounces (hat : c.At b name u .bounced net)
    (hun : ∀ code, (code, u) ∉ (net.party 0).results)
    (htake : (c.protocol .ear).takes p (source, answer u .fail) (net.party p) s sends) :
    c.At b name u .lost (net.goes p s sends) := by
  have hparty := hat.party p
  rw [Progress.party] at hparty
  split_ifs at hparty with hp
  · exact hat.drops hun hparty htake
  · obtain ⟨env, -, hrun, -⟩ := htake
    exact absurd hrun (hparty.ref (hat.inv p))

/-! ## Runs -/

/-- **A step takes the request on, or leaves it where it is.** -/
theorem Chain.At.step (hc : c.Linear b name) (hat : c.At b name u progress net)
    (hstep : Net.Step (c.protocol .ear) net net') : ∃ progress', c.At b name u progress' net' := by
  -- Without a message only a timer can fire.
  have hempty : net.flight = [] → ∃ progress', c.At b name u progress' net' := by
    intro hf
    obtain ⟨i, s, sends, hact, rfl⟩ := Net.Step.of_empty hf hstep
    obtain ⟨rfl, hat'⟩ := hat.acts hact
    rw [hf] at hat'
    exact ⟨progress, hat'⟩
  -- With one message, it may be taken instead, or lost.
  have hsingle : ∀ {i : Fin (k + 2)} {m : Parcel}, net.flight = [(i, m)] →
      (∀ {s sends}, (∀ code, (code, u) ∉ (net.party 0).results) →
        (c.protocol .ear).takes i m (net.party i) s sends →
        ∃ progress', c.At b name u progress' (net.goes i s sends)) →
      ∃ progress', c.At b name u progress' net' := by
    intro i m hf htakes
    have hne : net.flight ≠ [] := by
      rw [hf]
      exact List.cons_ne_nil _ _
    rcases Net.Step.of_single hf hstep with ⟨s, sends, htake, rfl⟩ | rfl | ⟨j, s, sends, hact, rfl⟩
    · exact htakes (hat.unreported hne) htake
    · exact ⟨.lost, hat.loses hne⟩
    · obtain ⟨rfl, hat'⟩ := hat.acts hact
      rw [hf] at hat'
      exact ⟨progress, hat'⟩
  have hflight := hat.flight
  cases progress with
  | asked p =>
    obtain ⟨source, v, r, hf, hask, hsource⟩ := hflight
    exact hsingle hf fun hun htake => hat.ear hc hun hask hsource htake
  | answered code p =>
    obtain ⟨source, hf⟩ := hflight
    exact hsingle hf fun hun htake => hat.answered hc hun htake
  | bounced =>
    obtain ⟨i, source, hf⟩ := hflight
    exact hsingle hf fun hun htake => ⟨.lost, hat.bounces hun htake⟩
  | lost => exact hempty hflight
  | reported code => exact hempty hflight

theorem Chain.Starts.at (h : c.Starts b u net) : c.At b name u (.asked 0) net where
  inv i := (h.reachable i).inv
  party i := by
    rw [Progress.party, if_neg (Fin.not_lt_zero i)]
    exact h.fresh i
  flight := by
    obtain ⟨source, v, r, hf, hask⟩ := h.request
    exact ⟨source, v, r, hf, hask, fun j hj => absurd hj.symm (Fin.succ_ne_zero j)⟩
  results code hmem := absurd hmem (h.unreported code)

/-- Wherever a run leads, the request has come somewhere. -/
theorem Chain.Starts.run (h : c.Starts b u net) (hc : c.Linear b name)
    (hrun : Net.Run (c.protocol .ear) net net') : ∃ progress, c.At b name u progress net' := by
  induction hrun with
  | refl => exact ⟨_, h.at⟩
  | tail _ hstep ih =>
    obtain ⟨progress, hat⟩ := ih
    exact hat.step hc hstep

/--
**Admission agreement**: in every run, with any losses and any EAR timeouts, the origin reports
that the request was granted only if every node has its reservation, and that it failed only if
none has, and never both.
-/
theorem admission_agreement (h : c.Starts b u net) (hc : c.Linear b name)
    (hrun : Net.Run (c.protocol .ear) net net') :
    ((.ok, u) ∈ (net'.party 0).results → ∀ i, (net'.party i).Reserves u) ∧
      ((.fail, u) ∈ (net'.party 0).results → ∀ i, ¬(net'.party i).Reserves u) ∧
      ¬((.ok, u) ∈ (net'.party 0).results ∧ (.fail, u) ∈ (net'.party 0).results) := by
  obtain ⟨progress, hat⟩ := h.run hc hrun
  refine ⟨?_, ?_, ?_⟩
  · intro hok i
    obtain rfl := hat.results .ok hok
    exact Node.Secure.reserves (hat.party i)
  · intro hfail i
    obtain rfl := hat.results .fail hfail
    exact hat.party i
  · rintro ⟨hok, hfail⟩
    have hboth := (hat.results .ok hok).symm.trans (hat.results .fail hfail)
    cases hboth

end Steps

theorem sampleAdmission_starts : Chain.sample.Starts 9 (sampleUuid 7 0) sampleAdmission where
  reachable i := by
    match i with
    | 0 => exact .single ⟨sampleSite 0, .markOrigin (sampleUuid 7 0) 0, trivial, rfl⟩
    | 1 => exact .refl
  fresh i :=
    { unstored := nofun
      free := ⟨⟨List.nodup_nil, nofun⟩, rfl⟩
      timers := nofun
      untranslated := rfl
      origin := by
        match i with
        | 0 => decide +kernel
        | 1 => decide +kernel }
  unreported := nofun
  request := by
    refine ⟨_, 1, .sample 9, rfl, ?_⟩
    rintro env address rfl hl
    have haddress : listenerAddress (sampleSite 0) 0 (Request.sample 9).listener = .ok [9] := rfl
    cases haddress.symm.trans hl
    decide

/-- The two nodes of the sample, however they assess requests and reach each other. -/
theorem sampleSite_linear {c : Chain 1} (assess : Fin 2 → Assessment)
    (hsite : c.site = fun i env => env = { sampleSite i with assessment := assess i })
    (htoward : ∀ hop, c.route 0 [9] .simulation = some hop → hop = (1, [5], .simulation))
    (hback : ∀ hop, c.route 1 [5] .simulation = some hop → hop.1 = 0)
    (hpast : ∀ hop, c.route 1 [0] .simulation = some hop → hop.1 = 0) : c.Linear 9 fun _ => 5 where
  identity := by
    rw [hsite]
    rintro i env rfl
    show (sampleSite i).identity 9 = true ↔ i = Fin.last 1
    match i with
    | 0 => decide
    | 1 => decide
  toward := by
    rw [hsite]
    rintro i env rfl
    obtain rfl := Fin.fin_one_eq_zero i
    exact ⟨(1, 9), rfl, htoward⟩
  back := by
    rw [hsite]
    rintro i env rfl target hop ⟨first, front, ⟨⟩, hfront, rfl⟩ hroute
    obtain rfl := Fin.fin_one_eq_zero i
    cases hfront
    exact hback hop hroute
  past := by
    rw [hsite]
    rintro i env rfl target hop hport hroute
    obtain rfl := Fin.fin_one_eq_zero i
    cases hport
    exact hpast hop hroute

theorem sampleAdmission_linear : Chain.sample.Linear 9 fun _ => 5 := by
  refine sampleSite_linear (fun i => (sampleSite i).assessment) rfl ?_ ?_ ?_
  · rintro hop ⟨⟩
    rfl
  · rintro hop ⟨⟩
    rfl
  · rintro hop ⟨⟩

theorem sampleAdmission_run :
    Net.Run (Chain.sample.protocol .ear) sampleAdmission sampleAdmissionReported := by
  have hrelayed : Net.Step (Chain.sample.protocol .ear) sampleAdmission sampleAdmissionRelayed :=
    Chain.step_taken rfl rfl (by decide +kernel)
  have hanswered : Net.Step (Chain.sample.protocol .ear) sampleAdmissionRelayed
      sampleAdmissionAnswered :=
    Chain.step_taken (by decide +kernel) rfl (by decide +kernel)
  have hreported : Net.Step (Chain.sample.protocol .ear) sampleAdmissionAnswered
      sampleAdmissionReported :=
    Chain.step_taken (by decide +kernel) rfl (by decide +kernel)
  exact .tail (.tail (.single hrelayed) hanswered) hreported

/-- A request that is granted: the origin reports it, and both nodes have reserved. -/
theorem admission_agreement_granted :
    (.ok, sampleUuid 7 0) ∈ (sampleAdmissionReported.party 0).results ∧
      ∀ i, (sampleAdmissionReported.party i).Reserves (sampleUuid 7 0) := by
  have hreported : (.ok, sampleUuid 7 0) ∈ (sampleAdmissionReported.party 0).results := by
    decide +kernel
  exact ⟨hreported, (admission_agreement sampleAdmission_starts sampleAdmission_linear
    sampleAdmission_run).1 hreported⟩

end Rankd

import Rankd.Properties.Agreement
import Rankd.Properties.Course
import Rankd.Properties.Traffic

/-!
# Requests come to an end

On a path whose nodes can read each other's requests and reach each other, every message of a
request is taken, and takes it further: to the listener, or to the first node that refuses it, and
an ACC back to the origin. So a run without losses and timeouts ends after as many messages at most
as there are nodes to go to and to come back from. If every node admits the request it ends with the
report of the origin. If one does not, the origin is told nothing: the REF comes to the node before,
which has a pre-reservation and does not survive it (F.1).

* `Chain.On`: where the request is, and what the nodes have decided
* `Chain.On.deliver`: the one message in flight is taken, unless it is a REF
* `admission_completes`: every run
-/

namespace Rankd

open Infra

variable {k : Nat}

/-- Whatever is asked of the node, it decides in this way. -/
def Chain.Judges (c : Chain k) (i : Fin (k + 1)) (verdict : Bool) : Prop :=
  ∀ env, c.site i env → ∀ priority z, env.assessment.admits priority z = verdict

/--
The nodes of a path can work on what comes from each other: they read the requests, they
have a connection and a port to the node before, and what they send arrives under a name
that can be printed.
-/
structure Chain.Serves (c : Chain (k + 1)) (name : Fin (k + 1) → UInt8) (b : UInt8) : Prop where
  inhabited : ∀ i, ∃ env, c.site i env
  reads : ∀ i env j env', c.site i env → c.site j env' → ∀ capabilities,
    ∃ read, env'.unmarshal (env.serialize capabilities) = .ok read
  toward : ∀ (i : Fin (k + 1)) env, c.site i.castSucc env → ∀ locator,
    env.connections b = [locator] → ∃ hop, c.route i.castSucc [locator.2] .simulation = some hop
  back : ∀ (i : Fin (k + 1)) env, c.site i.succ env → ∃ target hop,
    env.Nearest ([name i], .simulation) target ∧ c.route i.succ target .simulation = some hop ∧
      Printed hop.2
  past : ∀ (i : Fin (k + 1)) env, c.site i.succ env → ∃ target hop,
    portInTopology env (name i) = some target ∧ c.route i.succ target .simulation = some hop ∧
      Printed hop.2

/-- The request can be read at the node, and the origin admits it. -/
def Chain.Reads (c : Chain (k + 1)) (u : UUIDv4) (i : Fin (k + 2)) (r : Request) : Prop :=
  ∀ env, c.site i env → ∃ address capabilities,
    listenerAddress env r.listenerLength r.listener = .ok address ∧
      env.unmarshal r.payload = .ok capabilities ∧
      (i.val = 0 →
        env.assessment.admits r.priority (builtReservation u r address capabilities) = true)

inductive Course (k : Nat)
  | asked (p : Fin (k + 2))
  | answered (code : ApiResult) (p : Fin (k + 2))
  | reported

/-- The messages that are still to be taken at most. A REF is not taken. -/
def Course.left : Course k → Nat
  | .asked p => 2 * k + 3 - p
  | .answered .ok p => p + 1
  | .answered .fail _ | .reported => 0

/-- The node has sent the request on and waits for the answer. -/
def Node.Pending (name : Fin (k + 1) → UInt8) (u : UUIDv4) (i : Fin (k + 2)) (n : Node) : Prop :=
  ∃ source h, n.Awaits u (i.val = 0) source h ∧ n.Unanswered u ∧ Readable source ∧
    ∀ j : Fin (k + 1), i = j.succ → source = ([name j], .simulation)

def Course.party (name : Fin (k + 1) → UInt8) (u : UUIDv4) : Course k → Fin (k + 2) → Node → Prop
  | .asked p, i, n => if i < p then n.Pending name u i else n.Fresh u (i.val = 0)
  | .answered _ p, i, n => i ≤ p → n.Pending name u i
  | .reported, _, _ => True

def Course.flight (c : Chain (k + 1)) (b : UInt8) (name : Fin (k + 1) → UInt8) (u : UUIDv4) :
    Course k → List (Fin (k + 2) × Parcel) → Prop
  | .asked p, l => ∃ source v r, l = [(p, source, .ear v u r)] ∧ c.Asks b p r ∧ Readable source ∧
      c.Reads u p r ∧ ∀ j : Fin (k + 1), p = j.succ → source = ([name j], .simulation)
  | .answered code p, l => ∃ source, l = [(p, source, answer u code)] ∧ Printed source
  | .reported, l => l = []

/-- What the nodes have decided. -/
def Course.judged (c : Chain (k + 1)) : Course k → Prop
  | .asked p => ∀ i < p, ¬c.Judges i false
  | .answered .ok _ | .reported => ∀ i, ¬c.Judges i false
  | .answered .fail _ => ∃ i, ¬c.Judges i true

/-- What the node has reported about the request. -/
def Node.reports (u : UUIDv4) (n : Node) : List (ApiResult × UUIDv4) :=
  n.results.filter fun e => e.2 = u

def Course.results (u : UUIDv4) : Course k → List (ApiResult × UUIDv4)
  | .asked _ | .answered _ _ => []
  | .reported => [(.ok, u)]

structure Chain.On (c : Chain (k + 1)) (b : UInt8) (name : Fin (k + 1) → UInt8) (u : UUIDv4)
    (course : Course k) (net : ChainNet (k + 1)) : Prop where
  reachable : ∀ i, (net.party i).Reachable
  party : ∀ i, course.party name u i (net.party i)
  flight : course.flight c b name u net.flight
  judged : course.judged c
  results : (net.party 0).reports u = course.results u

section Steps

variable {c : Chain (k + 1)} {b : UInt8} {name : Fin (k + 1) → UInt8} {u : UUIDv4}
  {course course' : Course k} {net net' : ChainNet (k + 1)} {i p : Fin (k + 2)} {env : Env}
  {n s : Node} {source : NodeIdentifier} {flight : List (Fin (k + 2) × Parcel)}
  {v : UInt8} {r : Request}

/-- A node that goes on without a result. -/
theorem Chain.On.goes (hon : c.On b name u course net)
    (hun : course'.results u = course.results u) (hs : s.Reachable)
    (hresults : s.results = (net.party i).results) (hi : course'.party name u i s)
    (hparty : ∀ j, j ≠ i → course.party name u j (net.party j) →
      course'.party name u j (net.party j))
    (hflight : course'.flight c b name u flight) (hjudged : course'.judged c) :
    c.On b name u course' (net.goes i s flight) := by
  refine ⟨Net.forall_party_goes (I := fun _ (n : Node) =>
    n.Reachable) hon.reachable hs, ?_, hflight,
    hjudged, ?_⟩
  · intro j
    by_cases hj : j = i
    · subst hj
      rw [Net.party_goes_self]
      exact hi
    · rw [Net.party_goes_ne hj]
      exact hparty j hj (hon.party j)
  · rw [hun, ← hon.results]
    by_cases hzero : 0 = i
    · subst hzero
      rw [Net.party_goes_self, Node.reports, hresults]
      rfl
    · rw [Net.party_goes_ne hzero]

/-- A node takes the one message in flight, what it sends arrives, and the request goes on. -/
def Chain.Delivers (c : Chain (k + 1)) (b : UInt8) (name : Fin (k + 1) → UInt8) (u : UUIDv4)
    (course : Course k) (net : ChainNet (k + 1)) (p : Fin (k + 2)) (m : Parcel)
    (env : Env) : Prop :=
  ∃ s, (perform env (.receive m.2 m.1)).run (net.party p) = (.ok (), s) ∧
    (c.arrivals p ((net.party p).sentUntil s)).length = ((net.party p).sentUntil s).length ∧
    ∃ course' : Course k, course'.left < course.left ∧
      c.On b name u course' (net.goes p s (c.arrivals p ((net.party p).sentUntil s)))

theorem Chain.arrivals_hop {c : Chain k} {i : Fin (k + 1)} {m : Message} {target : Bytes}
    {type : IdentifierType} {hop : Fin (k + 1) × NodeIdentifier}
    (h : c.route i target type = some hop) :
    c.arrivals i [(m, target, type)] = [(hop.1, hop.2, m)] := by
  rw [Chain.arrivals, List.filterMap_cons_some (by rw [h]; rfl), List.filterMap_nil]

/-! ## The request -/

/-- A node on the way has one connection to the listener. -/
theorem Chain.Linear.single (hc : c.Linear b name) (hask : c.Asks b p r) (hsite : c.site p env)
    (address : Bytes) (first : UInt8)
    (hl : listenerAddress env r.listenerLength r.listener = .ok address)
    (hme : iAmListener env r.listenerLength address = false) (hfirst : address.head? = some first) :
    (nearestConnections (getConnectionsTo env first)).length = 1 := by
  obtain ⟨hb, hlast⟩ := hask env address hsite hl
  have hne : p ≠ Fin.last (k + 1) := by
    intro h
    rw [hlast.mpr h] at hme
    cases hme
  obtain ⟨j, rfl⟩ := Fin.exists_castSucc_eq.mpr hne
  rw [hb, Option.some.injEq] at hfirst
  subst hfirst
  obtain ⟨locator, hlocator, -⟩ := hc.toward j env hsite
  rw [nearestConnections_single hlocator, List.length_singleton]

/-- A node that has sent the request on. -/
theorem Node.Asked.relays {origin : Bool} {sends : SendingQueue} {v' : UInt8} {r' : Request}
    {connection : NodeIdentifier} (h : n.Asked env u origin source r sends)
    (hsends : sends = [(.ear v' u r', connection)]) :
    ∃ address capabilities x i, listenerAddress env r.listenerLength r.listener = .ok address ∧
      x = { admittedReservation env u r address capabilities with state := .preReserved } ∧
      r' = relayedRequest env x ∧ n.Awaits u origin source i := by
  cases h with
  | unreadable => cases hsends
  | refused => cases hsends
  | accepted => cases hsends
  | forwarded hl _ _ _ hx ha =>
    cases hsends
    exact ⟨_, _, _, _, hl, hx, rfl, ha⟩

/-- The node that decides the request answers it. -/
theorem Chain.On.turns (code : ApiResult) {j : Fin (k + 1)} {target : Bytes} {type : IdentifierType}
    {hop : Fin (k + 2) × NodeIdentifier} (hon : c.On b name u (.asked j.succ) net)
    (hs : s.Reachable) (hresults : s.results = (net.party j.succ).results)
    (hroute : c.route j.succ target type = some hop) (hback : hop.1 = j.castSucc)
    (hprinted : Printed hop.2) (hjudged : Course.judged c (.answered code j.castSucc)) :
    c.On b name u (.answered code j.castSucc)
      (net.goes j.succ s (c.arrivals j.succ [(answer u code, target, type)])) := by
  rw [Chain.arrivals_hop hroute, hback]
  refine hon.goes rfl hs hresults ?_ ?_ ⟨hop.2, rfl, hprinted⟩ hjudged
  · exact fun hle => absurd hle (not_le.mpr Fin.castSucc_lt_succ)
  · intro i _ hi hle
    have hlt : i < j.succ := Fin.le_castSucc_iff.mp hle
    rw [Course.party, if_pos hlt] at hi
    exact hi

/-- **The request is taken**: the node answers it, or sends it on. -/
theorem Chain.On.asked (hc : c.Linear b name) (hs : c.Serves name b)
    (hon : c.On b name u (.asked p) net) (hask : c.Asks b p r) (hread : Readable source)
    (hreads : c.Reads u p r)
    (hsource : ∀ j : Fin (k + 1), p = j.succ → source = ([name j], .simulation))
    (hsite : c.site p env) :
    c.Delivers b name u (.asked p) net p (source, .ear v u r) env := by
  obtain ⟨address, capabilities, hl, hu, hfirst⟩ := hreads env hsite
  obtain ⟨hb, hlast⟩ := hask env address hsite hl
  have hreach := hon.reachable p
  have hfresh : (net.party p).Fresh u (p.val = 0) := by
    have hparty := hon.party p
    rwa [Course.party, if_neg (lt_irrefl p)] at hparty
  have hear : ∀ {s}, (perform env (.receive (.ear v u r) source)).run (net.party p) = (.ok (), s) →
      s.Reachable ∧ s.results = (net.party p).results ∧
        ∃ sends, s.sendingMessages = (net.party p).sendingMessages ++ sends ∧
          Node.Asked env u (p.val = 0) source r s sends := by
    intro s hrun
    exact ⟨hreach.tail ⟨env, .receive (.ear v u r) source, trivial, hrun⟩,
      hfresh.ear hreach.inv (hc.single hask hsite) hrun⟩
  cases ha : env.assessment.admits r.priority (builtReservation u r address capabilities) with
  | false =>
    -- the origin admits its own request, so there is a node to turn it back to
    have hzero : p ≠ 0 := by
      rintro rfl
      rw [hfirst rfl] at ha
      cases ha
    obtain ⟨j, rfl⟩ := Fin.exists_succ_eq.mpr hzero
    obtain rfl := hsource j rfl
    obtain ⟨target, hop, hnear, hroute, hprinted⟩ := hs.back j env hsite
    obtain ⟨s, hrun, hsends⟩ := hfresh.refuses (v := v) hl hu ha hnear
    obtain ⟨hreach', hresults, -⟩ := hear hrun
    refine ⟨s, hrun, ?_, .answered .fail j.castSucc, ?_, ?_⟩
    · rw [Node.sentUntil_eq hsends, Chain.arrivals_hop hroute]
      rfl
    · simp only [Course.left, Fin.val_succ]
      omega
    · rw [Node.sentUntil_eq hsends]
      refine hon.turns .fail hreach' hresults hroute
        (hc.back j env hsite target hop hnear hroute) hprinted ⟨j.succ, fun hj => ?_⟩
      rw [hj env hsite] at ha
      cases ha
  | true =>
    -- no node up to this one refuses the request
    have hjudged : ∀ i ≤ p, ¬c.Judges i false := by
      intro i hi hj
      rcases hi.lt_or_eq with hlt | rfl
      · exact hon.judged i hlt hj
      · rw [hj env hsite] at ha
        cases ha
    cases hme : iAmListener env r.listenerLength address with
    | true =>
      -- the listener is the last node, and grants it
      have hp := hlast.mp hme
      obtain ⟨j, rfl⟩ := Fin.exists_succ_eq.mpr (hp ▸ Fin.last_pos.ne')
      obtain rfl := hsource j rfl
      obtain ⟨target, hop, hnear, hroute, hprinted⟩ := hs.back j env hsite
      obtain ⟨s, hrun, hsends⟩ := hfresh.grants (v := v) hl hme hu ha hnear
      obtain ⟨hreach', hresults, -⟩ := hear hrun
      refine ⟨s, hrun, ?_, .answered .ok j.castSucc, ?_, ?_⟩
      · rw [Node.sentUntil_eq hsends, Chain.arrivals_hop hroute]
        rfl
      · simp only [Course.left, Fin.val_castSucc, Fin.val_succ]
        omega
      · rw [Node.sentUntil_eq hsends]
        refine hon.turns .ok hreach' hresults hroute
          (hc.back j env hsite target hop hnear hroute) hprinted fun i => hjudged i ?_
        rw [hp]
        exact Fin.le_last i
    | false =>
      -- any other node passes it on
      have hne : p ≠ Fin.last (k + 1) := by
        intro h
        rw [hlast.mpr h] at hme
        cases hme
      obtain ⟨j, rfl⟩ := Fin.exists_castSucc_eq.mpr hne
      obtain ⟨locator, hlocator, htoward⟩ := hc.toward j env hsite
      have hconnection := nearestConnections_single hlocator
      obtain ⟨s, x, hrun, hsends, hun⟩ := hfresh.forwards (v := v) hl hme hu ha hb hconnection hread
      obtain ⟨hreach', hresults, sends, hsends', hasked⟩ := hear hrun
      obtain ⟨address', capabilities', y, i, hl', hy, hrelayed, ha'⟩ :=
        hasked.relays (List.append_cancel_left (hsends'.symm.trans hsends))
      obtain rfl := Except.ok.inj (hl.symm.trans hl')
      obtain ⟨hop, hroute⟩ := hs.toward j env hsite locator hlocator
      obtain rfl := htoward hop hroute
      have hprinted : Readable ([name j], .simulation) := Or.inr le_rfl
      refine ⟨s, hrun, ?_, .asked j.succ, ?_, ?_⟩
      · rw [Node.sentUntil_eq hsends, Chain.arrivals_hop hroute]
        rfl
      · simp only [Course.left, Fin.val_castSucc, Fin.val_succ]
        omega
      · rw [Node.sentUntil_eq hsends, Chain.arrivals_hop hroute]
        refine hon.goes rfl hreach' hresults ?_ ?_ ⟨_, headerVersion, relayedRequest env x,
          rfl, ?_, hprinted, ?_, ?_⟩ ?_
        · rw [Course.party, if_pos Fin.castSucc_lt_succ]
          exact ⟨source, i, ha', hun, hread, hsource⟩
        · intro q hq hq'
          have hiff : q < j.succ ↔ q < j.castSucc := by rw [← Fin.le_castSucc_iff, hq.le_iff_lt]
          simp only [Course.party, hiff]
          exact hq'
        · rw [hrelayed]
          exact hc.asks hb hy j.succ
        · intro env' hsite'
          obtain ⟨read, hunmarshal⟩ := hs.reads _ env _ env' hsite hsite' x.requirements
          have hcode : (relayedRequest env x).listenerLength = 0 := by
            rw [hrelayed, hy]
            rfl
          refine ⟨(firstListenerByte x).toList.take 1, read, ?_, hunmarshal,
            fun h => absurd h (Nat.succ_ne_zero _)⟩
          rw [hcode]
          exact listenerAddress_zero env' _
        · intro q hq
          rw [Fin.succ_inj.mp hq]
        · exact fun q hq => hjudged q (Fin.le_castSucc_iff.mpr hq)

/-! ## The answer -/

/-- **An ACC is taken**: the origin reports it, and other nodes pass it back. -/
theorem Chain.On.accepted (hc : c.Linear b name) (hs : c.Serves name b)
    (hon : c.On b name u (.answered .ok p) net) (hprinted : Printed source)
    (hsite : c.site p env) :
    c.Delivers b name u (.answered .ok p) net p (source, newAcc u) env := by
  have hreach := hon.reachable p
  obtain ⟨past, h, ha, hun, hread, hpast⟩ : (net.party p).Pending name u p := hon.party p le_rfl
  by_cases hzero : p = 0
  · subst hzero
    -- the origin reports the grant
    have hport : decide ((0 : Fin (k + 2)).val = 0) = false → simulatedPort env past = some [] := by
      rintro ⟨⟩
    obtain ⟨s, hrun, hsends⟩ := ha.accepts hreach hun hread hprinted hport
    have hanswered := ha.acc hreach.inv hrun
    have horigin : decide ((0 : Fin (k + 2)).val = 0) = true := rfl
    rw [horigin] at hanswered hsends
    rw [if_pos rfl, List.append_nil] at hsends
    obtain ⟨-, hresults, -⟩ := hanswered
    refine ⟨s, hrun, ?_, .reported, Nat.succ_pos _, ?_, fun _ => trivial, ?_, hon.judged, ?_⟩
    · rw [Node.sentUntil_eq (hsends.trans (List.append_nil _).symm)]
      rfl
    · exact Net.forall_party_goes (I := fun _ (n : Node) => n.Reachable) hon.reachable
        (hreach.tail ⟨env, .receive (newAcc u) source, trivial, hrun⟩)
    · exact Chain.arrivals_silent hsends
    · have hold : (net.party 0).reports u = [] := hon.results
      rw [Net.party_goes_self, Node.reports, hresults, List.filter_append,
        List.filter_singleton, decide_eq_true rfl]
      exact congrArg (· ++ [(ApiResult.ok, u)]) hold
  · obtain ⟨j, rfl⟩ := Fin.exists_succ_eq.mpr hzero
    obtain rfl := hpast j rfl
    -- any other node relays the ACC to its past node
    obtain ⟨target, hop, hport, hroute, hhop⟩ := hs.past j env hsite
    obtain ⟨s, hrun, hsends⟩ := ha.accepts hreach hun hread hprinted fun _ => hport
    have hanswered := ha.acc hreach.inv hrun
    have horigin : decide (j.succ.val = 0) = false := rfl
    rw [horigin] at hanswered hsends
    rw [if_neg Bool.false_ne_true] at hsends
    have hresults : s.results = (net.party j.succ).results := by
      cases hanswered with
      | stuck hr => exact hr
      | relayed _ _ hr => exact hr
    refine ⟨s, hrun, ?_, .answered .ok j.castSucc, ?_, ?_⟩
    · rw [Node.sentUntil_eq hsends, Chain.arrivals_hop hroute]
      rfl
    · simp only [Course.left, Fin.val_castSucc, Fin.val_succ]
      omega
    · rw [Node.sentUntil_eq hsends, Chain.arrivals_hop hroute,
        hc.past j env hsite target hop hport hroute]
      refine hon.goes rfl
        (hreach.tail ⟨env, .receive (newAcc u) source, trivial, hrun⟩) hresults ?_ ?_
        ⟨hop.2, rfl, hhop⟩ hon.judged
      · exact fun hle => absurd hle (not_le.mpr Fin.castSucc_lt_succ)
      · exact fun i _ hi hle => hi (hle.trans Fin.castSucc_lt_succ.le)

/-- The node does not survive the message, in any environment. -/
def Node.Dangles (m : Parcel) (n : Node) : Prop :=
  ∀ env, ((perform env (.receive m.2 m.1)).run n).1 = .error .danglingIterator

/-- **A REF is not taken** by the node that has sent the request on. -/
theorem Chain.On.refused (hon : c.On b name u (.answered .fail p) net) (source : NodeIdentifier) :
    (net.party p).Dangles (source, newRef u) := by
  obtain ⟨past, h, ha, -⟩ : (net.party p).Pending name u p := hon.party p le_rfl
  exact fun env => ha.dangles (hon.reachable p) env source

/-! ## Runs -/

/-- Nothing is in flight, or one message. -/
inductive Course.Next (c : Chain (k + 1)) (b : UInt8) (name : Fin (k + 1) → UInt8) (u : UUIDv4)
    (net : ChainNet (k + 1)) : Course k → Prop
  | taken {course : Course k} {p : Fin (k + 2)} {m : Parcel} (hf : net.flight = [(p, m)])
    (h : ∀ env, c.site p env → c.Delivers b name u course net p m env) :
    Course.Next c b name u net course
  | refused {p : Fin (k + 2)} {source : NodeIdentifier} (hf : net.flight = [(p, source, newRef u)])
    (h : (net.party p).Dangles (source, newRef u)) : Course.Next c b name u net (.answered .fail p)
  | reported (hf : net.flight = []) : Course.Next c b name u net .reported

/-- **The one message in flight is taken**, in every environment of its node, unless it is a REF. -/
theorem Chain.On.deliver (hc : c.Linear b name) (hs : c.Serves name b)
    (hon : c.On b name u course net) : course.Next c b name u net := by
  have hflight := hon.flight
  cases course with
  | asked p =>
    obtain ⟨source, v, r, hf, hask, hread, hreads, hsource⟩ := hflight
    exact .taken hf fun env hsite => hon.asked hc hs hask hread hreads hsource hsite
  | answered code p =>
    obtain ⟨source, hf, hprinted⟩ := hflight
    cases code with
    | ok => exact .taken hf fun env hsite => hon.accepted hc hs hprinted hsite
    | fail => exact .refused hf (hon.refused source)
  | reported => exact .reported hflight

theorem Chain.On.step {type : TimeoutType} (hc : c.Linear b name) (hs : c.Serves name b)
    (hon : c.On b name u course net) (hstep : Net.Delivery (c.protocol type) net net') :
    ∃ course' : Course k, c.On b name u course' net' ∧ course'.left < course.left := by
  cases hon.deliver hc hs with
  | taken hf htaken =>
    obtain ⟨s, sends, ⟨env, hsite, hrun, rfl⟩, rfl⟩ := hstep.of_single hf
    obtain ⟨s', hrun', -, course', hlt, hon'⟩ := htaken env hsite
    obtain rfl : s = s' := congrArg Prod.snd (hrun.symm.trans hrun')
    exact ⟨course', hon', hlt⟩
  | refused hf hdangles =>
    obtain ⟨s, sends, ⟨env, -, hrun, -⟩, -⟩ := hstep.of_single hf
    have hresult := hdangles env
    rw [hrun] at hresult
    cases hresult
  | reported hf =>
    obtain ⟨i, m, before, after, s, sends, hsplit, -⟩ := hstep
    rw [hf] at hsplit
    exact absurd hsplit.symm (List.append_ne_nil_of_right_ne_nil _ (List.cons_ne_nil _ _))

/-- As long as a message is in flight nothing is reported. -/
theorem Chain.On.unreported (hon : c.On b name u course net) (hf : net.flight ≠ []) :
    (net.party 0).reports u = [] := by
  rw [hon.results]
  cases course with
  | asked p => rfl
  | answered code p => rfl
  | reported => exact absurd hon.flight hf

end Steps

/-! ## A path whose ports lead to the neighbours -/

end Rankd

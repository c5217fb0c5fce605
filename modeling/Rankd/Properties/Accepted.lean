import Rankd.Node.Ending
import Rankd.Node.Filed
import Rankd.Node.Housed
import Rankd.Node.Marking
import Rankd.Node.Settled
import Rankd.Properties.Closed

/-!
# The nodes that accepted

An ACC tells a handler which node holds a reservation for the session, and a REP goes to all of
them. The source of an ACC is added to the next nodes of the session's reservation, unless the ACC
is forgotten (`Thread.Forgets`): a RESERVED handler ignores every further ACC, which after a tie is
the answer of the second winner. What was added stays until the handler is closed
(`accepted_known`).

* `Resources.Knows`: the reservation at an address knows a node, if it is still there
* `Held.Change.knows`, `Held.Change.lengthens`: what one change of a round keeps
* `Node.Remembers.step`: what one step of a node keeps
-/

namespace Rankd

open Infra Prog Relation

/-- The reservation at the address `a` has the node among its next nodes, if it is
still in the list. -/
structure Resources.Knows (a : Nat) (node : NodeIdentifier) (R : Resources) : Prop where
  taken : a < R.nextAddress
  known : ∀ x, (a, x) ∈ R.reservations → node ∈ x.nextNodes

/-- The first reservation of the session is at the address `a`. -/
def Resources.Heads (T a : Nat) (R : Resources) : Prop :=
  (ReservationList.addresses (ReservationList.session T R.reservations)).head? = some a

/-! ## Changes of a round -/

section Changes

variable {T a b : Nat} {node : NodeIdentifier} {R R' : Resources} {x y : Reservation} {s s' : Held}

theorem Resources.Knows.put (h : R.Knows a node)
    (hl : ReservationList.lookup R.reservations b = some x) (he : x.nextNodes <+: y.nextNodes) :
    (R.put b y).Knows a node := by
  refine ⟨h.taken, ?_⟩
  intro z (hz : (a, z) ∈ ReservationList.update R.reservations b fun _ => y)
  rcases ReservationList.mem_update hz with hz | ⟨w, hw, heq⟩
  · exact h.known z hz
  · obtain ⟨rfl, rfl⟩ := Prod.mk.inj heq
    exact he.subset (h.known x (ReservationList.lookup_mem hl))

theorem Resources.Knows.of_lookup (hv : R.Valid)
    (hl : ReservationList.lookup R.reservations a = some x) (hx : node ∈ x.nextNodes) :
    R.Knows a node := by
  refine ⟨hv.fresh _ (ReservationList.lookup_mem hl), ?_⟩
  intro y hy
  have hl' := ReservationList.lookup_of_mem hv.nodup hy
  rw [hl] at hl'
  cases hl'
  exact hx

theorem Held.Change.knows (h : s.resources.Knows a node) (hc : s.Change s') :
    s'.resources.Knows a node := by
  cases hc with
  | write hr he =>
    obtain ⟨R, p⟩ := s
    cases p with
    | null => cases hr
    | own z => exact h
    | listed b => exact h.put (Held.read_listed.mp hr) he.nextNodes
  | edit hr he => exact h.put hr he.nextNodes
  | push hr =>
    refine ⟨Nat.lt_succ_of_lt h.taken, ?_⟩
    intro x hx
    rcases List.mem_append.mp hx with hx | hx
    · exact h.known x hx
    · -- The address is a new one.
      obtain ⟨rfl, -⟩ := Prod.mk.inj (List.mem_singleton.mp hx)
      exact absurd h.taken (Nat.lt_irrefl _)

/-- A change of a round adds to a session at its end, at most. -/
theorem Held.Change.lengthens (hv : s.resources.Valid) (hc : s.Change s') :
    ReservationList.addresses (ReservationList.session T s.resources.reservations) <+:
      ReservationList.addresses (ReservationList.session T s'.resources.reservations) := by
  cases hc with
  | write hr he =>
    obtain ⟨R, p⟩ := s
    cases p with
    | null => cases hr
    | own z => exact List.prefix_rfl
    | listed b =>
      simp only [Held.write]
      rw [ReservationList.addresses_session_update hv.nodup (Held.read_listed.mp hr) he]
  | edit hr he =>
    rw [ReservationList.addresses_session_update hv.nodup hr he]
  | push hr =>
    rw [ReservationList.session, ReservationList.session, List.filter_append,
      ReservationList.addresses_append]
    exact List.prefix_append _ _

theorem Resources.Heads.lengthened (h : R.Heads T a)
    (hp : ReservationList.addresses (ReservationList.session T R.reservations) <+:
      ReservationList.addresses (ReservationList.session T R'.reservations)) : R'.Heads T a := by
  obtain ⟨rest, hrest⟩ := hp
  unfold Resources.Heads
  rw [← hrest, List.head?_append, show List.head? _ = some a from h]
  rfl

theorem Resources.Heads.put (h : R.Heads T a) (hv : R.Valid)
    (hl : ReservationList.lookup R.reservations b = some x) (he : x.Edited y) :
    (R.put b y).Heads T a := by
  refine h.lengthened ?_
  simp only [Resources.put]
  rw [ReservationList.addresses_session_update hv.nodup hl he]

theorem Resources.Heads.of_session (h : R.Heads T a)
    (hs : ReservationList.session T R'.reservations = ReservationList.session T R.reservations) :
    R'.Heads T a := by
  unfold Resources.Heads
  rw [hs]
  exact h

theorem Resources.Heads.mem (h : R.Heads T a) : ∃ x, (a, x) ∈ R.reservations ∧
    timestamp x.uuid = T := by
  obtain ⟨⟨b, x⟩, he, rfl⟩ := List.mem_map.mp (List.mem_of_head? h)
  exact ⟨x, ReservationList.mem_session.mp he⟩

/-- Taking other elements leaves the first one first. -/
theorem Resources.Heads.of_filter {p : Nat → Bool} (h : R.Heads T a) (ha : p a = true)
    (hs : ReservationList.addresses (ReservationList.session T R'.reservations) =
      (ReservationList.addresses (ReservationList.session T R.reservations)).filter p) :
    R'.Heads T a := by
  unfold Resources.Heads at h ⊢
  rw [hs]
  rcases hl : ReservationList.addresses (ReservationList.session T R.reservations)
    with _ | ⟨c, rest⟩
  · rw [hl] at h
    cases h
  · rw [hl] at h
    cases h
    rw [List.filter_cons_of_pos ha]
    rfl

/-- **A round keeps** what a reservation knows and which one is the first of a session. -/
theorem Thread.Moved.remembers {env : Env} {T₀ : Nat} {message : Message} {t t' : Thread}
    (h : t.Moved env T₀ message t') (hv : t.resources.Valid) (hk : t.resources.Knows a node) :
    t'.resources.Knows a node ∧ (t.resources.Heads T a → t'.resources.Heads T a) := by
  have hkept : t'.resources.Valid ∧ t'.resources.Knows a node ∧
      (t.resources.Heads T a → t'.resources.Heads T a) := by
    refine h.invariant (I := fun s => s.resources.Valid ∧ s.resources.Knows a node ∧
      (t.resources.Heads T a → s.resources.Heads T a)) ?_ ⟨hv, hk, id⟩
    rintro s s' hc ⟨hv, hk, hheads⟩
    cases hc with
    | held hs =>
      exact ⟨(hs.grows hv).valid, hs.knows hk, fun h => (hheads h).lengthened (hs.lengthens hv)⟩
    | self | park | shared | send | produce | point | translate | untranslate | refile =>
      exact ⟨hv, hk, hheads⟩
  exact hkept.2

/-- The first reservation of a handler's session. -/
theorem Thread.First.heads {t : Thread} (h : t.First a x) (hT : timestamp t.self.uuid = T) :
    t.resources.Heads T a := by
  obtain ⟨l₁, l₂, hl, hfront⟩ := h.split
  have hnone : l₁.filter (fun e => decide (timestamp e.2.uuid = T)) = [] := by
    rw [List.filter_eq_nil_iff]
    intro e he heq
    exact hfront e he (by rw [hT, of_decide_eq_true heq])
  have hx : decide (timestamp x.uuid = T) = true := by
    rw [h.uuid, hT]
    simp
  unfold Resources.Heads
  rw [ReservationList.session, hl, List.filter_append, hnone, List.filter_cons, if_pos hx]
  rfl

theorem Thread.First.unique {t : Thread} (h : t.First a x) (h' : t.First b y)
    (hv : t.resources.Valid) : a = b ∧ x = y := by
  have hab : some a = some b := (h.heads rfl).symm.trans (h'.heads rfl)
  cases hab
  have hl := h.lookup hv
  rw [h'.lookup hv] at hl
  cases hl
  exact ⟨rfl, rfl⟩

end Changes

/-! ## ACC -/

/--
The ACC is ignored, or there is no way to send it on, and the reservation does not know its
source from before.
-/
def Thread.Forgets (env : Env) (t : Thread) : Prop :=
  (t.self.state = .reserved ∨ (∃ x, t.found env = some x ∧ x.Cut env) ∧
    (t.translationTable.find? t.self.uuid = none → t.originSet.contains t.self.uuid = false)) ∧
  ∀ x, t.found env = some x → t.self.sourceIdentifier ∉ x.nextNodes

section Accepting

variable {env : Env} {me : HandlerId} {peers : List Handler} {t t' : Thread} {T : Nat}

/-- **An ACC that is not forgotten** is known to the first reservation of the session. -/
theorem operatorCall_acc {v : UInt8} {u : UUIDv4} (htidy : t.resources.Tidy)
    (hT : timestamp t.self.uuid = T) (hforgets : ¬t.Forgets env)
    (hrun : (operatorCall env me peers (.acc v u)).run t = (.ok (), t')) :
    ∃ a, t'.resources.Knows a t.self.sourceIdentifier ∧ t'.resources.Heads T a := by
  have hleft : ∀ (exit : Exit) (t₂ : Thread), (t₂.left exit).resources = t₂.resources := by
    rintro (_ | _ | _) t₂ <;> rfl
  rcases hf : t.resources.reservations.find?
    (fun e => isSameTimestamp env.ulid e.2.uuid t.self.uuid) with _ | ⟨a, x⟩
  · -- Without a reservation, the ACC is ignored or there is nothing to mark.
    obtain ⟨exit, t₂, hswitch, -⟩ := operatorCall_ok (loadReservation_none hf) hrun
    have hnone : t.found env = none := by
      rw [Thread.found, hf]
      rfl
    refine absurd hswitch (accBranch_null rfl fun hs => hforgets ⟨Or.inl hs, ?_⟩)
    intro x hx
    rw [hnone] at hx
    cases hx
  have hfound : t.found env = some x := by
    rw [Thread.found, hf]
    rfl
  have hmem := List.mem_of_find?_eq_some hf
  obtain ⟨exit, t₂, hswitch, rfl⟩ := operatorCall_ok (loadReservation_some htidy.valid hf) hrun
  have hfirst := Thread.First.loaded htidy.valid hf
  have hl := hfirst.lookup htidy.valid.put
  have htidy₁ : (t.resources.put a (x.setUuid t.self.uuid)).Tidy :=
    ⟨htidy.valid.put, htidy.marked.put (htidy.marked _ hmem)⟩
  rw [hleft]
  have hheads := hfirst.heads hT
  -- What is not forgotten is known from before, where the ACC is not taken.
  have hbefore : t.self.state = .reserved ∨ (∃ x, t.found env = some x ∧ x.Cut env) ∧
      (t.translationTable.find? t.self.uuid = none → t.originSet.contains t.self.uuid = false) →
      t.self.sourceIdentifier ∈ x.nextNodes := by
    intro hlost
    by_contra hnot
    refine hforgets ⟨hlost, ?_⟩
    intro y hy
    rw [hfound] at hy
    cases hy
    exact hnot
  by_cases hs : t.self.state = .reserved
  · have hs₁ : (t.loaded (t.resources.put a (x.setUuid t.self.uuid)) (.listed a)).self.state =
        .reserved := hs
    rw [messageSwitch, accBranch_repeated hs₁] at hswitch
    cases hswitch
    exact ⟨a, .of_lookup htidy₁.valid hl (hbefore (Or.inl hs)), hheads⟩
  · obtain ⟨b, y, hfirst', -, htaken⟩ :=
      accBranch_taken htidy₁ (Or.inr ⟨a, _, rfl, hfirst⟩) hs hswitch
    obtain ⟨rfl, rfl⟩ := hfirst.unique hfirst' htidy₁.valid
    rcases htaken with ⟨-, hres⟩ | ⟨hcut, htable, -, hres⟩
    · rw [hres]
      refine ⟨a,
        .of_lookup htidy₁.valid.put (ReservationList.lookup_update (f := fun _ => _) hl) ?_,
        hheads.put htidy₁.valid hl ?_⟩
      · exact List.mem_append_right _ (List.mem_singleton.mpr rfl)
      · exact ⟨rfl, rfl, rfl, rfl, List.prefix_append _ _⟩
    · rw [hres]
      refine ⟨a,
        .of_lookup htidy₁.valid.put (ReservationList.lookup_update (f := fun _ => _) hl) ?_,
        hheads.put htidy₁.valid hl (.inState _)⟩
      exact hbefore (Or.inr ⟨⟨x, hfound, hcut⟩, htable⟩)

end Accepting

/-! ## Nodes -/

/-- The handler `h` forgets the ACC. -/
def Node.Forgets (env : Env) (message : Message) (source : NodeIdentifier) (h : HandlerId)
    (n : Node) : Prop :=
  ∃ n₁, Node.Hands env message n n₁ h ∧ (n₁.startThread h message source).Forgets env

/--
The reservation at the address knows the node, and it is the first one of its session until the
handler is closed.
-/
structure Node.Remembers (h : HandlerId) (a : Nat) (node : NodeIdentifier) (n : Node) : Prop where
  lt : h < n.handlers.length
  knows : n.resources.Knows a node
  heads : (n.handler h).state ≠ .closed → n.resources.Heads (timestamp (n.handler h).uuid) a

section Nodes

variable {env : Env} {n n₁ n' : Node} {h : HandlerId} {a : Nat} {node source : NodeIdentifier}
  {message : Message}

theorem Node.Remembers.found (hr : n.Remembers h a node) (hn : n.Inv) {id : UUIDv4}
    (hf : Node.Found id n n₁) : n₁.Remembers h a node := by
  obtain ⟨u, hu, hts⟩ := hf.handler hn h
  refine ⟨by rw [hf.length]; exact hr.lt, by rw [hf.resources]; exact hr.knows, ?_⟩
  intro hs
  rw [hu] at hs ⊢
  rw [hf.resources]
  show n.resources.Heads (timestamp u) a
  rw [hts]
  exact hr.heads hs

theorem Node.Remembers.hands (hr : n.Remembers h a node) (hn : n.Inv) {i : HandlerId}
    (hh : Node.Hands env message n n₁ i) : n₁.Remembers h a node := by
  cases hh with
  | resumed hf => exact hr.found hn hf
  | created hfree =>
    refine ⟨?_, hr.knows, ?_⟩
    · simp only [Node.created, List.length_append]
      exact Nat.lt_add_right _ hr.lt
    · intro hs
      rw [Node.handler_created_lt hr.lt] at hs ⊢
      exact hr.heads hs

theorem Node.Remembers.round (hr : n.Remembers h a node) (hn : n.Inv) (hhoused : n.Housed)
    {i : HandlerId} (hh : Node.Hands env message n n₁ i) {t : Thread}
    (hrun : (operatorCall env i (n₁.accepting i message source).handlers message).run
      (n₁.startThread i message source) = (.ok (), t)) :
    (Node.putThread t i n₁).Remembers h a node := by
  have hr₁ := hr.hands hn hh
  have hn₁ := hh.inv hn
  have hmoved := hh.moved hn hrun
  obtain ⟨hconf, -⟩ := hh.confined hn hrun
  obtain ⟨hknows, hheads⟩ := hmoved.remembers (T := timestamp message.uuid) hn₁.valid hr₁.knows
  refine ⟨by rw [Node.length_putThread]; exact hr₁.lt, hknows, ?_⟩
  intro hs
  by_cases hhi : h = i
  · subst hhi
    have hopen : (n₁.handler h).state ≠ .closed := by
      intro hclosed
      have hres := hh.resumable
      rw [hclosed] at hres
      cases hres
    have hstart := hr₁.heads hopen
    rw [hh.timestamp_eq hn] at hstart
    obtain ⟨-, hfiled, -⟩ := startThread_filed hn₁ (hh.timestamp_eq hn) hrun
    rw [Node.handler_putThread_self hr₁.lt, (hfiled.moves hn₁ (hh.timestamp_eq hn)).2]
    exact hheads hstart
  · rw [Node.handler_putThread_ne hhi] at hs ⊢
    obtain ⟨j, hj⟩ := (hhoused.hands hn hh).handlers h hr₁.lt
    obtain ⟨k, hk⟩ := hh.stored
    have hne : timestamp (n₁.handler h).uuid ≠ timestamp message.uuid := by
      intro heq
      exact hhi (hn₁.eq_of_stored hj hk (heq.trans (hh.timestamp_eq hn).symm))
    rw [← hh.resources] at hconf
    exact (hr₁.heads hs).of_session (hconf.session_eq hne)

/-- A timer leaves the first reservation of a session alone, unless it closes the handler. -/
theorem Node.Remembers.fired (hr : n.Remembers h a node) (hn : n.Inv) (hhoused : n.Housed)
    {i : HandlerId} {type : TimeoutType} {r : Except Fault Unit} {t : Thread}
    (hinv : Thread.Inv (timestamp (n.handler i).uuid) (n.thread i) t)
    (ht : (n.thread i).TimedOut type r t) : (Node.putThread t i n).Remembers h a node := by
  have hsame : t.resources = n.resources → t.self.state = (n.handler i).state →
      (Node.putThread t i n).Remembers h a node := by
    intro hres hstate
    refine ⟨by rw [Node.length_putThread]; exact hr.lt, ?_, ?_⟩
    · show t.resources.Knows a node
      rw [hres]
      exact hr.knows
    · intro hs
      show t.resources.Heads _ a
      rw [hres]
      by_cases hhi : h = i
      · subst hhi
        rw [Node.handler_putThread_self hr.lt] at hs ⊢
        rw [hinv.uuid]
        exact hr.heads (by rw [← hstate]; exact hs)
      · rw [Node.handler_putThread_ne hhi] at hs ⊢
        exact hr.heads hs
  cases ht with
  | idle => exact hsame rfl rfl
  | failed => exact hsame rfl rfl
  | released hneeded hx hy hb =>
    rename_i b x y
    have hwritten : ((n.thread i).held.write y).resources.Knows a node :=
      Held.Change.knows (s := (n.thread i).held) hr.knows (.write hx (.replenish hy))
    refine ⟨by rw [Node.length_putThread]; exact hr.lt, ⟨hwritten.taken, ?_⟩, ?_⟩
    · intro z hz
      exact hwritten.known z (ReservationList.mem_eraseAt hz)
    · intro hs
      by_cases hhi : h = i
      · subst hhi
        rw [Node.handler_putThread_self hr.lt] at hs
        exact absurd rfl hs
      rw [Node.handler_putThread_ne hhi] at hs ⊢
      -- The handler whose timer fires is there, so it is of another session.
      have hi : i < n.handlers.length := by
        by_contra hge
        rw [Node.held_of_ge (not_lt.mp hge)] at hx
        cases hx
      refine (hr.heads hs).of_session (hinv.confined.session_eq fun hT => hhi ?_)
      exact hhoused.eq_of_timestamp hn hi hr.lt hT

/-- **A step keeps** what is known. -/
theorem Node.Remembers.step (hr : n.Remembers h a node) (hreach : n.Reachable) {action : Action}
    (hen : action.enabled n) (hrun : (perform env action).run n = (.ok (), n')) :
    n'.Remembers h a node := by
  have hn := Node.Reachable.inv hreach
  have hhoused := Node.Reachable.housed hreach
  have hclosed := (Node.Reachable.blocked hreach).step_closed hn hen hrun (i := h) hr.lt
  cases hn.stepped hrun with
  | dropped hf => exact hr.found hn hf
  | bid hf hk hs hrunning hb =>
    have hr₁ := hr.found hn hf
    refine ⟨by rw [Node.withBid, Node.length_modifyHandler]; exact hr₁.lt, hr₁.knows, ?_⟩
    rename_i n₁ i bid
    intro hs
    by_cases hhi : h = i
    · subst hhi
      rw [Node.withBid, Node.handler_modify_self hr₁.lt] at hs ⊢
      exact hr₁.heads hs
    · rw [Node.withBid, Node.handler_modify_ne hhi] at hs ⊢
      exact hr₁.heads hs
  | round hh hcall => exact hr.round hn hhoused hh hcall
  | woken hwake =>
    rename_i i t
    obtain ⟨hres, -, huuid, -⟩ := wake_cases hwake
    have hres : t.resources = n.resources := hres
    refine ⟨by rw [Node.length_putThread]; exact hr.lt, ?_, ?_⟩
    · show t.resources.Knows a node
      rw [hres]
      exact hr.knows
    · intro hs
      have hopen : (n.handler h).state ≠ .closed := fun hc => hs (hclosed hc).2
      have hts : ((Node.putThread t i n).handler h).uuid = (n.handler h).uuid := by
        by_cases hhi : h = i
        · subst hhi
          rw [Node.handler_putThread_self hr.lt]
          exact huuid
        · rw [Node.handler_putThread_ne hhi]
      show t.resources.Heads _ a
      rw [hres, hts]
      exact hr.heads hopen
  | fired hfire =>
    rename_i i type r t _ _
    have hexpired : (n.expire i type).Remembers h a node := ⟨hr.lt, hr.knows, hr.heads⟩
    exact hexpired.fired (hn.expire i type) ⟨hhoused.handlers, hhoused.reservations,
      hhoused.translations⟩ ((hn.expire i type).callback hfire) (onTimeout_timedOut hfire)
  | marked => exact ⟨hr.lt, hr.knows, hr.heads⟩

/-- The reservation that a REP reads. -/
theorem Node.Remembers.leftover (hr : n.Remembers h a node) (hs : (n.handler h).state ≠ .closed) :
    ∃ x, n.leftover (n.handler h).uuid = some (a, x) := by
  have hheads := hr.heads hs
  unfold Resources.Heads at hheads
  rw [ReservationList.addresses, List.head?_map, ReservationList.session,
    List.head?_filter] at hheads
  obtain ⟨⟨b, x⟩, he, rfl⟩ := Option.map_eq_some_iff.mp hheads
  exact ⟨x, he⟩

/-- An ACC that is not forgotten is known after its round. -/
theorem Node.Delivers.accepts {v : UInt8} {u : UUIDv4} (hreach : n.Reachable)
    (hdelivers : Node.Delivers env (.acc v u) source h n n')
    (hmindful : ¬n.Forgets env (.acc v u) source h) : ∃ a, n'.Remembers h a source := by
  obtain ⟨n₁, t, hh, hcall, rfl⟩ := hdelivers
  have hn := Node.Reachable.inv hreach
  have hn₁ := hh.inv hn
  have hT := hh.timestamp_eq hn
  have htidy : (n₁.startThread h (.acc v u) source).resources.Tidy :=
    ⟨hn₁.valid, show n₁.resources.Marked from hh.resources ▸ Node.Reachable.marked hreach⟩
  have hforgets : ¬(n₁.startThread h (.acc v u) source).Forgets env :=
    fun hf => hmindful ⟨n₁, hh, hf⟩
  obtain ⟨a, hknows, hheads⟩ := operatorCall_acc (t := n₁.startThread h (.acc v u) source) htidy
    (by rw [Node.startThread_uuid, hT]) hforgets hcall
  obtain ⟨-, hfiled, -⟩ := startThread_filed hn₁ hT hcall
  refine ⟨a, by rw [Node.length_putThread]; exact hh.lt hn, hknows, ?_⟩
  intro hs
  rw [Node.handler_putThread_self (hh.lt hn), (hfiled.moves hn₁ hT).2]
  exact hheads

/--
**No accepting branch is forgotten** that was taken. After an ACC that the handler does not forget
there is a reservation that has, in every later state of every run, the source among its next nodes
for as long as it exists, and that is the first of its session, to whose next nodes a REP goes,
until the handler is closed.
-/
theorem accepted_known {m m' : Node} {v : UInt8} {u : UUIDv4} (hm : m.Reachable)
    (hdelivers : Node.Delivers env (.acc v u) source h m m')
    (hmindful : ¬m.Forgets env (.acc v u) source h)
    (hacc : (perform env (.receive (.acc v u) source)).run m = (.ok (), m')) :
    ∃ a, ∀ n, ReflTransGen Node.Step m' n →
      (∀ x, (a, x) ∈ n.resources.reservations → source ∈ x.nextNodes) ∧
        ((n.handler h).state ≠ .closed → ∃ x, n.leftover (n.handler h).uuid = some (a, x)) := by
  obtain ⟨a, hstart⟩ := hdelivers.accepts hm hmindful
  have hm' : m'.Reachable := hm.tail ⟨env, .receive (.acc v u) source, trivial, hacc⟩
  refine ⟨a, fun n hrun => ?_⟩
  have hkept : n.Remembers h a source := by
    induction hrun with
    | refl => exact hstart
    | tail hrest hstep ih =>
      obtain ⟨env', action, hen, hperform⟩ := hstep
      exact ih.step (hm'.trans hrest) hen hperform
  exact ⟨hkept.knows.known, hkept.leftover⟩

theorem Thread.found_mem {t : Thread} {x : Reservation} (h : t.found env = some x) :
    ∃ a, (a, x) ∈ t.resources.reservations := by
  obtain ⟨⟨a, y⟩, he, rfl⟩ := Option.map_eq_some_iff.mp h
  exact ⟨a, List.mem_of_find?_eq_some he⟩

/-- An ACC for the only session of a node, which was forwarded from the neighbour 5. -/
theorem accepted_known_first : ∃ (m : Node) (a : Nat), (m.handler 0).state = .reserved ∧
    ∀ n, ReflTransGen Node.Step m n →
      (∀ x, (a, x) ∈ n.resources.reservations → ([6], .simulation) ∈ x.nextNodes) ∧
        ((n.handler 0).state ≠ .closed → ∃ x, n.leftover (n.handler 0).uuid = some (a, x)) := by
  let u := sampleUuid 7 0
  have hfirst :
    (performAll .sample [.receive (.ear 1 u (.sample 6)) ([5], .simulation)] .initial).any
      (fun m => m.store.find? u = some 0 ∧ (m.handler 0).running = false ∧
        (m.handler 0).state = .preReserved ∧
        m.resources.reservations.all (fun e => e.2.pastNode = ([5], .simulation)) ∧
        (performAll .sample [.receive (.acc 1 u) ([6], .simulation)] m).any
          (fun m' => (m'.handler 0).state = .reserved)) = true := by
    decide +kernel
  obtain ⟨m, hm, hall⟩ := (Option.any_eq_true _ _).mp hfirst
  obtain ⟨hk, hr, hs, hpast, hnext⟩ := of_decide_eq_true hall
  obtain ⟨m', hm', hreserved⟩ := (Option.any_eq_true _ _).mp hnext
  have hreach : m.Reachable := performAll_steps hm
  have hacc := performAll_single hm'
  have hdelivers : Node.Delivers .sample (.acc 1 u) ([6], .simulation) 0 m m' :=
    .of_stored (Node.Reachable.inv hreach) hk rfl hr (by rw [hs]; rfl) hacc
  have hmindful : ¬m.Forgets .sample (.acc 1 u) ([6], .simulation) 0 := by
    rintro ⟨n₁, hh, hlost, -⟩
    have hn := Node.Reachable.inv hreach
    have hstate : (n₁.handler 0).state = .preReserved := by
      obtain ⟨-, w, hw, -⟩ := hh.handler hn ((hn.stored u 0 hk).1)
      rw [hw]
      exact hs
    rcases hlost with hreserved' | ⟨⟨x, hx, -, b, hb, hport⟩, -⟩
    · rw [show (n₁.handler 0).state = _ from hreserved'] at hstate
      cases hstate
    · obtain ⟨a, hmem⟩ := Thread.found_mem hx
      have hmem' : (a, x) ∈ m.resources.reservations := by
        rw [← hh.resources]
        exact hmem
      have hx5 := of_decide_eq_true (List.all_eq_true.mp hpast _ hmem')
      rw [show x.pastNode = _ from hx5] at hb
      cases hb
      cases hport
  obtain ⟨a, hknown⟩ := accepted_known hreach hdelivers hmindful hacc
  exact ⟨m', a, of_decide_eq_true hreserved, hknown⟩

/--
Both winners of a tie accept. The ACC of the neighbour 7 comes second, to a RESERVED handler, and a
REP does not go to 7.
-/
theorem accepted_lost : ¬∀ (env : Env) (m m' : Node) (h : HandlerId) (v : UInt8) (u : UUIDv4)
    (source : NodeIdentifier), m.Reachable → Node.Delivers env (.acc v u) source h m m' →
    (perform env (.receive (.acc v u) source)).run m = (.ok (), m') →
    ∃ a, ∀ n, ReflTransGen Node.Step m' n →
      (∀ x, (a, x) ∈ n.resources.reservations → source ∈ x.nextNodes) ∧
        ((n.handler h).state ≠ .closed → ∃ x, n.leftover (n.handler h).uuid = some (a, x)) := by
  intro hall
  let u := sampleUuid 7 0
  have hfirst : (performAll .sample (sampleTie u ++ [.receive (.acc 1 (sampleUuid 7 1))
      ([6], .simulation)]) .initial).any (fun m => m.store.find? u = some 0 ∧
        (m.handler 0).running = false ∧ (m.handler 0).state = .reserved ∧
        (performAll .sample [.receive (.acc 1 (sampleUuid 7 2)) ([7], .simulation)] m).any
          (fun m' => (m'.handler 0).state = .reserved ∧
            m'.resources.reservations.all (fun e =>
            ([7], .simulation) ∉ e.2.nextNodes))) = true := by
    decide +kernel
  obtain ⟨m, hm, hfacts⟩ := (Option.any_eq_true _ _).mp hfirst
  obtain ⟨hk, hr, hs, hnext⟩ := of_decide_eq_true hfacts
  obtain ⟨m', hm', hfacts'⟩ := (Option.any_eq_true _ _).mp hnext
  obtain ⟨hs', hunknown⟩ := of_decide_eq_true hfacts'
  have hreach : m.Reachable := performAll_steps hm
  have hacc := performAll_single hm'
  have hdelivers : Node.Delivers .sample (.acc 1 (sampleUuid 7 2)) ([7], .simulation) 0 m m' := by
    rcases receive_handed (Node.Reachable.inv hreach) hk (by decide +kernel) rfl hr
      (by rw [hs]; rfl) hacc with ⟨hl, -, -⟩ | ⟨-, t, hh, hcall, heq⟩
    · cases hl
    · exact ⟨_, t, hh, hcall, heq⟩
  obtain ⟨a, hlater⟩ := hall _ m m' 0 _ _ _ hreach hdelivers hacc
  obtain ⟨hknown, hheads⟩ := hlater m' .refl
  obtain ⟨x, hx⟩ := hheads (by rw [hs']; nofun)
  have hmem := List.mem_of_find?_eq_some hx
  exact of_decide_eq_true (List.all_eq_true.mp hunknown _ hmem) (hknown x hmem)

end Nodes

end Rankd

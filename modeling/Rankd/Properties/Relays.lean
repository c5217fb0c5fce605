import Rankd.Node.Upstream
import Rankd.Properties.Auction

/-!
# The way back of an answer

An ACC is handed on to the past node of the reservation, which is a neighbour that an EAR of the
session was received from. A REF is handed on to the source of the handler. The process overwrites
that with the sender of every BID, ACC and REP, so a REF goes back exactly if the source is still
the past node. After an auction without bids the REF goes to the bytes of the source themselves,
which no topology is asked about (`answer_goes_back_iff`).
-/

namespace Rankd

open Infra Infra.Prog

/-- ACC and REF. -/
def Message.isAnswer : Message → Bool
  | .acc .. | .ref .. => true
  | .ear .. | .mar .. | .bid .. | .rep .. => false

/-- The past node of the reservation that a round of the session loads. -/
def Node.pastNode? (T : Nat) (n : Node) : Option NodeIdentifier :=
  (n.resources.reservations.find? fun e => timestamp e.2.uuid = T).map fun e => e.2.pastNode

/-- The target is the port of the past node, and the session's EAR was received from there. -/
def GoesBack (env : Env) (actions : List Action) (T : Nat) (n : Node) (target : Bytes) : Prop :=
  ∃ y, n.pastNode? T = some y ∧ EarFrom actions T y ∧ portOf env y = some target

/-- A round in which a handler of the session hands an answer on, or ends its auction. -/
inductive Node.Answers (env : Env) (h : HandlerId) (n n' : Node) : Nat → Action → Prop
  | acc {v : UInt8} {u : UUIDv4} {source : NodeIdentifier}
    (hd : Node.Delivers env (.acc v u) source h n n') :
    Node.Answers env h n n' (timestamp u) (.receive (.acc v u) source)
  | ref {v : UInt8} {u : UUIDv4} {source : NodeIdentifier}
    (hd : Node.Delivers env (.ref v u) source h n n') :
    Node.Answers env h n n' (timestamp u) (.receive (.ref v u) source)
  | woken (hrun : (perform env (.wake h)).run n = (.ok (), n')) :
    Node.Answers env h n n' (timestamp (n.handler h).uuid) (.wake h)

/-- The same neighbour of the simulation. -/
def SameNeighbour (y z : NodeIdentifier) : Prop :=
  y.2 = .simulation ∧ z.2 = .simulation ∧ y.1.head? = z.1.head?

/--
Which node the source of the handler has to be for the answer to go back: the past node, and where
an auction ends without bids, one that has the number of the past node's port for an address.
-/
def Action.Backward (env : Env) (h : HandlerId) (T : Nat) (n : Node) : Action → Prop
  | .receive (.ref ..) _ => ∃ y, n.pastNode? T = some y ∧
      SameNeighbour y (n.handler h).sourceIdentifier
  | .wake _ => ∃ y, n.pastNode? T = some y ∧
      portOf env y = some (n.handler h).sourceIdentifier.1
  | .receive .. | .timeout .. | .markOrigin .. => True

/-- Nodes behind one port are one node. -/
theorem portInTopology_inj {env : Env} {a b : UInt8} {port : Bytes}
    (ha : portInTopology env a = some port) (hb : portInTopology env b = some port) : a = b := by
  obtain ⟨i, hi, rfl⟩ := Option.map_eq_some_iff.mp ha
  obtain ⟨j, hj, hport⟩ := Option.map_eq_some_iff.mp hb
  obtain ⟨hi', rfl, -⟩ := List.idxOf?_eq_some_iff.mp hi
  obtain ⟨hj', rfl, -⟩ := List.idxOf?_eq_some_iff.mp hj
  have hlength : (getTopology env).length ≤ 255 := List.length_take_le _ _
  have hij : j = i := by
    have heq := congrArg UInt8.toNat (List.singleton_inj.mp hport)
    have hlt : ∀ m, m < (getTopology env).length → m < UInt8.size := by
      intro m hm
      exact (hm.trans_le hlength).trans (by decide)
    rwa [UInt8.toNat_ofNat_of_lt' (hlt _ hi'), UInt8.toNat_ofNat_of_lt' (hlt _ hj')] at heq
  subst hij
  rfl

theorem sameNeighbour_iff {env : Env} {y z : NodeIdentifier} {target : Bytes}
    (hz : portOf env z = some target) : SameNeighbour y z ↔ portOf env y = some target := by
  unfold portOf at hz ⊢
  split_ifs at hz with hkind
  obtain ⟨id, hid, hport⟩ := Option.bind_eq_some_iff.mp hz
  constructor
  · rintro ⟨hy, -, hsame⟩
    rw [if_pos hy, hsame, hid, Option.bind_some, hport]
  · intro hy
    split_ifs at hy with hy'
    obtain ⟨id', hid', hport'⟩ := Option.bind_eq_some_iff.mp hy
    exact ⟨hy', hkind, by rw [hid', hid, portInTopology_inj hport' hport]⟩

/-! ## The pointer of an ACC -/

/-- The pointer points to a reservation with the past node `y`. -/
def Held.PastAt (y : NodeIdentifier) (s : Held) : Prop :=
  ∃ a x, s.pointer = .listed a ∧ ReservationList.lookup s.resources.reservations a = some x ∧
    x.pastNode = y

section Pointers

variable {y : NodeIdentifier}

theorem deref_pastAt : Maintains (Held.PastAt y) deref := .readOnly fun _ => rfl

theorem itemAt_pastAt (a : Nat) : Maintains (Held.PastAt y) (itemAt a) :=
  .get fun _ _ => .readOnly (.require _ _)

theorem changeAt_pastAt {b : Nat} {f : Reservation → Option Reservation}
    (hf : ∀ r r', f r = some r' → r.SamePast r') : Maintains (Held.PastAt y) (changeAt b f) := by
  rintro s ⟨a, x, hp, hx, hy⟩
  unfold changeAt itemAt writeAt
  simp only [run_bind, run_get]
  rcases hl : ReservationList.lookup s.resources.reservations b with _ | r
  · trivial
  simp only [require_some, run_pure]
  rcases hr : f r with _ | r'
  · trivial
  by_cases hab : a = b
  · subst hab
    rw [hx] at hl
    cases hl
    exact ⟨a, r', hp, ReservationList.lookup_update (f := fun _ => r') hx,
      (hf x r' hr).pastNode.trans hy⟩
  · exact ⟨a, x, hp, (ReservationList.lookup_update_ne (f := fun _ => r') hab).trans hx, hy⟩

theorem changeThrough_pastAt {f : Reservation → Option Reservation}
    (hf : ∀ r r', f r = some r' → r.SamePast r') : Maintains (Held.PastAt y) (changeThrough f) := by
  rintro ⟨R, p⟩ ⟨a, x, hp, hx, hy⟩
  cases hp
  have hread : Held.read ⟨R, .listed a⟩ = .ok x := Held.read_listed.mpr hx
  unfold changeThrough writeThrough deref
  simp only [run_bind, hread]
  rcases hr : f x with _ | r'
  · exact trivial
  · simp only [require_some, run_pure, hread]
    exact ⟨a, r', rfl, ReservationList.lookup_update (f := fun _ => r') hx,
      (hf x r' hr).pastNode.trans hy⟩

theorem markLoop_pastAt (l : List Nat) (found : Bool) :
    Maintains (Held.PastAt y) (markLoop l found) := by
  induction l generalizing found with
  | nil => exact .pure _
  | cons a rest ih =>
    refine .bind deref_pastAt fun _ => .bind (itemAt_pastAt a) fun _ => .ite ?_ (ih found)
    exact .bind (changeAt_pastAt fun _ _ => .markItem) fun _ => ih true

theorem markReservation_pastAt : Maintains (Held.PastAt y) markReservation := by
  refine .get fun _ _ => .bind (markLoop_pastAt _ _) fun _ => .ite (.pure _) ?_
  exact changeThrough_pastAt fun _ _ => .reserve

end Pointers

/-! ## What a round sends -/

/-- The answers that are sent go to targets with the given property. -/
def Thread.AnswersTo (P : Bytes → Prop) (t t' : Thread) : Prop :=
  ∃ sends, t'.sendingMessages = t.sendingMessages ++ sends ∧
    ∀ e ∈ sends, e.1.isAnswer = true → P e.2.1

section Rounds

variable {env : Env} {me : HandlerId} {peers : List Handler} {t t' : Thread} {exit : Exit}
  {y : NodeIdentifier} {port : Option Bytes} {P : Bytes → Prop}

theorem Thread.AnswersTo.nothing (h : t'.sendingMessages = t.sendingMessages) :
    t.AnswersTo P t' := ⟨[], by simp [h], nofun⟩

theorem Thread.AnswersTo.single {e : Message × Bytes × IdentifierType}
    (h : t'.sendingMessages = t.sendingMessages ++ [e]) (he : P e.2.1) : t.AnswersTo P t' := by
  refine ⟨[e], h, ?_⟩
  intro e' he' _
  rw [List.mem_singleton.mp he']
  exact he

theorem Thread.AnswersTo.of_eq {t₁ : Thread} (h : t₁.AnswersTo P t')
    (ht : t₁.sendingMessages = t.sendingMessages) : t.AnswersTo P t' := by
  obtain ⟨sends, hsends, hP⟩ := h
  exact ⟨sends, hsends.trans (congrArg (· ++ sends) ht), hP⟩

/-- An empty target is refused by `sendMessage`. -/
theorem pastNodePort_value (hy : t.held.PastAt y)
    (hrun : (pastNodePort env).run t = (.ok port, t')) :
    t' = t ∧ ∀ target, port = some target → target ≠ [] → portOf env y = some target := by
  obtain ⟨a, x, hp, hx, rfl⟩ := hy
  have hread : (onReservation deref).run t = (.ok x, t) := by
    have hheld : t.held.read = .ok x := by
      unfold Held.read
      simp only [hp, hx]
    show (t.held.read, t) = _
    rw [hheld]
  rw [pastNodePort, bind_ok hread] at hrun
  split_ifs at hrun with hs
  · obtain ⟨id, t₁, hfirst, hend⟩ := bind_eq_ok.mp hrun
    obtain ⟨rfl, hid⟩ := firstByte_ok hfirst
    cases hend
    refine ⟨rfl, ?_⟩
    intro target hport _
    rw [portOf, if_pos hs, hid, Option.bind_some, hport]
  · cases hrun
    refine ⟨rfl, ?_⟩
    rintro _ ⟨⟩ hne
    exact absurd rfl hne

theorem sourcePort_value (hrun : (sourcePort env).run t = (.ok port, t')) : t' = t ∧
    ∀ target, port = some target → target ≠ [] →
      portOf env t.self.sourceIdentifier = some target := by
  rw [sourcePort, bind_ok (run_get t)] at hrun
  split_ifs at hrun with hs
  · obtain ⟨id, t₁, hfirst, hend⟩ := bind_eq_ok.mp hrun
    obtain ⟨rfl, hid⟩ := sourceFirst_ok hfirst
    cases hend
    refine ⟨rfl, ?_⟩
    intro target hport _
    rw [portOf, if_pos hs, hid, Option.bind_some, hport]
  · cases hrun
    refine ⟨rfl, ?_⟩
    rintro _ ⟨⟩ hne
    exact absurd rfl hne

theorem addNextNode_queue (node : NodeIdentifier) :
    Preserves (fun t => t.sendingMessages) (addNextNode node) := by
  refine .bind (.zoom fun _ _ => rfl) fun _ => .bind (.zoom fun _ _ => rfl) fun _ => ?_
  exact .readOnly (.ensure _ _)

theorem accRelay_answers (hy : t.held.PastAt y) (hrun : (accRelay env).run t = (.ok exit, t')) :
    t.AnswersTo (fun target => portOf env y = some target) t' := by
  rw [accRelay, bind_ok (run_get t)] at hrun
  obtain ⟨port, t₁, hport, hrun₁⟩ := bind_eq_ok.mp hrun
  obtain ⟨rfl, hvalue⟩ := pastNodePort_value hy hport
  cases port with
  | none =>
    cases hrun₁
    exact .nothing rfl
  | some target =>
    obtain ⟨⟨⟩, t₂, hsend, hrun₂⟩ := bind_eq_ok.mp hrun₁
    obtain ⟨hne, rfl⟩ := sendMessage_ok hsend
    rw [bind_ok (run_setState _)] at hrun₂
    obtain ⟨⟨⟩, t₃, hnext, hend⟩ := bind_eq_ok.mp hrun₂
    have hqueue := (addNextNode_queue _).ok hnext
    cases hend
    exact .single hqueue (hvalue target rfl hne)

/-- Only `accRelay` sends in the ACC branch. -/
theorem accBranch_answers (hy : t.held.PastAt y) (hrun : (accBranch env).run t = (.ok exit, t')) :
    t.AnswersTo (fun target => portOf env y = some target) t' := by
  rw [accBranch, bind_ok (run_get t)] at hrun
  by_cases hs : t.self.state = .reserved
  · rw [if_pos hs] at hrun
    cases hrun
    exact .nothing rfl
  rw [if_neg hs] at hrun
  obtain ⟨⟨⟩, t₁, hmark, hrun₁⟩ := bind_eq_ok.mp hrun
  obtain ⟨s, hmarked, rfl⟩ := onReservation_ok hmark
  have hy' : Held.PastAt y s := markReservation_pastAt.ok hy hmarked
  rcases ho : t.translationTable.find? t.self.uuid with _ | original
  · simp only [ho] at hrun₁
    split_ifs at hrun₁ with horigin
    · obtain ⟨⟨⟩, t₂, hresult, hrun₂⟩ := bind_eq_ok.mp hrun₁
      cases hresult
      obtain ⟨⟨⟩, t₃, hnext, hend⟩ := bind_eq_ok.mp hrun₂
      have hqueue := (addNextNode_queue _).ok hnext
      cases hend
      exact .nothing hqueue
    · exact (accRelay_answers hy' hrun₁).of_eq rfl
  · simp only [ho] at hrun₁
    obtain ⟨⟨⟩, t₂, hkey, hrun₂⟩ := bind_eq_ok.mp hrun₁
    rw [rekeyToOriginal, bind_ok (run_get _)] at hkey
    obtain ⟨⟨⟩, t₃, hensure, hkey₁⟩ := bind_eq_ok.mp hkey
    obtain ⟨rfl, -⟩ := ensure_ok hensure
    cases hkey₁
    exact (accRelay_answers hy' hrun₂).of_eq rfl

theorem refRelay_answers (hrun : (refRelay env).run t = (.ok exit, t')) :
    t.AnswersTo (fun target => portOf env t.self.sourceIdentifier = some target) t' := by
  rw [refRelay, bind_ok (run_get t)] at hrun
  obtain ⟨port, t₁, hport, hrun₁⟩ := bind_eq_ok.mp hrun
  obtain ⟨rfl, hvalue⟩ := sourcePort_value hport
  cases port with
  | none =>
    cases hrun₁
    exact .nothing rfl
  | some target =>
    obtain ⟨⟨⟩, t₂, hsend, hend⟩ := bind_eq_ok.mp hrun₁
    obtain ⟨hne, rfl⟩ := sendMessage_ok hsend
    cases hend
    exact .single rfl (hvalue target rfl hne)

theorem refBranch_answers (hrun : (refBranch env me peers).run t = (.ok exit, t')) :
    t.AnswersTo (fun target => portOf env t.self.sourceIdentifier = some target) t' := by
  rw [refBranch] at hrun
  obtain ⟨⟨⟩, t₁, herase, hrun₁⟩ := bind_eq_ok.mp hrun
  cases refErase_ok herase
  rw [refReply, bind_ok (run_get t)] at hrun₁
  rcases ho : t.translationTable.find? t.self.uuid with _ | original
  · simp only [ho] at hrun₁
    split_ifs at hrun₁ with horigin
    · cases hrun₁
      exact Thread.AnswersTo.nothing rfl
    · exact refRelay_answers hrun₁
  · simp only [ho] at hrun₁
    obtain ⟨⟨⟩, t₂, hmodify, hrun₂⟩ := bind_eq_ok.mp hrun₁
    cases hmodify
    rw [bind_ok (run_get _)] at hrun₂
    split_ifs at hrun₂ with hleft
    · exact (refRelay_answers hrun₂).of_eq rfl
    · cases hrun₂
      exact Thread.AnswersTo.nothing rfl

theorem Thread.AnswersTo.left (h : t.AnswersTo P t') (exit : Exit) :
    t.AnswersTo P (t'.left exit) := by
  cases exit <;> exact h

/-- A round for an ACC asks the past node of the first reservation of the session. -/
theorem operatorCall_acc_answers {v : UInt8} {u : UUIDv4} (hv : t.resources.Valid)
    (hrun : (operatorCall env me peers (.acc v u)).run t = (.ok (), t')) :
    t.AnswersTo (fun target => ∃ e, t.resources.reservations.find? (fun e =>
      isSameTimestamp env.ulid e.2.uuid t.self.uuid) = some e ∧
        portOf env e.2.pastNode = some target) t' := by
  rcases hf : t.resources.reservations.find? (fun e =>
    isSameTimestamp env.ulid e.2.uuid t.self.uuid) with _ | ⟨a, x⟩
  · obtain ⟨exit, t₁, hswitch, rfl⟩ := operatorCall_ok (loadReservation_none hf) hrun
    refine Thread.AnswersTo.left ?_ exit
    -- without a reservation there is nothing to mark, and nothing is sent
    by_cases hs : (t.loaded t.resources .null).self.state = .reserved
    · rw [messageSwitch, accBranch_repeated hs] at hswitch
      cases hswitch
      exact .nothing rfl
    · exact absurd hswitch (accBranch_null rfl hs)
  · obtain ⟨exit, t₁, hswitch, rfl⟩ := operatorCall_ok (loadReservation_some hv hf) hrun
    refine Thread.AnswersTo.left ?_ exit
    have hx := ReservationList.lookup_of_mem hv.nodup (List.mem_of_find?_eq_some hf)
    have hy : Held.PastAt x.pastNode
        (t.loaded (t.resources.put a (x.setUuid t.self.uuid)) (.listed a)).held :=
      ⟨a, _, rfl, ReservationList.lookup_update (f := fun _ => x.setUuid _) hx, rfl⟩
    obtain ⟨sends, hsends, hport⟩ := accBranch_answers hy hswitch
    exact ⟨sends, hsends, fun e he hanswer => ⟨(a, x), hf, hport e he hanswer⟩⟩

theorem operatorCall_ref_answers {v : UInt8} {u : UUIDv4} (hv : t.resources.Valid)
    (hrun : (operatorCall env me peers (.ref v u)).run t = (.ok (), t')) :
    t.AnswersTo (fun target => portOf env t.self.sourceIdentifier = some target) t' := by
  have hload : ∃ R p, (loadReservation env).run t = (.ok (), t.loaded R p) := by
    rcases hf : t.resources.reservations.find? (fun e =>
      isSameTimestamp env.ulid e.2.uuid t.self.uuid) with _ | ⟨a, x⟩
    · exact ⟨_, _, loadReservation_none hf⟩
    · exact ⟨_, _, loadReservation_some hv hf⟩
  obtain ⟨R, p, hload⟩ := hload
  obtain ⟨exit, t₁, hswitch, rfl⟩ := operatorCall_ok hload hrun
  exact ((refBranch_answers hswitch).of_eq rfl).left exit

/-- After an auction the winners get EARs, and without bids the source gets a REF. -/
theorem wake_answers (hrun : (wake env me).run t = (.ok (), t')) :
    t.AnswersTo (fun target => t.self.sourceIdentifier.1 = target) t' := by
  obtain ⟨exit, t₁, hend, rfl⟩ := wake_ok hrun
  refine Thread.AnswersTo.left ?_ exit
  by_cases hb : t.self.bids = []
  · obtain ⟨rfl, rfl⟩ := auctionEnd_empty (t := t.unblocked) hb hend
    exact .single rfl rfl
  · obtain ⟨sends, hsends, hall⟩ := auctionEnd_sends (t := t.unblocked) hb hend
    refine ⟨sends, hsends, ?_⟩
    intro e he hanswer
    obtain ⟨winner, -, hear⟩ := exists_addressee hall he
    have hkind := hear.ear
    rcases e with ⟨m, target⟩
    cases m with
    | ear => cases hanswer
    | mar | bid | acc | ref | rep => cases hkind

end Rounds

/-! ## Runs -/

section Runs

variable {actions : List Action} {action : Action} {env : Env} {n n₁ n' : Node} {h : HandlerId}
  {message : Message} {source y : NodeIdentifier} {T : Nat} {target : Bytes}

/-- **A past node is where the request came from.** -/
theorem Node.Trace.goesBack (hrun : Node.Trace actions n) (hy : n.pastNode? T = some y)
    (hport : portOf env y = some target) : GoesBack env actions T n target := by
  refine ⟨y, hy, ?_, hport⟩
  obtain ⟨e, he, rfl⟩ := Option.map_eq_some_iff.mp hy
  have hfound := List.find?_some he
  have hT : timestamp e.2.uuid = T := of_decide_eq_true hfound
  rcases (hrun.past 0).listed e (List.mem_of_find?_eq_some he) with hblank | hfrom
  · -- a reservation without a past node has no port to it
    rw [hblank] at hport
    cases hport
  · exact hT ▸ hfrom

/-- What a round loads is the first reservation of its session. -/
theorem Node.Hands.pastNode? (hh : Node.Hands env message n n₁ h) (source : NodeIdentifier)
    (hn : n.Inv) :
    n.pastNode? (timestamp message.uuid) =
      ((n₁.startThread h message source).resources.reservations.find? fun e =>
        isSameTimestamp env.ulid e.2.uuid (n₁.startThread h message source).self.uuid).map
          fun e => e.2.pastNode := by
  have huuid : timestamp (n₁.startThread h message source).self.uuid = timestamp message.uuid := by
    rw [Node.startThread_uuid]
    exact hh.timestamp_eq hn
  have hsame : (fun e : Nat × Reservation => isSameTimestamp env.ulid e.2.uuid
      (n₁.startThread h message source).self.uuid) =
      fun e => decide (timestamp e.2.uuid = timestamp message.uuid) := by
    funext e
    rw [Bool.eq_iff_iff, isSameTimestamp_iff, decide_eq_true_iff, huuid]
  rw [hsame, Node.pastNode?, ← hh.resources]
  rfl

theorem Node.Delivers.acc_answers {v : UInt8} {u : UUIDv4} (hn : n.Inv)
    (hd : Node.Delivers env (.acc v u) source h n n') : ∃ sends : SendingQueue,
      n'.sendingMessages = n.sendingMessages ++ sends ∧ ∀ e ∈ sends, e.1.isAnswer = true →
        ∃ y, n.pastNode? (timestamp u) = some y ∧ portOf env y = some e.2.1 := by
  obtain ⟨n₁, t, hh, hcall, rfl⟩ := hd
  have hpast := hh.pastNode? source hn
  obtain ⟨sends, hsends, hall⟩ := operatorCall_acc_answers (hh.inv hn).valid hcall
  refine ⟨sends, hsends.trans (congrArg (· ++ sends) hh.sendingMessages), ?_⟩
  intro e he hanswer
  obtain ⟨found, hf, hport⟩ := hall e he hanswer
  rw [hf] at hpast
  exact ⟨_, hpast, hport⟩

/-- A REF is the one message that leaves the source of its handler alone. -/
theorem Node.Delivers.ref_answers {v : UInt8} {u : UUIDv4} (hn : n.Inv)
    (hd : Node.Delivers env (.ref v u) source h n n') : ∃ sends : SendingQueue,
      n'.sendingMessages = n.sendingMessages ++ sends ∧ ∀ e ∈ sends, e.1.isAnswer = true →
        portOf env (n.handler h).sourceIdentifier = some e.2.1 := by
  obtain ⟨n₁, t, hh, hcall, rfl⟩ := hd
  obtain ⟨sends, hsends, hall⟩ := operatorCall_ref_answers (hh.inv hn).valid hcall
  refine ⟨sends, hsends.trans (congrArg (· ++ sends) hh.sendingMessages), ?_⟩
  have hsource : (n₁.handler h).sourceIdentifier = (n.handler h).sourceIdentifier := by
    obtain ⟨u', hu⟩ := hh.handler_at hn h
    rw [hu]
  rw [← hsource]
  exact hall

/--
**An ACC always goes back to the neighbour that the request came from.** A REF does so exactly if
the source of the handler is still that neighbour.
-/
theorem answer_goes_back_iff (hrun : Node.Trace actions n)
    (ha : Node.Answers env h n n' T action) : ∃ sends : SendingQueue,
      n'.sendingMessages = n.sendingMessages ++ sends ∧ ∀ e ∈ sends, e.1.isAnswer = true →
        (GoesBack env actions T n e.2.1 ↔ action.Backward env h T n) := by
  cases ha with
  | acc hd =>
    obtain ⟨sends, hsends, hall⟩ := hd.acc_answers hrun.inv
    refine ⟨sends, hsends, fun e he hanswer => ?_⟩
    obtain ⟨y, hy, hport⟩ := hall e he hanswer
    exact ⟨fun _ => trivial, fun _ => hrun.goesBack hy hport⟩
  | ref hd =>
    obtain ⟨sends, hsends, hall⟩ := hd.ref_answers hrun.inv
    refine ⟨sends, hsends, fun e he hanswer => ?_⟩
    have hport := hall e he hanswer
    constructor
    · rintro ⟨y, hy, -, hback⟩
      exact ⟨y, hy, (sameNeighbour_iff hport).mpr hback⟩
    · rintro ⟨y, hy, hsame⟩
      exact hrun.goesBack hy ((sameNeighbour_iff hport).mp hsame)
  | woken hwake =>
    obtain ⟨t, ht, rfl⟩ := runThread_run hwake
    obtain ⟨sends, hsends, hall⟩ := wake_answers ht
    refine ⟨sends, hsends, fun e he hanswer => ?_⟩
    have htarget := hall e he hanswer
    constructor
    · rintro ⟨y, hy, -, hback⟩
      exact ⟨y, hy, hback.trans (congrArg some htarget.symm)⟩
    · rintro ⟨y, hy, hsame⟩
      exact hrun.goesBack hy (hsame.trans (congrArg some htarget))

/-! ## A REF after the ACC of the same neighbour -/

/--
The session that an EAR of the neighbour 5 starts, forwarded to the neighbour 6 after an auction in
which only that one has bid, and accepted by it.
-/
def sampleForward : List Action := [sampleEar 1, sampleBid 0x3F800000 6, .wake 0,
  .receive (.acc 1 (sampleUuid 7 0)) ([6], .simulation)]

/-- The same session, after a REP of the neighbour 5. -/
def sampleReplenished : List Action := sampleForward ++
  [.receive (.rep 1 (sampleUuid 7 0) 0 0 (Request.sample 9).listener) ([5], .simulation)]

/-- A REF of the neighbour 6 at the end of such a run is handed on over the port. -/
theorem sampleRef (actions : List Action) (last : NodeIdentifier) (port : UInt8)
    (hfirst : (performAll .sample actions .initial).any (fun n =>
      n.store.find? (sampleUuid 7 0) = some 0 ∧ (n.handler 0).running = false ∧
        (n.handler 0).state.resumable = true ∧ (n.handler 0).sourceIdentifier = last ∧
        n.pastNode? (timestamp (sampleUuid 7 0)) = some ([5], .simulation) ∧
        ((receive .sample (.ref 1 (sampleUuid 7 0)) ([6], .simulation)).run n).1 = .ok () ∧
        ((receive .sample (.ref 1 (sampleUuid 7 0)) ([6], .simulation)).run n).2.sendingMessages =
          n.sendingMessages ++ [(newRef (sampleUuid 7 0), [port], .simulation)]) = true) :
    ∃ n n', Node.Trace actions.reverse n ∧ (n.handler 0).sourceIdentifier = last ∧
      n.pastNode? (timestamp (sampleUuid 7 0)) = some ([5], .simulation) ∧
      Node.Answers .sample 0 n n' (timestamp (sampleUuid 7 0))
        (.receive (.ref 1 (sampleUuid 7 0)) ([6], .simulation)) ∧
      n'.sendingMessages = n.sendingMessages ++
      [(newRef (sampleUuid 7 0), [port], .simulation)] := by
  obtain ⟨n, hn, hfacts⟩ := (Option.any_eq_true _ _).mp hfirst
  obtain ⟨hk, hr, hs, hlast, hpast, hok, hqueue⟩ := of_decide_eq_true hfacts
  rcases hrun : (receive .sample (.ref 1 (sampleUuid 7 0)) ([6], .simulation)).run n with ⟨r, n'⟩
  rw [hrun] at hok hqueue
  cases hok
  have htrace := performAll_trace .start hn
  rw [List.append_nil] at htrace
  exact ⟨n, n', htrace, hlast, hpast, .ref (.of_stored htrace.inv hk rfl hr hs hrun), hqueue⟩

/-- The REF of the neighbour 6 is handed on to 6 itself, which has merely sent a BID and an ACC. -/
theorem answer_to_bidder : ¬∀ (actions : List Action) (env : Env) (h : HandlerId) (n n' : Node)
    (T : Nat) (action : Action), Node.Trace actions n → Node.Answers env h n n' T action →
      ∃ sends : SendingQueue, n'.sendingMessages = n.sendingMessages ++ sends ∧
        ∀ e ∈ sends, e.1.isAnswer = true → GoesBack env actions T n e.2.1 := by
  intro hall
  obtain ⟨n, n', htrace, -, hpast, ha, hqueue⟩ :=
    sampleRef sampleForward ([6], .simulation) 1 (by decide +kernel)
  obtain ⟨sends, hsends, hback⟩ := hall _ _ _ _ _ _ _ htrace ha
  obtain rfl : sends = [(newRef (sampleUuid 7 0), [1], .simulation)] :=
    List.append_cancel_left (hsends.symm.trans hqueue)
  obtain ⟨y, hy, -, hport⟩ := hback _ List.mem_cons_self rfl
  cases hpast.symm.trans hy
  exact absurd hport (by decide)

/-- After the REP of the neighbour 5 the REF of 6 goes back to 5. -/
theorem answer_goes_back_iff_sample : ∃ n, Node.Trace sampleReplenished.reverse n ∧
    GoesBack .sample sampleReplenished.reverse (timestamp (sampleUuid 7 0)) n [0] := by
  obtain ⟨n, n', htrace, hlast, hpast, ha, hqueue⟩ :=
    sampleRef sampleReplenished ([5], .simulation) 0 (by decide +kernel)
  obtain ⟨sends, hsends, hiff⟩ := answer_goes_back_iff htrace ha
  obtain rfl : sends = [(newRef (sampleUuid 7 0), [0], .simulation)] :=
    List.append_cancel_left (hsends.symm.trans hqueue)
  refine ⟨n, htrace, (hiff _ List.mem_cons_self rfl).mpr ⟨_, hpast, rfl, ?_, ?_⟩⟩
  all_goals rw [hlast]

end Runs

end Rankd

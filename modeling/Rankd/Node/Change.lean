import Rankd.Node.ThreadSpec

/-!
# What a round of a handler is made of

The branches of the message switch, walked once more. A round that ends well is a sequence of small
changes (`Thread.Change`), and each change says what it takes from the state: a request that is sent
carries the listener of the handler's reservation, a new reservation that of the message. Elements
are edited and appended, and never removed. An invariant is then checked for one change at a time
(`Thread.Moved.invariant`).
-/

namespace Rankd

open Infra Prog Relation

/-! ## Changes of the list -/

/-- What the setters and state changers leave of a reservation. -/
structure Reservation.Edited (r r' : Reservation) : Prop where
  session : timestamp r'.uuid = timestamp r.uuid
  requirements : r'.requirements = r.requirements
  listenerLength : r'.listenerLength = r.listenerLength
  listener : r'.listener = r.listener
  nextNodes : r.nextNodes <+: r'.nextNodes

/-- A change of the list or of the reservation that the pointer owns. -/
inductive Held.Change (s : Held) : Held → Prop
  | write {r r' : Reservation} (hr : s.read = .ok r) (he : r.Edited r') :
    Held.Change s (s.write r')
  | edit {a : Nat} {r r' : Reservation}
    (hr : ReservationList.lookup s.resources.reservations a = some r) (he : r.Edited r') :
    Held.Change s { s with resources := { s.resources with
      reservations := ReservationList.update s.resources.reservations a fun _ => r' } }
  | push {r : Reservation} (hr : s.read = .ok r) :
    Held.Change s { s with resources :=
      { reservations := s.resources.reservations ++ [(s.resources.nextAddress, r.copy)]
        nextAddress := s.resources.nextAddress + 1 } }

/-- The element that `replenish_reservation` erases, after what the pointer points to was
cleared. -/
def Held.released (a : Nat) (r : Reservation) (s : Held) : Held :=
  { s.write r with resources := { (s.write r).resources with
      reservations := ReservationList.eraseAt (s.write r).resources.reservations a } }

def Held.Moved : Held → Held → Prop := ReflTransGen Held.Change

/-- Programs that are made of changes, if they end well. -/
def HeldMoves {α : Type} (p : HeldM α) : Prop :=
  ∀ s₀, Triple (Held.Moved s₀) p (fun _ => Held.Moved s₀) fun _ => True

section Edits

variable {r r' : Reservation}

theorem Reservation.Edited.setUuid {uuid : UUIDv4} (hu : timestamp uuid = timestamp r.uuid) :
    r.Edited (r.setUuid uuid) := ⟨hu, rfl, rfl, rfl, List.prefix_rfl⟩

theorem Reservation.Edited.setPriority (priority : UInt8) : r.Edited (r.setPriority priority) :=
  ⟨rfl, rfl, rfl, rfl, List.prefix_rfl⟩

theorem Reservation.Edited.updateLastBid (value : BitVec 64) :
    r.Edited (r.updateLastBid value) := ⟨rfl, rfl, rfl, rfl, List.prefix_rfl⟩

theorem Reservation.Edited.addNextNode (node : NodeIdentifier) :
    r.Edited (r.addNextNode node) := ⟨rfl, rfl, rfl, rfl, List.prefix_append _ _⟩

theorem Reservation.Edited.setPastNode (node : NodeIdentifier) :
    r.Edited (r.setPastNode node) := ⟨rfl, rfl, rfl, rfl, List.prefix_rfl⟩

theorem Reservation.Edited.inState (state : ReservationState) :
    r.Edited { r with state := state } := ⟨rfl, rfl, rfl, rfl, List.prefix_rfl⟩

theorem Reservation.Edited.reserve (h : r.reserve = some r') : r.Edited r' := by
  unfold Reservation.reserve at h
  split_ifs at h
  cases h
  exact .inState _

theorem Reservation.Edited.preReserve (h : r.preReserve = some r') : r.Edited r' := by
  unfold Reservation.preReserve at h
  split_ifs at h
  cases h
  exact .inState _

theorem Reservation.Edited.markReserved (h : r.markReserved = some r') : r.Edited r' := by
  unfold Reservation.markReserved at h
  split_ifs at h
  cases h
  exact .inState _

theorem Reservation.Edited.replenish (h : r.replenish = some r') : r.Edited r' := by
  unfold Reservation.replenish at h
  split_ifs at h
  cases h
  exact .inState _

theorem Reservation.Edited.markItem (h : markItem r = some r') : r.Edited r' := by
  unfold Rankd.markItem at h
  split_ifs at h
  · exact .markReserved h
  · exact .reserve h

end Edits

/-! ## What holds of every reservation -/

/-- The elements of the list, and the reservation that the pointer owns. -/
structure Held.All (P : Reservation → Prop) (s : Held) : Prop where
  listed : ∀ e ∈ s.resources.reservations, P e.2
  owned : ∀ r, s.pointer = .own r → P r

section All

variable {P : Reservation → Prop} {s s' : Held} {r r' : Reservation}

theorem Held.All.read (h : s.All P) (hr : s.read = .ok r) : P r := by
  obtain ⟨resources, pointer⟩ := s
  cases pointer with
  | null => cases hr
  | own x =>
    cases hr
    exact h.owned r rfl
  | listed a =>
    simp only [Held.read] at hr
    rcases hl : ReservationList.lookup resources.reservations a with _ | x
    · rw [hl] at hr
      cases hr
    · rw [hl] at hr
      cases hr
      exact h.listed _ (ReservationList.lookup_mem hl)

theorem Held.All.update (h : s.All P) {a : Nat} (hr : P r) :
    Held.All P { s with resources := { s.resources with
      reservations := ReservationList.update s.resources.reservations a fun _ => r } } := by
  refine ⟨?_, h.owned⟩
  intro e (he : e ∈ ReservationList.update s.resources.reservations a fun _ => r)
  rcases ReservationList.mem_update he with he | ⟨x, -, rfl⟩
  · exact h.listed e he
  · exact hr

theorem Held.All.write (h : s.All P) (hr : P r) : (s.write r).All P := by
  obtain ⟨resources, pointer⟩ := s
  cases pointer with
  | null => exact h
  | listed a => exact h.update hr
  | own x =>
    refine ⟨h.listed, ?_⟩
    rintro _ ⟨⟩
    exact hr

/-- What editing keeps, the changes keep. A copy is an edited reservation. -/
theorem Held.All.change (hP : ∀ {r r' : Reservation}, r.Edited r' → P r → P r') (h : s.All P)
    (hc : s.Change s') : s'.All P := by
  cases hc with
  | write hr he => exact h.write (hP he (h.read hr))
  | edit hr he => exact h.update (hP he (h.listed _ (ReservationList.lookup_mem hr)))
  | push hr =>
    rename_i r
    refine ⟨?_, h.owned⟩
    intro e he
    rcases List.mem_append.mp he with he | he
    · exact h.listed e he
    · rw [List.mem_singleton.mp he]
      exact hP (.inState _) (h.read hr)

theorem Held.All.released (h : s.All P) {a : Nat} (hr : P r) : (s.released a r).All P :=
  ⟨fun e he => (h.write hr).listed e (ReservationList.mem_eraseAt he), (h.write hr).owned⟩

end All

/-! ## Addresses -/

section Addresses

variable {s s' : Held} {a : Nat} {r r' : Reservation}

/-- Elements stay at their addresses, in their sessions. -/
structure Held.Grows (s s' : Held) : Prop where
  valid : s'.resources.Valid
  next : s.resources.nextAddress ≤ s'.resources.nextAddress
  session : ∀ b x', (b, x') ∈ s'.resources.reservations → b < s.resources.nextAddress →
    ∃ x, (b, x) ∈ s.resources.reservations ∧ timestamp x'.uuid = timestamp x.uuid

theorem Held.Grows.update (hv : s.resources.Valid)
    (hr : ReservationList.lookup s.resources.reservations a = some r) (he : r.Edited r') :
    s.Grows { s with resources := { s.resources with
      reservations := ReservationList.update s.resources.reservations a fun _ => r' } } := by
  refine ⟨⟨?_, ?_⟩, Nat.le_refl _, ?_⟩
  · rw [ReservationList.addresses_update]
    exact hv.nodup
  · intro e (hmem : e ∈ ReservationList.update s.resources.reservations a fun _ => r')
    rcases ReservationList.mem_update hmem with hmem | ⟨x, hx, rfl⟩
    · exact hv.fresh e hmem
    · exact hv.fresh (a, x) hx
  · intro b x' (hmem : (b, x') ∈ ReservationList.update s.resources.reservations a fun _ => r') _
    rcases ReservationList.mem_update hmem with hmem | ⟨x, hx, heq⟩
    · exact ⟨x', hmem, rfl⟩
    · obtain ⟨rfl, rfl⟩ := Prod.mk.inj heq
      exact ⟨r, ReservationList.lookup_mem hr, he.session⟩

theorem Held.Change.grows (hv : s.resources.Valid) (hc : s.Change s') : s.Grows s' := by
  cases hc with
  | write hr he =>
    obtain ⟨resources, pointer⟩ := s
    cases pointer with
    | null => cases hr
    | own x => exact ⟨hv, Nat.le_refl _, fun _ x' hx' _ => ⟨x', hx', rfl⟩⟩
    | listed a =>
      simp only [Held.read] at hr
      rcases hl : ReservationList.lookup resources.reservations a with _ | x
      · rw [hl] at hr
        cases hr
      · rw [hl] at hr
        cases hr
        exact .update hv hl he
  | edit hr he => exact .update hv hr he
  | push hr =>
    rename_i r
    refine ⟨hv.append r.copy, Nat.le_succ _, ?_⟩
    intro b x' hmem hlt
    rcases List.mem_append.mp hmem with hmem | hmem
    · exact ⟨x', hmem, rfl⟩
    · obtain ⟨rfl, -⟩ := Prod.mk.inj (List.mem_singleton.mp hmem)
      exact absurd hlt (Nat.lt_irrefl _)

/-- A pointer of a session stays one. -/
theorem Held.Change.pointer {T : Nat} (hv : s.resources.Valid) (hp : s.pointer.Ok T s.resources)
    (hc : s.Change s') : s'.pointer.Ok T s'.resources := by
  have hgrows := hc.grows hv
  have hlisted : ∀ {b : Nat}, ReservationPtr.Ok T s.resources (.listed b) →
      ReservationPtr.Ok T s'.resources (.listed b) := by
    rintro b ⟨hlt, hts⟩
    refine ⟨Nat.lt_of_lt_of_le hlt hgrows.next, ?_⟩
    intro x' hx'
    obtain ⟨x, hx, heq⟩ := hgrows.session b x' hx' hlt
    exact heq.trans (hts x hx)
  rcases hptr : s.pointer with _ | b | y
  · have hptr' : s'.pointer = .null := by
      cases hc with
      | write hr he => simp only [Held.read, hptr] at hr; cases hr
      | edit => exact hptr
      | push => exact hptr
    rw [hptr']
    trivial
  · have hptr' : s'.pointer = .listed b := by
      cases hc with
      | write hr he => simp only [Held.write, hptr]
      | edit => exact hptr
      | push => exact hptr
    rw [hptr']
    rw [hptr] at hp
    exact hlisted hp
  · rw [hptr] at hp
    cases hc with
    | write hr he =>
      simp only [Held.read, hptr] at hr
      cases hr
      simp only [Held.write, hptr]
      exact he.session.trans hp
    | edit => rw [hptr]; exact hp
    | push => rw [hptr]; exact hp

theorem Held.read_session {T : Nat} (hp : s.pointer.Ok T s.resources) (hr : s.read = .ok r) :
    timestamp r.uuid = T := by
  obtain ⟨resources, pointer⟩ := s
  cases pointer with
  | null => cases hr
  | own x =>
    cases hr
    exact hp
  | listed a =>
    simp only [Held.read] at hr
    rcases hl : ReservationList.lookup resources.reservations a with _ | x
    · rw [hl] at hr
      cases hr
    · rw [hl] at hr
      cases hr
      exact hp.2 r (ReservationList.lookup_mem hl)

end Addresses

/-! ## The operations -/

section Operations

variable {α β : Type}

theorem HeldMoves.bind {p : HeldM α} {f : α → HeldM β} (hp : HeldMoves p)
    (hf : ∀ a, HeldMoves (f a)) : HeldMoves (p >>= f) :=
  fun s₀ => Triple.bind (hp s₀) fun a => hf a s₀

theorem HeldMoves.pure (a : α) : HeldMoves (Pure.pure a) := fun _ => Triple.pure fun _ h => h

theorem HeldMoves.get : HeldMoves Prog.get := fun _ => Triple.get fun _ h => h

theorem HeldMoves.ite {c : Prop} [Decidable c] {p q : HeldM α} (hp : HeldMoves p)
    (hq : HeldMoves q) : HeldMoves (if c then p else q) :=
  fun s₀ => Triple.ite (fun _ => hp s₀) fun _ => hq s₀

/-- What is read is what the pointer points to. -/
theorem deref_reads (s₀ : Held) : Triple (Held.Moved s₀) deref
    (fun r s => Held.Moved s₀ s ∧ s.read = .ok r) fun _ => True := by
  intro s hs
  simp only [deref]
  rcases hr : s.read with e | r
  · trivial
  · exact ⟨hs, hr⟩

theorem deref_moves : HeldMoves deref :=
  fun s₀ => (deref_reads s₀).weaken (fun _ h => h) fun _ _ h => h.1

theorem itemAt_reads (a : Nat) (s₀ : Held) : Triple (Held.Moved s₀) (itemAt a)
    (fun r s => Held.Moved s₀ s ∧ ReservationList.lookup s.resources.reservations a = some r)
    fun _ => True := by
  intro s hs
  simp only [itemAt, run_bind, run_get]
  rcases hl : ReservationList.lookup s.resources.reservations a with _ | r
  · trivial
  · exact ⟨hs, hl⟩

theorem writeThrough_moves {f : Reservation → Reservation}
    (hf : ∀ r : Reservation, r.Edited (f r)) : HeldMoves (writeThrough f) := by
  refine fun s₀ => Triple.bind (deref_reads s₀) fun r => Triple.modify ?_
  rintro s ⟨hs, hr⟩
  exact hs.tail (.write hr (hf r))

theorem changeThrough_moves {f : Reservation → Option Reservation}
    (hf : ∀ r r', f r = some r' → r.Edited r') : HeldMoves (changeThrough f) := by
  refine fun s₀ => Triple.bind (deref_reads s₀) fun r => ?_
  refine Triple.bind (Q := fun r' s => (Held.Moved s₀ s ∧ s.read = .ok r) ∧ f r = some r')
    (Triple.require (fun r' hr' s hs => ⟨hs, hr'⟩) fun _ _ => trivial) fun r' => ?_
  -- Nothing happens between the two times the pointer is read.
  rintro s ⟨⟨hs, hr⟩, hr'⟩
  simp only [writeThrough, deref, run_bind, hr, run_modify]
  exact hs.tail (.write hr (hf r r' hr'))

theorem changeAt_moves {a : Nat} {f : Reservation → Option Reservation}
    (hf : ∀ r r', f r = some r' → r.Edited r') : HeldMoves (changeAt a f) := by
  refine fun s₀ => Triple.bind (itemAt_reads a s₀) fun r => ?_
  refine Triple.bind (Q := fun r' s => (Held.Moved s₀ s ∧
      ReservationList.lookup s.resources.reservations a = some r) ∧ f r = some r')
    (Triple.require (fun r' hr' s hs => ⟨hs, hr'⟩) fun _ _ => trivial) fun r' => Triple.modify ?_
  rintro s ⟨⟨hs, hr⟩, hr'⟩
  exact hs.tail (.edit hr (hf r r' hr'))

/-- A copy of what the pointer points to. -/
theorem pushDeref_moves : HeldMoves (do let r ← deref; pushBack r) := by
  refine fun s₀ => Triple.bind (deref_reads s₀) fun r => ?_
  rintro s ⟨hs, hr⟩
  exact hs.tail (.push hr)

theorem availableForPerformance_moves (assessment : Assessment) (priority : UInt8) :
    HeldMoves (availableForPerformance assessment priority) := by
  refine HeldMoves.bind deref_moves fun r => HeldMoves.ite (HeldMoves.pure _) ?_
  refine HeldMoves.bind (writeThrough_moves fun _ => .setPriority priority) fun _ => ?_
  refine HeldMoves.bind deref_moves fun r => ?_
  refine HeldMoves.bind (writeThrough_moves fun _ => .updateLastBid _) fun _ => ?_
  refine HeldMoves.ite (HeldMoves.pure _) fun s₀ => ?_
  refine Triple.bind (deref_reads s₀) fun r => ?_
  rintro s ⟨hs, hr⟩
  exact hs.tail (.push hr)

theorem markLoop_moves (l : List Nat) (found : Bool) : HeldMoves (markLoop l found) := by
  induction l generalizing found with
  | nil => exact HeldMoves.pure _
  | cons a rest ih =>
    refine HeldMoves.bind deref_moves fun r => ?_
    refine HeldMoves.bind (fun s₀ => (itemAt_reads a s₀).weaken (fun _ h => h) fun _ _ h => h.1)
      fun item => ?_
    refine HeldMoves.ite ?_ (ih found)
    exact HeldMoves.bind (changeAt_moves fun _ _ h => .markItem h) fun _ => ih true

theorem markReservation_moves : HeldMoves markReservation := by
  refine HeldMoves.bind HeldMoves.get fun s => HeldMoves.bind (markLoop_moves _ _) fun found => ?_
  exact HeldMoves.ite (HeldMoves.pure _) (changeThrough_moves fun _ _ h => .reserve h)

theorem markPreLoop_moves (l : List Nat) : HeldMoves (markPreLoop l) := by
  induction l with
  | nil => exact HeldMoves.pure _
  | cons a rest ih =>
    refine HeldMoves.bind deref_moves fun r => ?_
    refine HeldMoves.bind (fun s₀ => (itemAt_reads a s₀).weaken (fun _ h => h) fun _ _ h => h.1)
      fun item => ?_
    refine HeldMoves.ite ?_ ih
    exact HeldMoves.bind (changeAt_moves fun _ _ h => .preReserve h) fun _ => HeldMoves.pure _

theorem markPreReservation_moves : HeldMoves markPreReservation := by
  refine HeldMoves.bind HeldMoves.get fun s => HeldMoves.bind (markPreLoop_moves _) fun found => ?_
  cases found with
  | some a => exact HeldMoves.pure _
  | none =>
    exact HeldMoves.bind (changeThrough_moves fun _ _ h => .preReserve h) fun _ => pushDeref_moves

/-- The lookup of a reservation does not fail, and gives no pointer outside the list. -/
theorem getReservationFor_moved (ulid : Ulid) (uuid : UUIDv4) {s : Held}
    (hv : s.resources.Valid) : ∃ p s', (getReservationFor ulid uuid).run s = (.ok p, s') ∧
      Held.Moved s s' ∧ (∀ r, p ≠ .own r) ∧ p.Ok (timestamp uuid) s'.resources := by
  have hkeeps := getReservationFor_keeps s.resources ulid (rfl : timestamp uuid = _) s
    ⟨hv, Resources.Confined.refl _ _⟩
  simp only [getReservationFor, run_bind, run_get] at hkeeps ⊢
  rcases hf : s.resources.reservations.find? fun e => isSameTimestamp ulid e.2.uuid uuid
    with _ | ⟨a, r⟩
  · rw [hf] at hkeeps ⊢
    exact ⟨_, _, rfl, .refl, (by simp), hkeeps.2⟩
  · rw [hf] at hkeeps ⊢
    have hl := ReservationList.lookup_of_mem hv.nodup (List.mem_of_find?_eq_some hf)
    have hts : timestamp r.uuid = timestamp uuid := by
      have hsame := List.find?_some hf
      exact isSameTimestamp_iff.mp hsame
    by_cases he : r.uuid = uuid
    · simp only [he, if_true] at hkeeps ⊢
      exact ⟨_, _, rfl, .refl, (by simp), hkeeps.2⟩
    · simp only [he, if_false] at hkeeps ⊢
      exact ⟨_, _, rfl, .single (.edit hl (.setUuid hts.symm)), (by simp), hkeeps.2⟩

end Operations

/-! ## Changes of a thread -/

/-- The request that a message carries. -/
def Message.request? : Message → Option Request
  | .ear _ _ r | .mar _ _ r => some r
  | .bid .. | .acc .. | .ref .. | .rep .. => none

def Thread.held (t : Thread) : Held := ⟨t.resources, t.self.reservation⟩

/-- Writes back what an operation of `Resources` did. -/
def Thread.put (s : Held) (t : Thread) : Thread :=
  { t with
    resources := s.resources
    self := { t.self with reservation := s.pointer } }

/-- What a handler changes about itself without a word about it: state, flags and counters. -/
structure Handler.Same (s s' : Handler) : Prop where
  uuid : s'.uuid = s.uuid
  sourceIdentifier : s'.sourceIdentifier = s.sourceIdentifier
  acceptingNodes : s'.acceptingNodes = s.acceptingNodes
  reservation : s'.reservation = s.reservation
  auctionWait : s'.auctionWait = s.auctionWait

/-- A message that a handler sends: a request has the listener of the handler's reservation. -/
structure Thread.Emits (T : Nat) (t : Thread) (message : Message) : Prop where
  session : timestamp message.uuid = T
  listener : ∀ q, message.request? = some q → ∃ r, t.held.read = .ok r ∧ timestamp r.uuid = T ∧
    q.listenerLength = r.listenerLength ∧ q.listener = firstListenerByte r

/-- A change in a round for the given message, of a handler of the timestamp `T`. -/
inductive Thread.Change (env : Env) (T : Nat) (message : Message) (t : Thread) : Thread → Prop
  | self {s : Handler} (hs : t.self.Same s) : Thread.Change env T message t { t with self := s }
  | park {s : Handler} {v : UInt8} {u : UUIDv4} {value : BitVec 32}
    (hm : message = .bid v u value) (hstate : t.self.state = .auctionWaiting)
    (hs : t.self.Same { s with auctionWait := t.self.auctionWait }) :
    Thread.Change env T message t { t with self := s }
  | shared {timeouts : List (HandlerId × TimeoutType)} {results : List (ApiResult × UUIDv4)}
    {originSet : OrdMap UUIDv4 UInt8} :
    Thread.Change env T message t { t with
      timeouts := timeouts
      results := results
      originSet := originSet }
  | send {m : Message} {target : Bytes} {type : IdentifierType} (hm : t.Emits T m) :
    Thread.Change env T message t { t with
      sendingMessages := t.sendingMessages ++ [(m, target, type)] }
  | produce {q : Request} {capabilities : RequestingCapabilities} {address : Bytes}
    (hq : message.request? = some q)
    (hl : listenerAddress env q.listenerLength q.listener = .ok address) :
    Thread.Change env T message t { t with self := { t.self with
      reservation := .own (((Reservation.new capabilities q.priority).markListener
        address).setUuid t.self.uuid) } }
  | point {p : ReservationPtr} (hown : ∀ r, p ≠ .own r) (hp : p.Ok T t.resources) :
    Thread.Change env T message t { t with self := { t.self with reservation := p } }
  | held {s : Held} (h : Held.Change t.held s) : Thread.Change env T message t (t.put s)
  | translate {k v : UUIDv4} (hk : timestamp k = T) (hv : timestamp v = T) :
    Thread.Change env T message t { t with translationTable := t.translationTable.insertNew k v }
  | untranslate {original : UUIDv4}
    (ho : t.translationTable.find? t.self.uuid = some original) (hT : timestamp original = T) :
    Thread.Change env T message t { t with
      translationTable := t.translationTable.erase t.self.uuid
      self := { t.self with uuid := original } }
  | refile {original : UUIDv4} (ho : t.translationTable.find? t.self.uuid = some original)
    (hT : timestamp original = T) :
    Thread.Change env T message t { t with
      store := t.store.rename t.self.uuid original
      self := { t.self with uuid := original } }

def Thread.Moved (env : Env) (T : Nat) (message : Message) : Thread → Thread → Prop :=
  ReflTransGen (Thread.Change env T message)

/-- An invariant of every change is one of every round. -/
theorem Thread.Moved.invariant {env : Env} {T : Nat} {message : Message} {I : Thread → Prop}
    (hI : ∀ {t t' : Thread}, t.Change env T message t' → I t → I t') {t t' : Thread}
    (h : t.Moved env T message t') (ht : I t) : I t' := by
  induction h with
  | refl => exact ht
  | tail _ hstep ih => exact hI hstep ih

/-- Only a BID blocks its handler. -/
theorem Thread.Moved.auctionWait {env : Env} {T : Nat} {message : Message} {t t' : Thread}
    (hm : ∀ v u value, message ≠ .bid v u value) (h : t.Moved env T message t') :
    t'.self.auctionWait = t.self.auctionWait := by
  refine h.invariant (I := fun s => s.self.auctionWait = t.self.auctionWait) ?_ rfl
  intro s s' hc hs
  cases hc with
  | self hsame => exact hsame.auctionWait.trans hs
  | park hbid => exact absurd hbid (hm _ _ _)
  | shared | send | produce | point | held | translate | untranslate | refile => exact hs

/-! ## Walks -/

/-- A thread of the timestamp `T` on its way through a round that began in `t₀`. -/
structure Thread.Walk (env : Env) (T : Nat) (message : Message) (t₀ t : Thread) : Prop where
  session : timestamp t.self.uuid = T
  table : ∀ k v, t.translationTable.find? k = some v → timestamp k = timestamp v
  valid : t.resources.Valid
  pointer : t.self.reservation.Ok T t.resources
  moved : t₀.Moved env T message t

/-- Programs that are made of changes, if they end well. -/
def Walks {α : Type} (env : Env) (T : Nat) (message : Message) (p : ThreadM α) : Prop :=
  ∀ t₀, Triple (Thread.Walk env T message t₀) p (fun _ =>
  Thread.Walk env T message t₀) fun _ => True

section Rules

variable {α β : Type} {env : Env} {T : Nat} {message : Message} {t₀ t t' : Thread}

/-- A handler stays in its session. -/
theorem Thread.Change.session (hc : t.Change env T message t') (h : timestamp t.self.uuid = T) :
    timestamp t'.self.uuid = T := by
  cases hc with
  | self hs => exact (congrArg timestamp hs.uuid).trans h
  | park hm hstate hs => exact (congrArg timestamp hs.uuid).trans h
  | untranslate ho hT => exact hT
  | refile ho hT => exact hT
  | shared | send | produce | point | held | translate => exact h

theorem Thread.Change.table (hc : t.Change env T message t')
    (h : ∀ k v, t.translationTable.find? k = some v → timestamp k = timestamp v) :
    ∀ k v, t'.translationTable.find? k = some v → timestamp k = timestamp v := by
  cases hc with
  | translate hk hv =>
    intro i j hij
    rw [OrdMap.find?_insertNew] at hij
    split_ifs at hij with hi
    · rename_i k v
      rcases hold : t.translationTable.find? k with _ | w
      · rw [hold] at hij
        cases hij
        rw [hi, hk]
        exact hv.symm
      · rw [hold] at hij
        cases hij
        rw [hi]
        exact h k w hold
    · exact h i j hij
  | untranslate ho hT =>
    intro i j hij
    rw [OrdMap.find?_erase] at hij
    split_ifs at hij
    exact h i j hij
  | self | park | shared | send | produce | point | held | refile => exact h

theorem Thread.Walk.step (h : t₀.Walk env T message t) (hc : t.Change env T message t') :
    t₀.Walk env T message t' := by
  refine ⟨hc.session h.session, hc.table h.table, ?_, ?_, h.moved.tail hc⟩
  · cases hc with
    | held hs => exact (hs.grows h.valid).valid
    | self | park | shared | send | produce | point | translate | untranslate | refile =>
      exact h.valid
  · cases hc with
    | self hs =>
      rw [hs.reservation]
      exact h.pointer
    | park hm hstate hs =>
      rw [show _ = t.self.reservation from hs.reservation]
      exact h.pointer
    | produce hq hl => exact h.session
    | point hown hp => exact hp
    | held hs => exact hs.pointer h.valid h.pointer
    | shared | send | translate | untranslate | refile => exact h.pointer

theorem Walks.bind {p : ThreadM α} {f : α → ThreadM β} (hp : Walks env T message p)
    (hf : ∀ a, Walks env T message (f a)) : Walks env T message (p >>= f) :=
  fun t₀ => Triple.bind (hp t₀) fun a => hf a t₀

theorem Walks.pure (a : α) : Walks env T message (Pure.pure a) := fun _ => Triple.pure fun _ h => h

theorem Walks.readOnly {p : ThreadM α} (hp : ReadOnly p) : Walks env T message p :=
  fun _ => hp.triple.weakenFault fun _ _ => trivial

/-- What is known about the session when the state is read. -/
theorem Walks.get {f : Thread → ThreadM β}
    (hf : ∀ t, timestamp t.self.uuid = T → Walks env T message (f t)) :
    Walks env T message (Prog.get >>= f) := by
  intro t₀ t ht
  rw [bind_ok (run_get t)]
  exact hf t ht.session t₀ t ht

theorem Walks.ite {c : Prop} [Decidable c] {p q : ThreadM α} (hp : Walks env T message p)
    (hq : Walks env T message q) : Walks env T message (if c then p else q) :=
  fun t₀ => Triple.ite (fun _ => hp t₀) fun _ => hq t₀

theorem Walks.forEach {l : List α} {body : α → ThreadM Unit}
    (h : ∀ a, Walks env T message (body a)) : Walks env T message (Prog.forEach l body) :=
  fun t₀ => Triple.forEach fun a _ => h a t₀

theorem Walks.modify {f : Thread → Thread}
    (hf : ∀ t : Thread, timestamp t.self.uuid = T → t.Change env T message (f t)) :
    Walks env T message (Prog.modify f) :=
  fun _ => Triple.modify fun t ht => ht.step (hf t ht.session)

theorem Walks.modifySelf {f : Handler → Handler} (hf : ∀ s : Handler, s.Same (f s)) :
    Walks env T message (modifySelf f) := Walks.modify fun t _ => .self (hf t.self)

/-- A value that is there, as no exception was thrown. -/
theorem Walks.liftExcept {r : Except Fault α} {f : α → ThreadM β}
    (hf : ∀ a, r = .ok a → Walks env T message (f a)) :
    Walks env T message (liftExcept r >>= f) := by
  cases r with
  | ok a => exact hf a rfl
  | error e => exact fun _ _ _ => trivial

/-- The changes of an operation of `Resources` are changes of the thread. -/
theorem Thread.Walk.put {s : Held} (h : t₀.Walk env T message t) (hs : Held.Moved t.held s) :
    t₀.Walk env T message (t.put s) := by
  induction hs with
  | refl => exact h
  | tail _ hstep ih => exact ih.step (.held hstep)

/-- An operation of `Resources`, and what is known about its result. -/
theorem Walks.onReservation_value {p : HeldM α} {Q : α → Held → Prop} (hp : HeldMoves p)
    (hk : ∀ r₀, HeldKeeps T r₀ p Q) (t₀ : Thread) :
    Triple (t₀.Walk env T message) (onReservation p)
      (fun a t => t₀.Walk env T message t ∧ Q a t.held) fun _ => True := by
  intro t ht
  rcases hr : p.run t.held with ⟨r, s⟩
  have hrun : (onReservation p).run t = (r, t.put s) := run_zoom hr
  rw [hrun]
  cases r with
  | error e => trivial
  | ok a =>
    have hheld : Held.Inv T t.resources t.held :=
      ⟨⟨ht.valid, Resources.Confined.refl T t.resources⟩, ht.pointer⟩
    exact ⟨ht.put ((hp t.held).ok .refl hr), ((hk t.resources).ok hheld hr).2⟩

theorem Walks.onReservation {p : HeldM α} (hp : HeldMoves p) :
    Walks env T message (onReservation p) := by
  intro t₀ t ht
  rcases hr : p.run t.held with ⟨r, s⟩
  have hrun : (Rankd.onReservation p).run t = (r, t.put s) := run_zoom hr
  rw [hrun]
  cases r with
  | error e => trivial
  | ok a => exact ht.put ((hp t.held).ok .refl hr)

end Rules

/-! ## Statements -/

section Reading

variable {env : Env}

theorem firstByte_readOnly (bytes : Bytes) : ReadOnly (firstByte bytes) := .require _ _

theorem sourceFirst_readOnly : ReadOnly sourceFirst := .bind .get fun _ => firstByte_readOnly _

theorem nearestToSource_readOnly : ReadOnly (nearestToSource env) :=
  .bind sourceFirst_readOnly fun _ => .bind (.require _ _) fun _ => .pure _

theorem portTo_readOnly (target : UInt8) : ReadOnly (portTo env target) :=
  .bind (.require _ _) fun _ => .bind (.require _ _) fun _ => .pure _

theorem liftExcept_readOnly {α : Type} (r : Except Fault α) : ReadOnly (liftExcept r) := by
  cases r with
  | ok a => exact .pure a
  | error e => exact .fault e

theorem deref_readOnly : ReadOnly (onReservation deref) := fun _ => rfl

theorem pastNodePort_readOnly : ReadOnly (pastNodePort env) :=
  .bind deref_readOnly fun _ => .ite (.bind (firstByte_readOnly _) fun _ => .pure _) (.pure _)

theorem sourcePort_readOnly : ReadOnly (sourcePort env) :=
  .bind .get fun _ => .ite (.bind sourceFirst_readOnly fun _ => .pure _) (.pure _)

theorem checkReservation_readOnly : ReadOnly checkReservation :=
  .bind .get fun _ => .ite (.pure _) (.bind deref_readOnly fun _ => .ensure _ _)

theorem isPreReserving_readOnly (t : Thread) (handler : Handler) :
    ReadOnly (isPreReserving t handler) := by
  unfold isPreReserving
  rcases handler.reservation with _ | address | r
  · exact .pure _
  · exact .bind (.require _ _) fun _ => .pure _
  · exact .pure _

end Reading

section Statements

variable {env : Env} {T : Nat} {message : Message}

theorem setState_walks (state : HandlerState) : Walks env T message (setState state) :=
  Walks.modifySelf fun _ => ⟨rfl, rfl, rfl, rfl, rfl⟩

theorem stop_walks : Walks env T message stop := Walks.modifySelf fun _ => ⟨rfl, rfl, rfl, rfl, rfl⟩

theorem initiateTimeout_walks (me : HandlerId) (type : TimeoutType) :
    Walks env T message (initiateTimeout me type) := Walks.modify fun _ _ => .shared

theorem communicateResult_walks (code : ApiResult) (uuid : UUIDv4) :
    Walks env T message (communicateResult code uuid) := Walks.modify fun _ _ => .shared

theorem removeAsOrigin_walks (uuid : UUIDv4) : Walks env T message (removeAsOrigin uuid) :=
  Walks.modify fun _ _ => .shared

/-- Messages other than requests. -/
theorem sendMessage_walks {m : Message} (hm : timestamp m.uuid = T) (hq : m.request? = none)
    (target : Bytes) (type : IdentifierType) : Walks env T message (sendMessage m target type) := by
  refine Walks.bind (Walks.readOnly (.ensure _ _)) fun _ => Walks.modify fun t _ => .send ⟨hm, ?_⟩
  intro q hreq
  rw [hq] at hreq
  cases hreq

/-- A request that is sent while `_reservation` points to the given reservation. -/
theorem sendRequest_walks {m : Message} {q : Request} {r : Reservation} {target : Bytes}
    {type : IdentifierType} (hm : timestamp m.uuid = T) (hq : m.request? = some q)
    (hc : q.listenerLength = r.listenerLength) (hl : q.listener = firstListenerByte r)
    (t₀ : Thread) :
    Triple (fun t => t₀.Walk env T message t ∧ t.held.read = .ok r) (sendMessage m target type)
      (fun _ => t₀.Walk env T message) fun _ => True := by
  refine Triple.bind ((ReadOnly.ensure _ _).triple.weakenFault fun _ _ => trivial) fun _ =>
    Triple.modify ?_
  rintro t ⟨ht, hr⟩
  refine ht.step (.send ⟨hm, ?_⟩)
  intro q' hq'
  rw [hq] at hq'
  cases hq'
  exact ⟨r, hr, Held.read_session (s := t.held) ht.pointer hr, hc, hl⟩

theorem derefReservation_reads (t₀ : Thread) :
    Triple (t₀.Walk env T message) (onReservation deref)
      (fun r t => t₀.Walk env T message t ∧ t.held.read = .ok r) fun _ => True := by
  intro t ht
  have hrun : (onReservation deref).run t = (t.held.read, t) := rfl
  rw [hrun]
  rcases hr : t.held.read with e | r
  · trivial
  · exact ⟨ht, hr⟩

theorem setPastNode_walks (node : NodeIdentifier) : Walks env T message (setPastNode node) :=
  Walks.bind (Walks.onReservation (writeThrough_moves fun _ => .setPastNode node)) fun _ =>
    Walks.readOnly (.bind deref_readOnly fun _ => .ensure _ _)

theorem addNextNode_walks (node : NodeIdentifier) : Walks env T message (addNextNode node) :=
  Walks.bind (Walks.onReservation (writeThrough_moves fun _ => .addNextNode node)) fun _ =>
    Walks.readOnly (.bind deref_readOnly fun _ => .ensure _ _)

/-- `_reservation` becomes an element of the list that an operation has returned. -/
theorem setListed_walks {α : Type} {a : Nat} {p : ThreadM α} (hp : Walks env T message p)
    (t₀ : Thread) : Triple (fun t => t₀.Walk env T message t ∧ ListedOk T a t.held)
      (do setReservation (.listed a); p) (fun _ => t₀.Walk env T message) fun _ => True := by
  refine Triple.bind (Triple.modify (Q := fun _ => t₀.Walk env T message) ?_) fun _ => hp t₀
  rintro t ⟨ht, ha⟩
  exact ht.step (.point nofun ha)

theorem setNull_walks : Walks env T message (setReservation .null) :=
  Walks.modify fun _ _ => .point nofun trivial

theorem finish_walks (state : HandlerState) (exit : Exit) :
    Walks env T message (do setState state; stop; return exit) :=
  Walks.bind (setState_walks state) fun _ => Walks.bind stop_walks fun _ => Walks.pure _

theorem stopped_walks (exit : Exit) : Walks env T message (do stop; return exit) :=
  Walks.bind stop_walks fun _ => Walks.pure _

theorem refuseToSource_walks : Walks env T message (refuseToSource env) :=
  Walks.get fun _ hu => Walks.bind (Walks.readOnly nearestToSource_readOnly) fun _ =>
    sendMessage_walks (m := newRef _) hu rfl _ _

end Statements

/-! ## Branches -/

section Branches

variable {env : Env} {T : Nat} {message : Message}

/-- The two outcomes of `available_for_performance`. -/
theorem available_walks {α : Type} {priority : UInt8} {f : Option Nat → ThreadM α}
    (hnone : Walks env T message (f none))
    (hsome : ∀ (a : Nat) (t₀ : Thread),
      Triple (fun t => t₀.Walk env T message t ∧ ListedOk T a t.held) (f (some a))
        (fun _ => t₀.Walk env T message) fun _ => True) :
    Walks env T message
    (onReservation (availableForPerformance env.assessment priority) >>= f) := by
  intro t₀
  refine Triple.bind (Walks.onReservation_value (availableForPerformance_moves _ _)
    (fun _ => availableForPerformance_keeps _ _) t₀) fun position => ?_
  cases position with
  | none => exact (hnone t₀).weaken (fun _ ht => ht.1) fun _ _ h => h
  | some a => exact (hsome a t₀).weaken (fun _ ht => ⟨ht.1, ht.2 a rfl⟩) fun _ _ h => h

/-- `mark_pre_reservation` returns the new `_reservation`. -/
theorem markPre_walks {α : Type} {p : ThreadM α} (hp : Walks env T message p) :
    Walks env T message (do
      let reservation ← onReservation markPreReservation
      setReservation (.listed reservation)
      p) := fun t₀ =>
  Triple.bind (Walks.onReservation_value markPreReservation_moves
    (fun _ => markPreReservation_keeps) t₀) fun _ => setListed_walks hp t₀

theorem earListener_walks (r : Request) : Walks env T message (earListener env r) := by
  unfold earListener
  refine available_walks ?_ fun a t₀ => ?_
  · exact Walks.bind refuseToSource_walks fun _ => finish_walks _ _
  · refine setListed_walks ?_ t₀
    refine Walks.bind (Walks.onReservation markReservation_moves) fun _ => ?_
    refine Walks.get fun t hu => Walks.bind (Walks.readOnly nearestToSource_readOnly) fun _ => ?_
    exact Walks.bind (sendMessage_walks (m := newAcc _) hu rfl _ _) fun _ => finish_walks _ _

theorem earForward_walks (me : HandlerId) (address : Bytes) :
    Walks env T message (earForward env me address) := by
  unfold earForward
  refine Walks.bind (Walks.readOnly (firstByte_readOnly _)) fun _ => Walks.get fun t hu => ?_
  match nearestConnections (getConnectionsTo env _) with
  | [] =>
    exact Walks.bind (sendMessage_walks (m := newRef _) hu rfl _ _) fun _ => finish_walks _ _
  | [connection] =>
    refine fun t₀ => Triple.bind (derefReservation_reads t₀) fun r => ?_
    refine Triple.bind (sendRequest_walks (m := .ear _ _ (relayedRequest env r)) hu rfl rfl rfl t₀)
      fun _ => ?_
    refine Walks.bind (setState_walks _) (fun _ => ?_) t₀
    refine Walks.bind (setPastNode_walks _) fun _ => ?_
    exact Walks.bind (initiateTimeout_walks _ _) fun _ => stopped_walks _
  | _ :: _ :: _ =>
    refine Walks.bind (Walks.modifySelf fun _ => ⟨rfl, rfl, rfl, rfl, rfl⟩) fun _ => ?_
    refine Walks.bind (Walks.forEach fun intermediate => ?_) fun _ => ?_
    · refine fun t₀ => Triple.bind (derefReservation_reads t₀) fun r => ?_
      exact sendRequest_walks (m := .mar _ _ (relayedRequest env r)) hu rfl rfl rfl t₀
    refine Walks.bind (setState_walks _) fun _ => Walks.bind (setPastNode_walks _) fun _ => ?_
    exact Walks.bind (initiateTimeout_walks _ _) fun _ => stopped_walks _

/-- `_reservation` stays or becomes an element of the list. -/
theorem lastWithUuid_cases (t : Thread) : lastWithUuid t = t.self.reservation ∨
    ∃ e ∈ t.resources.reservations, e.2.uuid = t.self.uuid ∧ lastWithUuid t = .listed e.1 := by
  unfold lastWithUuid
  split
  · rename_i e he
    obtain ⟨hmem, hu⟩ := List.mem_filter.mp (List.mem_of_getLast? he)
    exact Or.inr ⟨e, hmem, of_decide_eq_true hu, rfl⟩
  · exact Or.inl rfl

theorem earRelay_walks (me : HandlerId) (peers : List Handler) (uuid : UUIDv4) (r : Request)
    (address : Bytes) : Walks env T message (earRelay env me peers uuid r address) := by
  intro t₀ t ht
  rw [earRelay, bind_ok (run_get t)]
  by_cases hb : isBidInStore me peers t uuid
  · rw [if_pos hb]
    rcases lastWithUuid_cases t with hl | ⟨e, he, hu, hl⟩
    · have hset : (setReservation (lastWithUuid t)).run t = (.ok (), t) := by
        rw [hl]
        rfl
      rw [bind_ok hset]
      exact earForward_walks me address t₀ t ht
    · rw [hl]
      refine setListed_walks (earForward_walks me address) t₀ t ⟨ht, ht.valid.fresh e he, ?_⟩
      intro x hx
      have h1 := ReservationList.lookup_of_mem ht.valid.nodup hx
      have h2 := ReservationList.lookup_of_mem ht.valid.nodup (a := e.1) (r := e.2) he
      rw [h1] at h2
      cases h2
      rw [hu]
      exact ht.session
  · rw [if_neg hb]
    refine available_walks ?_ (fun a t₀ => ?_) t₀ t ht
    · refine Walks.bind setNull_walks fun _ => ?_
      exact Walks.bind refuseToSource_walks fun _ => finish_walks _ _
    · exact (markPre_walks (earForward_walks me address) t₀).weaken (fun _ ht => ht.1)
        fun _ _ h => h

theorem startAssessing_walks : Walks env T message startAssessing :=
  Walks.get fun _ _ => Walks.ite (Walks.pure _) (setState_walks _)

/-- Between `produce_reservation` and `set_uuid`: one change, of which the second
half is missing. -/
def Thread.Built (env : Env) (T : Nat) (message : Message) (r : Request) (address : Bytes)
    (t₀ t : Thread) : Prop :=
  ∃ t₁ capabilities, t₀.Walk env T message t₁ ∧ t = { t₁ with self := { t₁.self with
    reservation := .own ((Reservation.new capabilities r.priority).markListener address) } }

theorem buildReservation_built {r : Request} {address : Bytes} (t₀ : Thread) :
    Triple (t₀.Walk env T message) (buildReservation env r address)
      (fun built t => if built then t₀.Built env T message r address t else t₀.Walk env T message t)
      fun _ => True := by
  unfold buildReservation
  rcases env.unmarshal r.payload with (_ | _) | capabilities
  · refine Triple.ite (fun _ => Triple.pure fun _ ht => ht) fun _ => ?_
    exact Triple.fault_intro fun _ _ => trivial
  · exact Triple.fault_intro fun _ _ => trivial
  · intro t ht
    exact ⟨t, capabilities, ht, rfl⟩

theorem setReservationUuid_built {r : Request} {address : Bytes} (hq : message.request? = some r)
    (hl : listenerAddress env r.listenerLength r.listener = .ok address) (t₀ : Thread) :
    Triple (t₀.Built env T message r address) setReservationUuid
      (fun _ => t₀.Walk env T message) fun _ => True := by
  rintro t ⟨t₁, capabilities, ht, rfl⟩
  exact ht.step (.produce hq hl)

/-- The reservation gets the UUID of the handler, where there is one. -/
theorem setReservationUuid_run (t : Thread) :
    (∃ e, setReservationUuid.run t = (.error e, t)) ∨
      ∃ r, t.held.read = .ok r ∧ setReservationUuid.run t =
        (.ok (), t.put (t.held.write (r.setUuid t.self.uuid))) := by
  rw [setReservationUuid, bind_ok (run_get t)]
  have hread : deref.run t.held = (t.held.read, t.held) := rfl
  rcases hr : t.held.read with e | r
  · rw [hr] at hread
    exact Or.inl ⟨e, run_zoom (bind_error hread)⟩
  · rw [hr] at hread
    exact Or.inr ⟨r, rfl, run_zoom (bind_ok hread)⟩

theorem setReservationUuid_walks : Walks env T message setReservationUuid := by
  intro t₀ t ht
  rcases setReservationUuid_run t with ⟨e, hrun⟩ | ⟨r, hr, hrun⟩
  · rw [hrun]
    trivial
  · have hts : timestamp r.uuid = T := Held.read_session (s := t.held) ht.pointer hr
    rw [hrun]
    exact ht.step (.held (.write hr (.setUuid (ht.session.trans hts.symm))))

theorem identifyReservation_walks : Walks env T message identifyReservation :=
  Walks.get fun _ _ => Walks.ite (Walks.pure _) setReservationUuid_walks

theorem identifyReservation_built {r : Request} {address : Bytes} (hq : message.request? = some r)
    (hl : listenerAddress env r.listenerLength r.listener = .ok address) (t₀ : Thread) :
    Triple (t₀.Built env T message r address) identifyReservation
      (fun _ => t₀.Walk env T message) fun _ => True := by
  intro t ht
  have hnull : ¬t.self.reservation = .null := by
    obtain ⟨t₁, capabilities, -, rfl⟩ := ht
    nofun
  rw [identifyReservation, bind_ok (run_get t), if_neg hnull]
  exact setReservationUuid_built hq hl t₀ t ht

/-- The reservation of an EAR is a new one, or the one that is held. -/
theorem earReservation_built {r : Request} {address : Bytes} (t₀ : Thread) :
    Triple (t₀.Walk env T message) (earReservation env r address)
      (fun built t => t₀.Walk env T message t ∨ built = true ∧ t₀.Built env T message r address t)
      fun _ => True := by
  refine Triple.bind (Triple.get (Q := fun _ => t₀.Walk env T message) fun _ ht => ht) fun t₁ => ?_
  refine Triple.ite (fun _ => Triple.pure fun _ ht => Or.inl ht) fun _ => ?_
  refine (buildReservation_built t₀).weaken (fun _ ht => ht) ?_
  intro built t ht
  cases built with
  | true => exact Or.inr ⟨rfl, ht⟩
  | false => exact Or.inl ht

theorem earBranch_walks {v : UInt8} {uuid : UUIDv4} {r : Request} (me : HandlerId)
    (peers : List Handler) : Walks env T (.ear v uuid r) (earBranch env me peers uuid r) := by
  refine Walks.bind startAssessing_walks fun _ => Walks.liftExcept fun address hl => ?_
  refine fun t₀ => Triple.bind (earReservation_built t₀) fun built => ?_
  have hrest : Walks env T (.ear v uuid r)
      (if iAmListener env r.listenerLength address then earListener env r
        else earRelay env me peers uuid r address) :=
    Walks.ite (earListener_walks r) (earRelay_walks me peers uuid r address)
  cases built with
  | true =>
    refine Triple.bind ?_ fun _ => hrest t₀
    rintro t (ht | ⟨-, ht⟩)
    · exact identifyReservation_walks t₀ t ht
    · exact identifyReservation_built rfl hl t₀ t ht
  | false =>
    refine (finish_walks _ _ t₀).weaken ?_ fun _ _ h => h
    rintro t (ht | ⟨h, -⟩)
    · exact ht
    · cases h

theorem marBid_walks (me : HandlerId) (r : Request) : Walks env T message (marBid env me r) := by
  unfold marBid
  refine available_walks ?_ fun a t₀ => ?_
  · refine Walks.get fun t hu => Walks.bind (Walks.readOnly sourceFirst_readOnly) fun _ => ?_
    refine Walks.bind (Walks.readOnly (portTo_readOnly _)) fun _ => ?_
    exact Walks.bind (sendMessage_walks (m := newBid _ _) hu rfl _ _) fun _ => finish_walks _ _
  · refine setListed_walks ?_ t₀
    refine Walks.bind (Walks.readOnly deref_readOnly) fun _ => Walks.get fun t hu => ?_
    refine Walks.bind (Walks.readOnly sourceFirst_readOnly) fun _ => ?_
    refine Walks.bind (Walks.readOnly (portTo_readOnly _)) fun _ => ?_
    refine Walks.bind (sendMessage_walks (m := newBid _ _) hu rfl _ _) fun _ => ?_
    refine Walks.bind (setState_walks _) fun _ => ?_
    refine Walks.bind
      (Walks.onReservation (writeThrough_moves fun _ => .updateLastBid _)) fun _ => ?_
    refine markPre_walks ?_
    exact Walks.bind (initiateTimeout_walks _ _) fun _ => stopped_walks _

theorem marBranch_walks {v : UInt8} {uuid : UUIDv4} {r : Request} (me : HandlerId) :
    Walks env T (.mar v uuid r) (marBranch env me r) := by
  refine Walks.bind (setState_walks _) fun _ => Walks.liftExcept fun address hl => ?_
  refine fun t₀ => Triple.bind (buildReservation_built t₀) fun built => ?_
  cases built with
  | true => exact Triple.bind (setReservationUuid_built rfl hl t₀) fun _ => marBid_walks me r t₀
  | false => exact finish_walks _ _ t₀

theorem bidBranch_walks {v : UInt8} {uuid : UUIDv4} {value : BitVec 32} (me : HandlerId) :
    Walks env T (.bid v uuid value) (bidBranch me value) := by
  intro t₀ t ht
  rw [bidBranch, bind_ok (run_get t)]
  by_cases hs : t.self.state = .auctionWaiting
  · rw [if_pos hs]
    have hpark := ht.step (.park (s := { t.self with
      bids := BidSet.insert t.self.bids (value, t.self.sourceIdentifier)
      arrivingBids := t.self.arrivingBids + 1
      auctionWait := true }) rfl hs ⟨rfl, rfl, rfl, rfl, rfl⟩)
    exact hpark.step .shared
  · rw [if_neg hs]
    exact finish_walks .closed .returns t₀ t ht

/-- An EAR to a winner has the listener of the reservation. -/
theorem sendAuctionEar_walks {uuid : UUIDv4} (hu : timestamp uuid = T) (winner : NodeIdentifier) :
    Walks env T message (sendAuctionEar env uuid winner) := by
  refine fun t₀ => Triple.bind (derefReservation_reads t₀) fun r => ?_
  refine Triple.bind ((firstByte_readOnly _).triple.weakenFault fun _ _ => trivial) fun first => ?_
  refine Triple.bind (sourceFirst_readOnly.triple.weakenFault fun _ _ => trivial) fun _ => ?_
  refine Triple.bind ((portTo_readOnly _).triple.weakenFault fun _ _ => trivial) fun target => ?_
  exact sendRequest_walks (m := .ear _ uuid (auctionRequest r)) hu rfl rfl rfl t₀

theorem createTranslation_walks {index : Nat} {original : UUIDv4}
    (hu : timestamp original = T) : Walks env T message (createTranslation env index original) := by
  have hnew : timestamp (translation env index original) = T := by
    rw [timestamp_translation, hu]
  exact Walks.bind (Walks.modify fun _ _ => .translate hnew hu) fun _ => Walks.pure _

theorem tieRound_walks (me : HandlerId) (winner : NodeIdentifier × Nat) :
    Walks env T message (tieRound env me winner) := by
  refine Walks.get fun t hu t₀ => ?_
  have hcreate : Triple (t₀.Walk env T message) (createTranslation env winner.2 t.self.uuid)
      (fun u s => t₀.Walk env T message s ∧ timestamp u = T) fun _ => True := by
    intro s hs
    refine ⟨createTranslation_walks hu t₀ s hs, ?_⟩
    rw [timestamp_translation, hu]
  refine Triple.bind hcreate fun u => Triple.assume fun hnew => ?_
  refine Walks.bind (sendAuctionEar_walks hnew winner.1) (fun _ => ?_) t₀
  exact Walks.bind (setState_walks _) fun _ => initiateTimeout_walks _ _

theorem auctionEnd_walks (me : HandlerId) : Walks env T message (auctionEnd env me) := by
  have htie : ∀ winners : List NodeIdentifier, Walks env T message
      (do Prog.forEach winners.zipIdx (tieRound env me); stop; return Exit.breaks) :=
    fun _ => Walks.bind (Walks.forEach fun _ => tieRound_walks me _) fun _ => stopped_walks _
  unfold auctionEnd
  refine Walks.get fun t hu => Walks.ite ?_ ?_
  · exact Walks.bind (sendMessage_walks (m := newRef _) hu rfl _ _) fun _ => finish_walks _ _
  match maxBids t.self.bids with
  | [] => exact htie []
  | [winner] =>
    refine Walks.bind (sendAuctionEar_walks hu _) fun _ => Walks.bind (setState_walks _) fun _ => ?_
    exact Walks.bind (initiateTimeout_walks _ _) fun _ => stopped_walks _
  | first :: second :: rest => exact htie (first :: second :: rest)

theorem accRelay_walks : Walks env T message (accRelay env) := by
  unfold accRelay
  refine Walks.get fun t hu => Walks.bind (Walks.readOnly pastNodePort_readOnly) fun port => ?_
  cases port with
  | none => exact stopped_walks _
  | some target =>
    refine Walks.bind (sendMessage_walks (m := newAcc _) hu rfl _ _) fun _ => ?_
    refine Walks.bind (setState_walks _) fun _ => Walks.bind (addNextNode_walks _) fun _ => ?_
    exact stopped_walks _

theorem accBranch_walks : Walks env T message (accBranch env) := by
  intro t₀ t ht
  rw [accBranch, bind_ok (run_get t)]
  by_cases hs : t.self.state = .reserved
  · rw [if_pos hs]
    exact stopped_walks .breaks t₀ t ht
  rw [if_neg hs]
  -- The table and the UUID are the same after the reservation was marked.
  rcases hr : markReservation.run t.held with ⟨r, s⟩
  have hrun : (onReservation markReservation).run t = (r, t.put s) := run_zoom hr
  cases r with
  | error e =>
    rw [bind_error hrun]
    trivial
  | ok u =>
    rw [bind_ok hrun]
    have hmarked := ht.put ((markReservation_moves t.held).ok .refl hr)
    rcases ho : t.translationTable.find? t.self.uuid with _ | original
    · refine Walks.ite ?_ accRelay_walks t₀ (t.put s) hmarked
      refine Walks.bind (communicateResult_walks _ _) fun _ => ?_
      exact Walks.bind (addNextNode_walks _) fun _ => finish_walks _ _
    · refine Triple.bind (P := fun s' => s' = t.put s) (Q := fun _ => t₀.Walk env T message) ?_
        (fun _ => accRelay_walks t₀) _ rfl
      rintro _ rfl
      rw [rekeyToOriginal, bind_ok (run_get _)]
      refine Triple.bind ((ReadOnly.ensure _ _).triple.weakenFault fun _ _ => trivial)
        (fun _ => Triple.modify ?_) _ (rfl : t.put s = t.put s)
      rintro _ rfl
      exact hmarked.step (.refile ho ((ht.table _ _ ho).symm.trans ht.session))

theorem refErase_walks (me : HandlerId) (peers : List Handler) :
    Walks env T message (refErase me peers) := fun _ => Maintains.of_ok refErase_ok

theorem refRelay_walks : Walks env T message (refRelay env) := by
  unfold refRelay
  refine Walks.get fun t hu => Walks.bind (Walks.readOnly sourcePort_readOnly) fun port => ?_
  cases port with
  | none => exact stopped_walks _
  | some target =>
    exact Walks.bind (sendMessage_walks (m := newRef _) hu rfl _ _) fun _ => finish_walks _ _

theorem refReply_walks : Walks env T message (refReply env) := by
  intro t₀ t ht
  rw [refReply, bind_ok (run_get t)]
  rcases ho : t.translationTable.find? t.self.uuid with _ | original
  · refine Walks.ite ?_ refRelay_walks t₀ t ht
    refine Walks.bind (communicateResult_walks _ _) fun _ => ?_
    exact Walks.bind (removeAsOrigin_walks _) fun _ => finish_walks _ _
  · exact Walks.get (fun _ _ => Walks.ite refRelay_walks (finish_walks _ _)) t₀ _
      (ht.step (.untranslate ho ((ht.table _ _ ho).symm.trans ht.session)))

theorem repForward_walks (me : HandlerId) : Walks env T message (repForward env me) := by
  refine Walks.get fun t hu => Walks.bind (Walks.readOnly deref_readOnly) fun reservation => ?_
  refine Walks.bind (Walks.forEach fun direction => ?_) fun _ => ?_
  · refine Walks.bind (Walks.readOnly (firstByte_readOnly _)) fun _ => ?_
    refine Walks.bind (Walks.readOnly sourceFirst_readOnly) fun _ => ?_
    refine Walks.bind (Walks.readOnly (portTo_readOnly _)) fun _ => ?_
    exact sendMessage_walks (m := .rep ..) hu rfl _ _
  · exact Walks.bind (initiateTimeout_walks _ _) fun _ => stopped_walks _

theorem repBranch_walks (me : HandlerId) (listenerLength : UInt8) (listener : ListenerArray) :
    Walks env T message (repBranch env me listenerLength listener) := by
  refine Walks.bind (setState_walks _) fun _ => Walks.liftExcept fun address _ => ?_
  refine Walks.get fun t hu => ?_
  refine Walks.ite ?_ (Walks.ite (repForward_walks me) (finish_walks _ _))
  refine Walks.bind (Walks.readOnly sourceFirst_readOnly) fun _ => ?_
  refine Walks.bind (Walks.readOnly (portTo_readOnly _)) fun _ => ?_
  exact Walks.bind (sendMessage_walks (m := newRef _) hu rfl _ _) fun _ => finish_walks _ _

theorem messageSwitch_walks (me : HandlerId) (peers : List Handler) (message : Message) :
    Walks env T message (messageSwitch env me peers message) := by
  cases message with
  | ear v u r => exact earBranch_walks me peers
  | mar v u r => exact marBranch_walks me
  | bid v u value => exact bidBranch_walks me
  | acc v u => exact accBranch_walks
  | ref v u => exact Walks.bind (refErase_walks me peers) fun _ => refReply_walks
  | rep v u length reserved listener => exact repBranch_walks me length listener

theorem leaveSwitch_walks (exit : Exit) : Walks env T message (leaveSwitch exit) := by
  cases exit with
  | breaks =>
    exact Walks.modifySelf (f := fun s => { s with message := none })
      fun _ => ⟨rfl, rfl, rfl, rfl, rfl⟩
  | returns => exact Walks.pure _
  | waits => exact Walks.pure _

/-- **A round that ends well is made of changes.** -/
theorem operatorCall_moved {me : HandlerId} {peers : List Handler} {t t' : Thread}
    (hT : timestamp t.self.uuid = T)
    (htable : ∀ k v, t.translationTable.find? k = some v → timestamp k = timestamp v)
    (hv : t.resources.Valid) (hp : t.self.reservation.Ok T t.resources)
    (hrun : (operatorCall env me peers message).run t = (.ok (), t')) :
    t.Moved env T message t' := by
  have hstart : t.Walk env T message t := ⟨hT, htable, hv, hp, .refl⟩
  obtain ⟨p, s, hget, hmoved, hown, hok⟩ :=
    getReservationFor_moved env.ulid t.self.uuid (s := t.held) hv
  have hload : (loadReservation env).run t =
      (.ok (), { t.put s with self := { (t.put s).self with reservation := p } }) := by
    have honce : (onReservation (getReservationFor env.ulid t.self.uuid)).run t =
        (.ok p, t.put s) := run_zoom hget
    rw [loadReservation, bind_ok (run_get t), bind_ok honce]
    rfl
  rw [hT] at hok
  have hloaded := (hstart.put hmoved).step (.point hown hok)
  rw [operatorCall, bind_ok hload] at hrun
  have hrest : Walks env T message (do
      checkReservation
      let exit ← messageSwitch env me peers message
      leaveSwitch exit) :=
    Walks.bind (Walks.readOnly checkReservation_readOnly) fun _ =>
      Walks.bind (messageSwitch_walks me peers message) fun exit => leaveSwitch_walks exit
  exact ((hrest t).ok hloaded hrun).moved

/-- A thread that goes on after its auction. -/
def Thread.unblocked (t : Thread) : Thread :=
    { t with self := { t.self with auctionWait := false } }

/-- The rest of a round after its auction. -/
theorem wake_moved {me : HandlerId} {t t' : Thread} (hT : timestamp t.self.uuid = T)
    (htable : ∀ k v, t.translationTable.find? k = some v → timestamp k = timestamp v)
    (hv : t.resources.Valid) (hp : t.self.reservation.Ok T t.resources)
    (hrun : (wake env me).run t = (.ok (), t')) : t.unblocked.Moved env T message t' := by
  have hunblock : (modifySelf fun s => { s with auctionWait := false }).run t =
      (.ok (), t.unblocked) := rfl
  rw [wake, bind_ok hunblock] at hrun
  have hrest : Walks env T message (do let exit ← auctionEnd env me; leaveSwitch exit) :=
    Walks.bind (auctionEnd_walks me) leaveSwitch_walks
  have hstart : t.unblocked.Walk env T message t.unblocked := ⟨hT, htable, hv, hp, .refl⟩
  exact ((hrest t.unblocked).ok hstart hrun).moved

end Branches

/-! ## Timeouts -/

/-- The condition under which the callback of a timer gives the reservation back. -/
def TimeoutType.needed (s : Handler) : TimeoutType → Bool
  | .ear | .mar | .bid => rollbackNeeded s
  | .auct => false
  | .rep => s.state ≠ .closed || (s.message.isNone && s.state = .replenishing)

/-- The bids that are left where a callback gives the reservation back. -/
def TimeoutType.bids (s : Handler) : TimeoutType → BidSet
  | .ear | .mar | .bid => []
  | .auct | .rep => s.bids

/-- What the callback of a timer does, and how it ends. -/
inductive Thread.TimedOut (type : TimeoutType) (t : Thread) : Except Fault Unit → Thread → Prop
  | idle (hn : type.needed t.self = false) : Thread.TimedOut type t (.ok ()) t
  | failed {e : Fault} (hn : type.needed t.self = true)
    (he : replenishReservation.run t.held = (.error e, t.held)) :
    Thread.TimedOut type t (.error e) { t with self := { t.self with bids := type.bids t.self } }
  | released {a : Nat} {x y : Reservation} (hn : type.needed t.self = true)
    (hx : t.held.read = .ok x) (hy : x.replenish = some y)
    (ha : findEqual t.resources.reservations x = some a) :
    Thread.TimedOut type t (.ok ()) { t.put (t.held.released a y) with
      self := { (t.put (t.held.released a y)).self with
        bids := type.bids t.self
        state := .closed } }

section Timeouts

variable {t t' : Thread} {r : Except Fault Unit}

/-- `replenish_reservation` does all of its work or none. -/
theorem replenishReservation_cases {s s' : Held} (hrun : replenishReservation.run s = (r, s')) :
    (∃ e, r = .error e ∧ s' = s) ∨ ∃ a x y, r = .ok () ∧ s.read = .ok x ∧ x.replenish = some y ∧
      findEqual s.resources.reservations x = some a ∧ s' = s.released a y := by
  rw [replenishReservation, bind_ok (run_get s)] at hrun
  split_ifs at hrun with hempty
  · cases hrun
    exact Or.inl ⟨_, rfl, rfl⟩
  have hread : deref.run s = (s.read, s) := rfl
  rcases hx : s.read with e | x
  · rw [hx] at hread
    rw [bind_error hread] at hrun
    cases hrun
    exact Or.inl ⟨_, rfl, rfl⟩
  rw [hx] at hread
  rw [bind_ok hread] at hrun
  rcases ha : findEqual s.resources.reservations x with _ | a
  · simp only [ha] at hrun
    cases hrun
    exact Or.inl ⟨_, rfl, rfl⟩
  simp only [ha, changeThrough, run_bind, hread] at hrun
  rcases hy : x.replenish with _ | y
  · simp only [hy, require_none, run_fault] at hrun
    cases hrun
    exact Or.inl ⟨_, rfl, rfl⟩
  simp only [hy, require_some, run_pure, writeThrough, run_bind, hread, run_modify] at hrun
  cases hrun
  exact Or.inr ⟨a, x, y, rfl, rfl, hy, ha, rfl⟩

theorem replenishAndClose_timedOut {type : TimeoutType} (hn : type.needed t.self = true)
    (hrun : (do onReservation replenishReservation; setState .closed : ThreadM Unit).run
      { t with self := { t.self with bids := type.bids t.self } } = (r, t')) :
    t.TimedOut type r t' := by
  rcases hr : replenishReservation.run t.held with ⟨r', s⟩
  have honce : (onReservation replenishReservation).run
      { t with self := { t.self with bids := type.bids t.self } } =
      (r', { t.put s with self := { (t.put s).self with bids := type.bids t.self } }) := run_zoom hr
  rcases replenishReservation_cases hr with ⟨e, rfl, rfl⟩ | ⟨a, x, y, rfl, hx, hy, ha, rfl⟩
  · rw [bind_error honce] at hrun
    cases hrun
    exact .failed hn hr
  · rw [bind_ok honce] at hrun
    cases hrun
    exact .released hn hx hy ha

/-- **What the callback of a timer does**, whether or not it faults. -/
theorem onTimeout_timedOut {type : TimeoutType} (hrun : (onTimeout type).run t = (r, t')) :
    t.TimedOut type r t' := by
  have hrollback : rollback.run t = (r, t') → (∀ s, type.needed s = rollbackNeeded s) →
      (∀ s, type.bids s = []) → t.TimedOut type r t' := by
    intro hrun hneeded hbids
    rw [rollback, bind_ok (run_get t)] at hrun
    by_cases hn : rollbackNeeded t.self = true
    · rw [if_pos hn] at hrun
      refine replenishAndClose_timedOut ((hneeded t.self).trans hn) ?_
      rw [hbids]
      exact hrun
    · rw [if_neg hn] at hrun
      cases hrun
      exact .idle (by rw [hneeded, ← Bool.not_eq_true]; exact hn)
  cases type with
  | ear => exact hrollback hrun (fun _ => rfl) fun _ => rfl
  | mar => exact hrollback hrun (fun _ => rfl) fun _ => rfl
  | bid => exact hrollback hrun (fun _ => rfl) fun _ => rfl
  | auct =>
    cases hrun
    exact .idle rfl
  | rep =>
    rw [onTimeout, onRepTimeout, bind_ok (run_get t)] at hrun
    split_ifs at hrun with hn
    · exact replenishAndClose_timedOut hn hrun
    · cases hrun
      exact .idle (Bool.not_eq_true _ ▸ hn)

end Timeouts

end Rankd

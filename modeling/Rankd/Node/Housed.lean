import Rankd.Node.Session
import Rankd.Node.Steps

/-!
# Handlers are in the store for good

No branch that ends takes a handler out of the store: lookups and an ACC rename a key within its
session, and a REF that erases one goes no further. So everything that a node holds belongs to a
session of its store: the handlers, the reservations of the list and the translations.

* `Node.Housed.step`, `Node.Reachable.housed`: so it does in every reachable state
* `Node.Housed.eq_of_timestamp`: a session has one handler
-/

namespace Rankd

open Infra Prog

/-- A key of the store has the timestamp. -/
def Store.Houses (s : Store) (T : Nat) : Prop := ∃ k ∈ s.keys, timestamp k = T

/-- The handlers of `s` are in `s'`, in their sessions. -/
def Store.Keeps (s s' : Store) : Prop :=
  ∀ k h, s.find? k = some h → ∃ j, s'.find? j = some h ∧ timestamp j = timestamp k

/-- Everything that the node holds belongs to a session of its store. -/
structure Node.Housed (n : Node) : Prop where
  handlers : ∀ h < n.handlers.length, ∃ k, n.store.find? k = some h
  reservations : ∀ e ∈ n.resources.reservations, Store.Houses n.store (timestamp e.2.uuid)
  translations : ∀ k v, n.translationTable.find? k = some v → Store.Houses n.store (timestamp k)

/-! ## What stays in a store -/

section Stores

variable {s s' s'' : Store} {T : Nat} {k k' : UUIDv4}

theorem Store.Keeps.refl : s.Keeps s := fun k _ hk => ⟨k, hk, rfl⟩

theorem Store.Keeps.trans (h : s.Keeps s') (h' : s'.Keeps s'') : s.Keeps s'' := by
  intro k i hk
  obtain ⟨j, hj, hts⟩ := h k i hk
  obtain ⟨l, hl, hts'⟩ := h' j i hj
  exact ⟨l, hl, hts'.trans hts⟩

theorem Store.Keeps.houses (hk : s.Keeps s') (h : s.Houses T) : s'.Houses T := by
  obtain ⟨k, hmem, rfl⟩ := h
  obtain ⟨i, hi⟩ := OrdMap.mem_keys.mp hmem
  obtain ⟨j, hj, hts⟩ := hk k i hi
  exact ⟨j, OrdMap.mem_keys.mpr ⟨i, hj⟩, hts⟩

theorem Store.Renames.keeps (hr : Store.Renames T s s') : s.Keeps s' := fun _ _ =>
    hr.find?_of_eq_some

/-- Moving a handler to another key of its session. -/
theorem Store.Unique.rename (hu : s.Unique) (hts : timestamp k' = timestamp k) :
    Store.Renames (timestamp k) s (s.rename k k') := by
  rcases hk : s.find? k with _ | i
  · refine Or.inl ?_
    rw [OrdMap.rename, hk]
  refine hu.renames hk hts (OrdMap.find?_rename hk ?_)
  by_contra hnot
  obtain ⟨hne, hsome⟩ := not_or.mp hnot
  obtain ⟨j, hj⟩ := Option.ne_none_iff_exists'.mp hsome
  exact hne (hu k' (OrdMap.mem_keys.mpr ⟨j, hj⟩) k (OrdMap.mem_keys.mpr ⟨i, hk⟩) hts)

theorem Store.Keeps.assign {i : HandlerId} (hfree : ∀ j ∈ s.keys, timestamp j ≠ timestamp k) :
    s.Keeps (s.assign k i) := by
  intro j h hj
  refine ⟨j, ?_, rfl⟩
  rw [OrdMap.find?_assign, if_neg ?_, hj]
  rintro rfl
  exact hfree j (OrdMap.mem_keys.mpr ⟨h, hj⟩) rfl

end Stores

section Nodes

variable {env : Env} {n n₁ n' : Node} {h i : HandlerId} {message : Message} {T : Nat}
  {t t' : Thread}
  {action : Action}

theorem Node.Hands.keeps (hh : Node.Hands env message n n₁ h) (hn : n.Inv) :
    Store.Keeps n.store n₁.store := by
  cases hh with
  | resumed hf => exact (hf.renames hn).keeps
  | created hfree => exact .assign hfree

/-- What a round that ends well leaves of the store and of the translations. -/
structure Thread.Filing (T : Nat) (t₀ t : Thread) : Prop where
  unique : Store.Unique t.store
  keeps : Store.Keeps t₀.store t.store
  session : timestamp t.self.uuid = T
  table : ∀ k v, t.translationTable.find? k = some v →
    t₀.translationTable.find? k = some v ∨ timestamp k = T

theorem Thread.Moved.filing (hu : Store.Unique t.store) (hT : timestamp t.self.uuid = T)
    (hm : t.Moved env T message t') : t.Filing T t' := by
  refine hm.invariant (I := t.Filing T) ?_ ⟨hu, .refl, hT, fun _ _ h => Or.inl h⟩
  rintro s s' hc hs
  cases hc with
  | self hsame => exact ⟨hs.unique, hs.keeps, hsame.uuid ▸ hs.session, hs.table⟩
  | park hm hstate hsame => exact ⟨hs.unique, hs.keeps, hsame.uuid ▸ hs.session, hs.table⟩
  | shared | send | produce | point | held => exact ⟨hs.unique, hs.keeps, hs.session, hs.table⟩
  | translate hk hv =>
    refine ⟨hs.unique, hs.keeps, hs.session, ?_⟩
    intro k v hkv
    rw [OrdMap.find?_insertNew] at hkv
    split_ifs at hkv with hkey
    · exact Or.inr (hkey ▸ hk)
    · exact hs.table k v hkv
  | untranslate ho hT =>
    refine ⟨hs.unique, hs.keeps, hT, ?_⟩
    intro k v hkv
    rw [OrdMap.find?_erase] at hkv
    split_ifs at hkv
    exact hs.table k v hkv
  | refile ho hT =>
    have hrenames := hs.unique.rename (hT.trans hs.session.symm)
    exact ⟨hrenames.unique hs.unique, hs.keeps.trans hrenames.keeps, hT, hs.table⟩

/-- The node after a thread of a session of its store. -/
theorem Node.Housed.putThread (hn : n.Housed) (hstored : Store.Houses n.store T)
    (hconf : Resources.Confined T n.resources t.resources) (hkeeps : Store.Keeps n.store t.store)
    (htable : ∀ k v, t.translationTable.find? k = some v →
      n.translationTable.find? k = some v ∨ timestamp k = T) : (Node.putThread t h n).Housed where
  handlers := by
    intro i hi
    rw [Node.length_putThread] at hi
    obtain ⟨k, hk⟩ := hn.handlers i hi
    obtain ⟨j, hj, -⟩ := hkeeps k i hk
    exact ⟨j, hj⟩
  reservations := by
    intro e he
    refine hkeeps.houses ?_
    by_cases heT : timestamp e.2.uuid = T
    · rw [heT]
      exact hstored
    · refine hn.reservations e (List.mem_of_mem_filter (p := (timestamp ·.2.uuid ≠ T)) ?_)
      show e ∈ ReservationList.others T n.resources.reservations
      rw [← hconf.others]
      exact List.mem_filter.mpr ⟨he, by simpa using heT⟩
  translations := by
    intro k v hkv
    refine hkeeps.houses ?_
    rcases htable k v hkv with hold | hts
    · exact hn.translations k v hold
    · rw [hts]
      exact hstored

theorem Node.Housed.initial : Node.initial.Housed where
  handlers _ hlt := absurd hlt (Nat.not_lt_zero _)
  reservations _ he := absurd he List.not_mem_nil
  translations _ _ hkv := nomatch hkv

theorem Node.Housed.found {id : UUIDv4} (hh : n.Housed) (hn : n.Inv) (hf : Node.Found id n n₁) :
    n₁.Housed where
  handlers := by
    intro i hi
    rw [hf.length] at hi
    obtain ⟨k, hk⟩ := hh.handlers i hi
    obtain ⟨j, hj, -⟩ := (hf.renames hn).keeps k i hk
    exact ⟨j, hj⟩
  reservations := by
    intro e he
    rw [hf.resources] at he
    exact (hf.renames hn).keeps.houses (hh.reservations e he)
  translations := by
    intro k v hkv
    rw [hf.translationTable] at hkv
    exact (hf.renames hn).keeps.houses (hh.translations k v hkv)

theorem Node.Housed.created (hh : n.Housed) {id : UUIDv4}
    (hfree : ∀ k ∈ n.store.keys, timestamp k ≠ timestamp id) : (n.created id).Housed := by
  have hkeeps : Store.Keeps n.store (n.created id).store := .assign hfree
  refine ⟨?_, fun e he => hkeeps.houses (hh.reservations e he),
    fun k v hkv => hkeeps.houses (hh.translations k v hkv)⟩
  intro i hi
  rcases Nat.lt_succ_iff_lt_or_eq.mp (show i < n.handlers.length + 1 by
    simpa [Node.created] using hi) with hlt | rfl
  · obtain ⟨k, hk⟩ := hh.handlers i hlt
    obtain ⟨j, hj, -⟩ := hkeeps k i hk
    exact ⟨j, hj⟩
  · exact ⟨id, by rw [Node.created, OrdMap.find?_assign, if_pos rfl]⟩

theorem Node.Housed.hands (hh : n.Housed) (hn : n.Inv) (hands : Node.Hands env message n n₁ h) :
    n₁.Housed := by
  cases hands with
  | resumed hf => exact hh.found hn hf
  | created hfree => exact hh.created hfree

theorem Thread.TimedOut.translationTable {type : TimeoutType} {r : Except Fault Unit}
    (h : t.TimedOut type r t') : t'.translationTable = t.translationTable := by
  cases h with
  | idle => rfl
  | failed => rfl
  | released => rfl

/-- The session of a handler is in the store. -/
theorem Node.Housed.houses (hh : n.Housed) (hn : n.Inv) (hlt : h < n.handlers.length) :
    Store.Houses n.store (timestamp (n.handler h).uuid) := by
  obtain ⟨k, hk⟩ := hh.handlers h hlt
  exact ⟨k, OrdMap.mem_keys.mpr ⟨h, hk⟩, (hn.stored k h hk).2.symm⟩

/-- A session has one handler. -/
theorem Node.Housed.eq_of_timestamp (hh : n.Housed) (hn : n.Inv) (hlt : h < n.handlers.length)
    (hi : i < n.handlers.length)
    (hT : timestamp (n.handler i).uuid = timestamp (n.handler h).uuid) : i = h := by
  obtain ⟨j, hj⟩ := hh.handlers i hi
  obtain ⟨k, hk⟩ := hh.handlers h hlt
  exact hn.eq_of_stored hj hk hT

/-- A thread that leaves the store alone. -/
theorem Node.Housed.framed (hh : n.Housed) (hn : n.Inv) (hlt : h < n.handlers.length)
    (ht : Thread.Frame (timestamp (n.handler h).uuid) (n.thread h) t)
    (htable : ∀ k v, t.translationTable.find? k = some v →
      n.translationTable.find? k = some v ∨ timestamp k = timestamp (n.handler h).uuid) :
    (Node.putThread t h n).Housed := by
  refine hh.putThread (hh.houses hn hlt) ht.confined ?_ htable
  rw [ht.store]
  exact .refl

theorem Node.held_of_ge (hge : n.handlers.length ≤ h) : (n.thread h).held =
    ⟨n.resources, .null⟩ := by
  show (⟨n.resources, (n.handler h).reservation⟩ : Held) = _
  rw [Node.handler_of_ge hge]
  rfl

/-- The callback of a handler that is not there has nothing to give back. -/
theorem Node.Housed.absent (hn : n.Housed) (hge : n.handlers.length ≤ h) {type : TimeoutType}
    {r : Except Fault Unit} (ht : (n.thread h).TimedOut type r t) :
    (Node.putThread t h n).Housed := by
  cases ht with
  | idle =>
    rw [Node.putThread_thread]
    exact hn
  | failed =>
    refine ⟨?_, hn.reservations, hn.translations⟩
    intro i hi
    rw [Node.length_putThread] at hi
    exact hn.handlers i hi
  | released _ hx =>
    rw [Node.held_of_ge hge] at hx
    cases hx

/-- **A step that ends well leaves everything in the store.** -/
theorem Node.Housed.step (hh : n.Housed) (hn : n.Inv) (henabled : action.enabled n)
    (hstep : n.Stepped env action (.ok ()) n') : n'.Housed := by
  cases hstep with
  | dropped hf => exact hh.found hn hf
  | bid hf hk hs hr hb =>
    have hn₁ := hh.found hn hf
    refine ⟨?_, hn₁.reservations, hn₁.translations⟩
    intro j hj
    rw [Node.withBid, Node.length_modifyHandler] at hj
    exact hn₁.handlers j hj
  | round hands hrun =>
    rename_i message source n₁ i t
    have hn₁ := hands.inv hn
    have hhoused := hh.hands hn hands
    have hT := hands.timestamp_eq hn
    have hfiling := (hands.moved hn hrun).filing hn₁.unique (by rw [Node.startThread_uuid, hT])
    obtain ⟨hconf, -⟩ := hands.confined hn hrun
    rw [← hands.resources] at hconf
    refine hhoused.putThread ?_ hconf hfiling.keeps hfiling.table
    rw [← hT]
    exact hhoused.houses hn₁ (hands.lt hn)
  | woken hrun =>
    rename_i i t
    have hframe := ((wake_keeps env i).ok hn.thread_inv hrun).toFrame
    have hfiling := (hn.wake_moved hrun (.acc 0 0)).filing
      (show Store.Unique (n.thread i).unblocked.store from hn.unique) rfl
    exact hh.framed hn henabled.1 hframe hfiling.table
  | fired hrun hr he =>
    rename_i i type r t
    have htimed := onTimeout_timedOut hrun
    have hexpired : (n.expire i type).Housed := ⟨hh.handlers, hh.reservations, hh.translations⟩
    by_cases hlt : i < n.handlers.length
    · refine hexpired.framed (hn.expire i type) hlt ((hn.expire i type).callback hrun).toFrame ?_
      intro k v hkv
      rw [htimed.translationTable] at hkv
      exact Or.inl hkv
    · exact hexpired.absent (not_lt.mp hlt) htimed
  | marked => exact ⟨hh.handlers, hh.reservations, hh.translations⟩

theorem Node.Reachable.housed (hn : n.Reachable) : n.Housed := by
  induction hn with
  | refl => exact Node.Housed.initial
  | tail hreach hstep ih =>
    obtain ⟨env, action, henabled, hrun⟩ := hstep
    have hinv := Node.Reachable.inv hreach
    exact ih.step hinv henabled (hinv.stepped hrun)

end Nodes

end Rankd

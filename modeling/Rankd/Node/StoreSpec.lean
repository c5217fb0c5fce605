import Rankd.Node.Process
import Rankd.Node.ThreadSpec

/-!
# The store of a node

Handlers are found by timestamp, so the store works as long as no two of its keys share one.
`Node.Inv` says so, together with what keeps it true: a handler has the timestamp of its key, a
translation that of its original, and the reservation of a handler that of its UUID.

* `isUuidInStore_run`: with the invariant, a lookup renames at most one key
* `receive_cases`: what `Process::operator()` does with a message
* `Node.Inv.step`: every step keeps the invariant
-/

namespace Rankd

open Infra Prog

/-! ## Stores -/

/-- No two keys share a timestamp. -/
def Store.Unique (s : Store) : Prop :=
  ∀ j ∈ s.keys, ∀ k ∈ s.keys, timestamp j = timestamp k → j = k

/-- `s'` is `s`, or one handler of the timestamp `T` went to a free key of it. -/
def Store.Renames (T : Nat) (s s' : Store) : Prop :=
  s' = s ∨ ∃ k k' h, timestamp k = T ∧ timestamp k' = T ∧ s.find? k = some h ∧ s.find? k' = none ∧
    ∀ j, s'.find? j = if j = k' then some h else if j = k then none else s.find? j

namespace Store

variable {s s' : Store} {T : Nat}

/-- Renaming a key does not make entries. -/
theorem Renames.find?_eq_some (hr : Renames T s s') {j : UUIDv4} {h : HandlerId}
    (hj : s'.find? j = some h) : ∃ k, s.find? k = some h ∧ timestamp k = timestamp j := by
  rcases hr with rfl | ⟨k, k', h₀, hk, hk', hfind, -, hs'⟩
  · exact ⟨j, hj, rfl⟩
  · rw [hs'] at hj
    split_ifs at hj with h1 h2
    · cases hj
      exact ⟨k, hfind, by rw [hk, h1, hk']⟩
    · exact ⟨j, hj, rfl⟩

/-- Renaming a key does not lose entries. -/
theorem Renames.find?_of_eq_some (hr : Renames T s s') {k : UUIDv4} {h : HandlerId}
    (hk : s.find? k = some h) : ∃ j, s'.find? j = some h ∧ timestamp j = timestamp k := by
  rcases hr with rfl | ⟨k₀, k', h₀, hk₀, hk', hfind, hfree, hs'⟩
  · exact ⟨k, hk, rfl⟩
  · by_cases heq : k = k₀
    · subst heq
      rw [hfind] at hk
      cases hk
      exact ⟨k', by rw [hs', if_pos rfl], by rw [hk', hk₀]⟩
    · refine ⟨k, ?_, rfl⟩
      have hne : k ≠ k' := by
        rintro rfl
        rw [hfree] at hk
        cases hk
      rw [hs', if_neg hne, if_neg heq, hk]

theorem Renames.unique (hr : Renames T s s') (hu : s.Unique) : s'.Unique := by
  rcases hr with rfl | ⟨k, k', h₀, hk, hk', hfind, hfree, hs'⟩
  · exact hu
  -- A key of the new store is `k'`, which has taken the place of `k`, or an old one.
  have hkey : ∀ j ∈ s'.keys, j = k' ∨ (j ≠ k ∧ j ∈ s.keys) := by
    intro j hj
    obtain ⟨h, hj⟩ := OrdMap.mem_keys.mp hj
    rw [hs'] at hj
    split_ifs at hj with h1 h2
    · exact Or.inl h1
    · exact Or.inr ⟨h2, OrdMap.mem_keys.mpr ⟨h, hj⟩⟩
  have hkmem : k ∈ s.keys := OrdMap.mem_keys.mpr ⟨h₀, hfind⟩
  intro i hi j hj hij
  rcases hkey i hi with rfl | ⟨hik, hi⟩
  · rcases hkey j hj with rfl | ⟨hjk, hj⟩
    · rfl
    · exact absurd (hu j hj k hkmem (by rw [← hij, hk', hk])) hjk
  · rcases hkey j hj with rfl | ⟨hjk, hj⟩
    · exact absurd (hu i hi k hkmem (by rw [hij, hk', hk])) hik
    · exact hu i hi j hj hij

theorem Unique.erase (hu : s.Unique) (k : UUIDv4) : Unique (s.erase k) := by
  have hmem : ∀ j ∈ (s.erase k).keys, j ∈ s.keys := by
    intro j hj
    obtain ⟨h, hj⟩ := OrdMap.mem_keys.mp hj
    rw [OrdMap.find?_erase] at hj
    split_ifs at hj
    exact OrdMap.mem_keys.mpr ⟨h, hj⟩
  intro i hi j hj hij
  exact hu i (hmem i hi) j (hmem j hj) hij

/-- Filing a handler under a timestamp that is not in the store. -/
theorem Unique.assign (hu : s.Unique) {k : UUIDv4} (h : HandlerId)
    (hfree : ∀ j ∈ s.keys, timestamp j ≠ timestamp k) : Unique (s.assign k h) := by
  have hkey : ∀ j ∈ (s.assign k h).keys, j = k ∨ j ∈ s.keys := by
    intro j hj
    obtain ⟨h', hj⟩ := OrdMap.mem_keys.mp hj
    rw [OrdMap.find?_assign] at hj
    split_ifs at hj with hjk
    · exact Or.inl hjk
    · exact Or.inr (OrdMap.mem_keys.mpr ⟨h', hj⟩)
  intro i hi j hj hij
  rcases hkey i hi with hik | hi'
  · rcases hkey j hj with hjk | hj'
    · rw [hik, hjk]
    · rw [hik] at hij
      exact absurd hij.symm (hfree j hj')
  · rcases hkey j hj with hjk | hj'
    · rw [hjk] at hij
      exact absurd hij (hfree i hi')
    · exact hu i hi' j hj' hij

/-- With unique timestamps the two kinds of re-keying are renamings. -/
theorem Unique.renames (hu : s.Unique) {k k' : UUIDv4} {h : HandlerId} (hk : s.find? k = some h)
    (hts : timestamp k' = timestamp k)
    (hs' : ∀ j, s'.find? j = if j = k' then some h else if j = k then none else s.find? j) :
    Renames (timestamp k) s s' := by
  by_cases heq : k' = k
  · refine Or.inl (OrdMap.ext_find? fun j => ?_)
    rw [hs', heq]
    by_cases hj : j = k
    · rw [if_pos hj, hj, hk]
    · rw [if_neg hj, if_neg hj]
  · refine Or.inr ⟨k, k', h, rfl, hts, hk, ?_, hs'⟩
    rcases hfree : s.find? k' with _ | h'
    · rfl
    · exact absurd (hu k' (OrdMap.mem_keys.mpr ⟨h', hfree⟩) k (OrdMap.mem_keys.mpr ⟨h, hk⟩) hts) heq

end Store

/-! ## The invariant -/

structure Node.Inv (n : Node) : Prop where
  unique : Store.Unique n.store
  stored : ∀ k h, n.store.find? k = some h →
    h < n.handlers.length ∧ timestamp (n.handler h).uuid = timestamp k
  table : ∀ k v, n.translationTable.find? k = some v → timestamp k = timestamp v
  valid : n.resources.Valid
  pointer : ∀ h < n.handlers.length,
    (n.handler h).reservation.Ok (timestamp (n.handler h).uuid) n.resources

theorem Node.Inv.initial : Node.Inv Node.initial where
  unique := by intro j hj; cases hj
  stored := by intro k h hk; cases hk
  table := by intro k v hk; cases hk
  valid := ⟨List.nodup_nil, by intro e he; cases he⟩
  pointer := by intro h hh; exact absurd hh (Nat.not_lt_zero h)

/-! ## Handlers of the heap -/

section Heap

variable {n : Node} {h i : HandlerId}

theorem Node.handler_of_lt (hh : h < n.handlers.length) : n.handler h = n.handlers[h] := by
  simp [Node.handler, List.getD_eq_getElem?_getD, hh]

/-- A handler that is not there is as good as a new one. -/
theorem Node.handler_of_ge (hh : n.handlers.length ≤ h) : n.handler h = default := by
  rw [Node.handler, List.getD_eq_getElem?_getD, List.getElem?_eq_none hh]
  rfl

theorem Node.handler_modify_self {f : Handler → Handler} (hh : h < n.handlers.length) :
    (n.modifyHandler h f).handler h = f (n.handler h) := by
  rw [Node.handler_of_lt hh, Node.handler_of_lt (by simpa [Node.modifyHandler] using hh)]
  simp [Node.modifyHandler]

theorem Node.handler_modify_ne {f : Handler → Handler} (hi : i ≠ h) :
    (n.modifyHandler h f).handler i = n.handler i := by
  simp [Node.handler, Node.modifyHandler, List.getD_eq_getElem?_getD, Ne.symm hi]

@[simp] theorem Node.length_modifyHandler {f : Handler → Handler} :
    (n.modifyHandler h f).handlers.length = n.handlers.length := by
  simp [Node.modifyHandler]

theorem Node.handler_putThread_self {t : Thread} (hh : h < n.handlers.length) :
    (Node.putThread t h n).handler h = t.self := by
  rw [Node.handler_of_lt (by simpa [Node.putThread] using hh)]
  simp [Node.putThread]

theorem Node.handler_putThread_ne {t : Thread} (hi : i ≠ h) :
    (Node.putThread t h n).handler i = n.handler i := by
  simp [Node.handler, Node.putThread, List.getD_eq_getElem?_getD, Ne.symm hi]

@[simp] theorem Node.length_putThread {t : Thread} :
    (Node.putThread t h n).handlers.length = n.handlers.length := by
  simp [Node.putThread]

end Heap

/-! ## Lookups -/

section Lookups

variable {env : Env} {n : Node} {id k : UUIDv4} {h : HandlerId}

theorem relatedKeys_eq_nil (hfree : ∀ j ∈ n.store.keys, timestamp j ≠ timestamp id) :
    relatedKeys env n id = [] := by
  rw [relatedKeys, List.filter_eq_nil_iff]
  intro j hj hsame
  exact hfree j hj (isSameTimestamp_iff.mp hsame)

theorem relatedKeys_eq_singleton (hu : Store.Unique n.store) (hk : k ∈ n.store.keys)
    (hts : timestamp k = timestamp id) : relatedKeys env n id = [k] := by
  refine OrdMap.filter_keys_eq_singleton hk ?_
  intro j hj
  rw [isSameTimestamp_iff]
  constructor
  · intro h
    exact hu j hj k hk (h.trans hts.symm)
  · rintro rfl
    exact hts

theorem isUuidInStore_free (hfree : ∀ j ∈ n.store.keys, timestamp j ≠ timestamp id)
    (tester : Bool) : (isUuidInStore env id tester).run n = (.ok false, n) := by
  simp only [isUuidInStore, run_bind, run_get, relatedKeys_eq_nil hfree]
  rfl

theorem isUuidInStore_tester (hu : Store.Unique n.store) (hk : k ∈ n.store.keys)
    (hts : timestamp k = timestamp id) : (isUuidInStore env id true).run n = (.ok true, n) := by
  simp only [isUuidInStore, run_bind, run_get, relatedKeys_eq_singleton hu hk hts]
  rfl

/-- **A lookup renames at most one key**, the one of the timestamp. -/
theorem isUuidInStore_run (hu : Store.Unique n.store) (hk : k ∈ n.store.keys)
    (hts : timestamp k = timestamp id) : (isUuidInStore env id false).run n =
      (.ok true, if k = id ∨ k = noUuid then n else n.rekey k id) := by
  simp only [isUuidInStore, run_bind, run_get, relatedKeys_eq_singleton hu hk hts]
  by_cases heq : k = id
  · simp [heq]
  · by_cases hno : k = noUuid
    · subst hno
      simp [heq]
    · simp [hno, heq, run_bind]

end Lookups

/-! ## Re-keying -/

section Rekeying

variable {n : Node} {id k : UUIDv4} {h : HandlerId}

theorem Node.rekey_eq (hk : n.store.find? k = some h) : n.rekey k id =
    { n.modifyHandler h (fun handler => { handler with uuid := id }) with
      store := (n.store.assign id h).erase k } := by
  simp only [Node.rekey, hk]
  rfl

theorem Node.find?_rekey (hk : n.store.find? k = some h) (hne : k ≠ id) (j : UUIDv4) :
    (n.rekey k id).store.find? j =
      if j = id then some h else if j = k then none else n.store.find? j := by
  rw [Node.rekey_eq hk]
  simp only [OrdMap.find?_erase, OrdMap.find?_assign]
  by_cases hj : j = id
  · rw [if_neg (fun hjk => hne (hjk.symm.trans hj)), if_pos hj, if_pos hj]
  · rw [if_neg hj, if_neg hj]

theorem Node.handler_rekey_self (hk : n.store.find? k = some h) (hh : h < n.handlers.length) :
    (n.rekey k id).handler h = { n.handler h with uuid := id } := by
  rw [Node.rekey_eq hk]
  exact Node.handler_modify_self hh

theorem Node.handler_rekey_ne (hk : n.store.find? k = some h) {i : HandlerId} (hi : i ≠ h) :
    (n.rekey k id).handler i = n.handler i := by
  rw [Node.rekey_eq hk]
  exact Node.handler_modify_ne hi

theorem Node.length_rekey : (n.rekey k id).handlers.length = n.handlers.length := by
  rw [Node.rekey]
  split
  · rfl
  · simp

theorem Node.translationTable_rekey : (n.rekey k id).translationTable = n.translationTable := by
  rw [Node.rekey]
  split <;> rfl

theorem Node.resources_rekey : (n.rekey k id).resources = n.resources := by
  rw [Node.rekey]
  split <;> rfl

/-- Two keys of one handler are the same key. -/
theorem Node.Inv.key_unique (hn : n.Inv) {j : UUIDv4} (hj : n.store.find? j = some h)
    (hk : n.store.find? k = some h) : j = k := by
  refine hn.unique j (OrdMap.mem_keys.mpr ⟨h, hj⟩) k (OrdMap.mem_keys.mpr ⟨h, hk⟩) ?_
  rw [← (hn.stored j h hj).2, (hn.stored k h hk).2]

theorem Node.Inv.renames_rekey (hn : n.Inv) (hk : n.store.find? k = some h)
    (hts : timestamp k = timestamp id) (hne : k ≠ id) :
    Store.Renames (timestamp id) n.store (n.rekey k id).store := by
  rw [← hts]
  exact hn.unique.renames hk hts.symm (Node.find?_rekey hk hne)

theorem Node.Inv.rekey (hn : n.Inv) (hk : n.store.find? k = some h)
    (hts : timestamp k = timestamp id) (hne : k ≠ id) : (n.rekey k id).Inv := by
  have hh := (hn.stored k h hk).1
  -- The handler keeps its timestamp and its reservation, the others do not change at all.
  have hts' : ∀ i, timestamp ((n.rekey k id).handler i).uuid = timestamp (n.handler i).uuid := by
    intro i
    by_cases hi : i = h
    · rw [hi, Node.handler_rekey_self hk hh, (hn.stored k h hk).2]
      exact hts.symm
    · rw [Node.handler_rekey_ne hk hi]
  have hres : ∀ i, ((n.rekey k id).handler i).reservation = (n.handler i).reservation := by
    intro i
    by_cases hi : i = h
    · rw [hi, Node.handler_rekey_self hk hh]
    · rw [Node.handler_rekey_ne hk hi]
  have hren := hn.renames_rekey hk hts hne
  refine ⟨hren.unique hn.unique, ?_, ?_, ?_, ?_⟩
  · intro j i hj
    obtain ⟨j', hj', hjj'⟩ := hren.find?_eq_some hj
    rw [Node.length_rekey, hts', ← hjj']
    exact hn.stored j' i hj'
  · rw [Node.translationTable_rekey]
    exact hn.table
  · rw [Node.resources_rekey]
    exact hn.valid
  · intro i hi
    rw [Node.length_rekey] at hi
    rw [hts', hres, Node.resources_rekey]
    exact hn.pointer i hi

end Rekeying

/-! ## Messages -/

section Messages

variable {env : Env} {n : Node} {message : Message} {source : NodeIdentifier}

/-- A node after the lookup of an UUID. -/
inductive Node.Found (id : UUIDv4) (n : Node) : Node → Prop
  | same : Node.Found id n n
  | rekeyed {k : UUIDv4} {h : HandlerId} (hk : n.store.find? k = some h)
      (hts : timestamp k = timestamp id) (hne : k ≠ id) : Node.Found id n (n.rekey k id)

/-- `create_handler`, as a change of the node. -/
def Node.created (id : UUIDv4) (n : Node) : Node :=
  { n with
    store := n.store.assign id n.handlers.length
    handlers := n.handlers ++ [Handler.new id] }

/--
The UUID under which a message is processed: for a session of the store and at its origin, the
original of a translation.
-/
def handledUuid (env : Env) (n : Node) (message : Message) : UUIDv4 :=
  if iAmOrigin env n message.uuid && storeContainsUuidsRelatedTo env n message.uuid then
    (n.translationTable.find? message.uuid).getD message.uuid
  else message.uuid

/-- The states in which a stored handler takes a message. -/
def HandlerState.resumable : HandlerState → Bool
  | .assessing | .presenting | .auctionBidding | .closed => false
  | .replenishing | .preReserved | .auctionWaiting | .reserved | .ready => true

/-- What `Process::operator()` does with a message. -/
inductive Received (env : Env) (message : Message) (source : NodeIdentifier) (n : Node) :
    Except Fault Unit × Node → Prop
  | dropped {n₁ : Node} (hf : Node.Found message.uuid n n₁) :
    Received env message source n (.ok (), n₁)
  | stopped {n₁ : Node} {e : Fault} (hf : Node.Found message.uuid n n₁) (he : e ≠ .assertion) :
    Received env message source n (.error e, n₁)
  | bid {n₁ : Node} {h : HandlerId} {value : BitVec 32} (hf : Node.Found message.uuid n n₁)
    (hk : n₁.store.find? (handledUuid env n message) = some h)
    (hs : (n₁.handler h).state = .auctionWaiting) (hr : (n₁.handler h).running = true)
    (hm : ∃ v u, message = .bid v u value) :
    Received env message source n ((addBid env h value source).run n₁)
  | resumed {n₁ : Node} {h : HandlerId} (hf : Node.Found message.uuid n n₁)
    (hk : n₁.store.find? (handledUuid env n message) = some h)
    (hs : (n₁.handler h).state.resumable = true) (hr : (n₁.handler h).running = false)
    (hq : requestingMessage message = false) :
    Received env message source n ((deliver env h message source).run n₁)
  | created (hfree : ∀ k ∈ n.store.keys, timestamp k ≠ timestamp message.uuid) :
    Received env message source n
      ((deliver env n.handlers.length message source).run (n.created message.uuid))

/-- `listener_of_message` reads only, and holds only for sessions of the store. -/
theorem listenerOfMessage_pure (env : Env) (message : Message) (n : Node) :
    ∃ r, (listenerOfMessage env message).run n = (r, n) ∧
      (r = .ok true → ∃ k ∈ n.store.keys, timestamp k = timestamp message.uuid) ∧
      r ≠ .error .assertion := by
  cases message with
  | ear v u r =>
    simp only [listenerOfMessage, requestListener, run_bind, run_get]
    rcases listenerField r.listenerLength r.listener with (_ | _) | field
    · exact ⟨_, rfl, nofun, nofun⟩
    · exact ⟨_, rfl, nofun, nofun⟩
    · rcases field with _ | ⟨b, rest⟩
      · exact ⟨_, rfl, nofun, nofun⟩
      · refine ⟨_, rfl, ?_, nofun⟩
        intro h
        have hrel : storeContainsUuidsRelatedTo env n u = true := by
          simp only [Except.ok.injEq, Bool.and_eq_true] at h
          exact h.2
        obtain ⟨k, hk, hts⟩ := List.any_eq_true.mp hrel
        exact ⟨k, hk, isSameTimestamp_iff.mp hts⟩
  | mar v u r => exact ⟨_, rfl, nofun, nofun⟩
  | bid v u value => exact ⟨_, rfl, nofun, nofun⟩
  | acc v u => exact ⟨_, rfl, nofun, nofun⟩
  | ref v u => exact ⟨_, rfl, nofun, nofun⟩
  | rep v u length reserved listener => exact ⟨_, rfl, nofun, nofun⟩

theorem getHandler_run {uuid : UUIDv4} {h : HandlerId} (hu : Store.Unique n.store)
    (hk : n.store.find? uuid = some h) (missing : Fault) :
    (getHandler env uuid missing).run n = (.ok h, n) := by
  have hlook : (isUuidInStore env uuid false).run n = (.ok true, n) := by
    rw [isUuidInStore_run hu (OrdMap.mem_keys.mpr ⟨h, hk⟩) rfl, if_pos (Or.inl rfl)]
  simp only [getHandler]
  rw [bind_ok hlook]
  simp only [if_true, storeAt, run_bind, run_get, hk, require_some, run_pure]

/-- A message for a stored handler. -/
theorem receiveKnown_run {uuid : UUIDv4} {h : HandlerId} (hu : Store.Unique n.store)
    (hk : n.store.find? uuid = some h) : (receiveKnown env uuid message source).run n =
      if (n.handler h).running then
        match (n.handler h).state, message with
        | .auctionWaiting, .bid _ _ value => (addBid env h value source).run n
        | _, _ => (.ok (), n)
      else if (n.handler h).state.resumable then (deliver env h message source).run n
      else (.ok (), n) := by
  have hat : (storeAt uuid).run n = (.ok h, n) := by
    simp only [storeAt, run_bind, run_get, hk, require_some, run_pure]
  rw [receiveKnown, bind_ok hat]
  simp only [run_bind, run_get]
  rw [getHandler_run hu hk]
  dsimp only
  by_cases hr : (n.handler h).running = true
  · simp only [hr, if_true, run_bind]
    rw [getHandler_run hu hk]
    simp only [run_get]
    generalize (n.handler h).state = state
    cases state <;> cases message <;> rfl
  · rw [Bool.not_eq_true] at hr
    simp only [hr, Bool.false_eq_true, if_false]
    rcases hs : (n.handler h).state <;>
      simp only [HandlerState.resumable, run_bind, getHandler_run hu hk, if_true,
        Bool.false_eq_true, if_false, run_pure]

theorem createHandler_run (id : UUIDv4) (n : Node) :
    (createHandler id).run n = (.ok n.handlers.length, n.created id) := rfl

/-- The lookup with re-keying, which may find nothing. -/
theorem knownSession_cases (hu : Store.Unique n.store) (env : Env) (id : UUIDv4)
    (atOrigin : Bool) :
    (∃ n₁, Node.Found id n n₁ ∧ (knownSession env id atOrigin).run n = (.ok true, n₁)) ∨
      ((∀ k ∈ n.store.keys, timestamp k ≠ timestamp id) ∧
        (knownSession env id atOrigin).run n = (.ok false, n)) := by
  cases atOrigin with
  | true => exact Or.inl ⟨n, .same, rfl⟩
  | false =>
    by_cases hex : ∃ k ∈ n.store.keys, timestamp k = timestamp id
    · obtain ⟨k, hk, hts⟩ := hex
      obtain ⟨h, hfind⟩ := OrdMap.mem_keys.mp hk
      refine Or.inl ⟨_, ?_, isUuidInStore_run hu hk hts⟩
      by_cases hc : k = id ∨ k = noUuid
      · rw [if_pos hc]
        exact .same
      · rw [if_neg hc]
        exact .rekeyed hfind hts fun heq => hc (Or.inl heq)
    · have hfree : ∀ k ∈ n.store.keys, timestamp k ≠ timestamp id := by
        intro k hk hts
        exact hex ⟨k, hk, hts⟩
      exact Or.inr ⟨hfree, isUuidInStore_free hfree false⟩

theorem Node.Found.inv {id : UUIDv4} {n₁ : Node} (hf : Node.Found id n n₁) (hn : n.Inv) :
    n₁.Inv := by
  cases hf with
  | same => exact hn
  | rekeyed hk hts hne => exact hn.rekey hk hts hne

theorem Node.Found.translationTable {id : UUIDv4} {n₁ : Node} (hf : Node.Found id n n₁) :
    n₁.translationTable = n.translationTable := by
  cases hf with
  | same => rfl
  | rekeyed => exact Node.translationTable_rekey

/-- The node after the lookup of a message, which may re-key its session. -/
def Node.lookedUp (env : Env) (message : Message) (n : Node) : Node :=
  ((knownSession env message.uuid (iAmOrigin env n message.uuid ||
    decide (((listenerOfMessage env message).run n).1 = .ok true))).run n).2

/-- A message whose listener cannot be read. -/
theorem receive_unreadable {e : Fault}
    (hl : (listenerOfMessage env message).run n = (.error e, n)) :
    (receive env message source).run n = (.error e, n) := by
  rw [receive, bind_ok (run_get n), bind_error hl]

/-- **A message for a session of the store.** -/
theorem receive_stored (hn : n.Inv) (hk : k ∈ n.store.keys)
    (hts : timestamp k = timestamp message.uuid)
    {listener : Bool} (hl : (listenerOfMessage env message).run n = (.ok listener, n))
    (source : NodeIdentifier) :
    Node.Found message.uuid n (n.lookedUp env message) ∧
      (listener = true → n.lookedUp env message = n) ∧
      (receive env message source).run n = if requestingMessage message then (.ok (), n)
        else if listener && !(n.lookedUp env message).store.contains message.uuid then
          (.ok (), n.lookedUp env message)
        else (receiveKnown env (handledUuid env n message) message source).run
          (n.lookedUp env message) := by
  have hlooked : n.lookedUp env message =
      ((knownSession env message.uuid (iAmOrigin env n message.uuid || listener)).run n).2 := by
    rw [Node.lookedUp, hl]
    simp
  rw [receive, bind_ok (run_get n), bind_ok hl, bind_ok (isUuidInStore_tester hn.unique hk hts),
    Bool.true_and, Bool.and_true]
  rcases knownSession_cases hn.unique env message.uuid
    (iAmOrigin env n message.uuid || listener) with ⟨n₁, hf, hknown⟩ | ⟨hfree, -⟩
  · have hn₁ : n.lookedUp env message = n₁ := by rw [hlooked, hknown]
    rw [hn₁]
    refine ⟨hf, ?_, ?_⟩
    · rintro rfl
      rw [Bool.or_true] at hknown
      cases hknown
      rfl
    · by_cases hq : requestingMessage message = true
      · rw [if_pos hq, if_pos hq, run_pure]
      rw [if_neg hq, if_neg hq, bind_ok hknown, if_pos rfl, bind_ok (run_get n₁)]
      have hu : (if iAmOrigin env n message.uuid
          then (n₁.translationTable.find? message.uuid).getD message.uuid
          else message.uuid) = handledUuid env n message := by
        have hrel : storeContainsUuidsRelatedTo env n message.uuid = true :=
          List.any_eq_true.mpr ⟨k, hk, isSameTimestamp_iff.mpr hts⟩
        rw [hf.translationTable, handledUuid, hrel, Bool.and_true]
      rw [hu]
      split_ifs
      · rfl
      · rfl
  · exact absurd hts (hfree k hk)

/-- **A message for a session that is not in the store** gets a new handler. -/
theorem receive_unstored (hfree : ∀ k ∈ n.store.keys, timestamp k ≠ timestamp message.uuid)
    {listener : Bool} (hl : (listenerOfMessage env message).run n = (.ok listener, n))
    (source : NodeIdentifier) : (receive env message source).run n =
      (deliver env n.handlers.length message source).run (n.created message.uuid) := by
  obtain ⟨r, hlistener, hrelated, -⟩ := listenerOfMessage_pure env message n
  obtain ⟨rfl, -⟩ := Prod.mk.inj (hl.symm.trans hlistener)
  have hlis : listener = false := by
    rw [← Bool.not_eq_true]
    rintro rfl
    obtain ⟨k, hk, hts⟩ := hrelated rfl
    exact hfree k hk hts
  have hknown : (knownSession env message.uuid false).run n = (.ok false, n) :=
    isUuidInStore_free hfree false
  rw [receive, bind_ok (run_get n), bind_ok hl, bind_ok (isUuidInStore_free hfree true),
    Bool.false_and, if_neg Bool.false_ne_true, hlis, Bool.and_false, Bool.or_false,
    bind_ok hknown, if_neg Bool.false_ne_true, bind_ok (createHandler_run message.uuid n)]

/-- **What a message can do**: nothing, a bid for an auction, or a round of one handler. -/
theorem receive_cases (hn : n.Inv) (env : Env) (message : Message) (source : NodeIdentifier) :
    Received env message source n ((receive env message source).run n) := by
  obtain ⟨r, hlistener, -, hassert⟩ := listenerOfMessage_pure env message n
  cases r with
  | error e =>
    rw [receive_unreadable hlistener]
    refine .stopped .same ?_
    rintro rfl
    exact hassert rfl
  | ok listener =>
  by_cases hex : ∃ k ∈ n.store.keys, timestamp k = timestamp message.uuid
  · obtain ⟨k, hk, hts⟩ := hex
    obtain ⟨hf, -, hreceive⟩ := receive_stored hn hk hts hlistener source
    rw [hreceive]
    split_ifs with hq hc
    · exact .dropped .same
    · exact .dropped hf
    · rcases hfind : (n.lookedUp env message).store.find? (handledUuid env n message) with _ | h
      · have hat : (storeAt (handledUuid env n message)).run (n.lookedUp env message) =
            (.error .outOfRange, n.lookedUp env message) := by
          simp only [storeAt, run_bind, run_get, hfind, require_none, run_fault]
        rw [receiveKnown, bind_error hat]
        exact .stopped hf nofun
      · rw [receiveKnown_run (hf.inv hn).unique hfind]
        by_cases hr : ((n.lookedUp env message).handler h).running = true
        · rw [if_pos hr]
          split
          · exact .bid hf hfind ‹_› hr ⟨_, _, rfl⟩
          · exact .dropped hf
        · rw [if_neg hr]
          by_cases hs : ((n.lookedUp env message).handler h).state.resumable = true
          · rw [if_pos hs]
            exact .resumed hf hfind hs (Bool.not_eq_true _ ▸ hr) (Bool.not_eq_true _ ▸ hq)
          · rw [if_neg hs]
            exact .dropped hf
  · have hfree : ∀ k ∈ n.store.keys, timestamp k ≠ timestamp message.uuid := by
      intro k hk hts
      exact hex ⟨k, hk, hts⟩
    rw [receive_unstored hfree hlistener]
    exact .created hfree

end Messages

/-! ## Threads -/

section Threads

variable {env : Env} {n : Node} {h : HandlerId} {message : Message} {source : NodeIdentifier}
  {T : Nat} {t : Thread}

/-- A node after one of its threads. -/
theorem Node.Inv.putThread (hn : n.Inv) (hT : timestamp (n.handler h).uuid = T)
    (htame : Thread.Tame T (n.thread h) t) (hts : timestamp t.self.uuid = T)
    (hptr : t.self.reservation.Ok T t.resources) (hunique : Store.Unique t.store)
    (hstored : ∀ k i, t.store.find? k = some i →
      ∃ k₀, n.store.find? k₀ = some i ∧ timestamp k₀ = timestamp k) :
    (Node.putThread t h n).Inv where
  unique := hunique
  stored := by
    intro k i hk
    obtain ⟨k₀, hk₀, hkk⟩ := hstored k i hk
    obtain ⟨hi, hu⟩ := hn.stored k₀ i hk₀
    refine ⟨by rw [Node.length_putThread]; exact hi, ?_⟩
    by_cases hih : i = h
    · subst hih
      rw [Node.handler_putThread_self hi, hts, ← hT, hu, hkk]
    · rw [Node.handler_putThread_ne hih, hu, hkk]
  table := by
    intro k v hkv
    rcases htame.table k v hkv with hold | hts
    · exact hn.table k v hold
    · exact hts
  valid := htame.valid
  pointer := by
    intro i hi
    rw [Node.length_putThread] at hi
    by_cases hih : i = h
    · subst hih
      rw [Node.handler_putThread_self hi, hts]
      exact hptr
    · rw [Node.handler_putThread_ne hih]
      exact (hn.pointer i hi).of_confined htame.confined

@[simp] theorem acceptMessage_uuid (handler : Handler) :
    (acceptMessage message source handler).uuid = handler.uuid := by
  cases message <;> rfl

/-- A thread writes back over what `handle` wrote. -/
theorem Node.putThread_modifyHandler {f : Handler → Handler} :
    Node.putThread t h (n.modifyHandler h f) = Node.putThread t h n := by
  simp only [Node.putThread, Node.modifyHandler, Node.mk.injEq, true_and]
  refine List.ext_getElem? fun i => ?_
  by_cases hi : h = i
  · subst hi
    by_cases hlt : h < n.handlers.length
    · simp [hlt]
    · simp [hlt]
  · simp [hi]

/-- A node whose handler was given a message. -/
def Node.accepting (h : HandlerId) (message : Message) (source : NodeIdentifier)
    (n : Node) : Node :=
  n.modifyHandler h fun handler => acceptMessage message source { handler with running := true }

/-- The state in which a handler's thread starts on a message. -/
def Node.startThread (h : HandlerId) (message : Message) (source : NodeIdentifier) (n : Node) :
    Thread :=
  ⟨n.toShared, acceptMessage message source { n.handler h with running := true }⟩

theorem deliver_run (hh : h < n.handlers.length) {r : Except Fault Unit}
    (hr : (operatorCall env h (n.accepting h message source).handlers message).run
      (n.startThread h message source) = (r, t)) :
    (deliver env h message source).run n = (r, Node.putThread t h n) := by
  have hthread : (n.accepting h message source).thread h = n.startThread h message source := by
    simp only [Node.thread, Node.accepting, Node.handler_modify_self hh]
    rfl
  have hmodify : (Prog.modify (Node.modifyHandler h fun handler =>
      acceptMessage message source { handler with running := true }) : NodeM Unit).run n =
      (.ok (), n.accepting h message source) := rfl
  rw [deliver, bind_ok hmodify, bind_ok (run_get _), runThread]
  simp only [zoom, hthread, hr]
  rw [Node.accepting, Node.putThread_modifyHandler]

/-- A round of a handler stays within the handler's session. -/
theorem startThread_filed (hn : n.Inv) (hT : timestamp (n.handler h).uuid = T)
    {r : Except Fault Unit}
    (hr : (operatorCall env h (n.accepting h message source).handlers message).run
      (n.startThread h message source) = (r, t)) :
    Thread.Tame T (n.thread h) t ∧ Thread.Filed message (n.thread h) t ∧
      (r = .ok () → t.self.reservation.Ok T t.resources) := by
  have hu : (n.startThread h message source).self.uuid = (n.handler h).uuid := acceptMessage_uuid _
  have hT' : timestamp (n.startThread h message source).self.uuid = T := by rw [hu, hT]
  have hfiled : Thread.Filed message (n.startThread h message source) t →
      Thread.Filed message (n.thread h) t := by
    intro hf
    cases message with
    | ref v u => exact ⟨hf.store, hf.uuid⟩
    | acc v u | ear v u r | mar v u r | bid v u value | rep v u length reserved listener => exact hf
  have htriple := operatorCall_filed env h (n.accepting h message source).handlers message hT'
    hn.valid
  cases r with
  | ok u =>
    obtain ⟨⟨htame, hf⟩, hp⟩ := htriple.ok rfl hr
    exact ⟨⟨htame.table, htame.valid, htame.confined, htame.sends⟩, hfiled hf, fun _ => hp⟩
  | error e =>
    obtain ⟨htame, hf⟩ := htriple.fault rfl hr
    exact ⟨⟨htame.table, htame.valid, htame.confined, htame.sends⟩, hfiled hf, nofun⟩

/-- A message that is handed to a handler stays within the handler's session. -/
theorem deliver_filed (hn : n.Inv) (hh : h < n.handlers.length)
    (hT : timestamp (n.handler h).uuid = T) (env : Env) (message : Message)
    (source : NodeIdentifier) :
    ∃ r t, (deliver env h message source).run n = (r, Node.putThread t h n) ∧
      Thread.Tame T (n.thread h) t ∧ Thread.Filed message (n.thread h) t ∧
      (r = .ok () → t.self.reservation.Ok T t.resources) := by
  rcases hr : (operatorCall env h (n.accepting h message source).handlers message).run
    (n.startThread h message source) with ⟨r, t⟩
  exact ⟨r, t, deliver_run hh hr, startThread_filed hn hT hr⟩

/-- What a round of a handler does to the store. -/
def Store.Moves (message : Message) (T : Nat) (s s' : Store) : Prop :=
  Store.Renames T s s' ∨ ∃ v u k, message = .ref v u ∧ timestamp k = T ∧ s' = s.erase k

theorem Store.Moves.unique {s s' : Store} (hm : Store.Moves message T s s') (hu : s.Unique) :
    s'.Unique := by
  rcases hm with hr | ⟨v, u, k, -, -, rfl⟩
  · exact hr.unique hu
  · exact hu.erase k

theorem Store.Moves.find?_eq_some {s s' : Store} (hm : Store.Moves message T s s') {j : UUIDv4}
    (hj : s'.find? j = some h) : ∃ k, s.find? k = some h ∧ timestamp k = timestamp j := by
  rcases hm with hr | ⟨v, u, k, -, -, rfl⟩
  · exact hr.find?_eq_some hj
  · rw [OrdMap.find?_erase] at hj
    split_ifs at hj
    exact ⟨j, hj, rfl⟩

/-- With the invariant, ACC and REF stay within the timestamp of their handler. -/
theorem Thread.Filed.moves (hn : n.Inv) (hT : timestamp (n.handler h).uuid = T)
    (hf : Thread.Filed message (n.thread h) t) :
    Store.Moves message T n.store t.store ∧ timestamp t.self.uuid = T := by
  have hkept : t.store = n.store ∧ t.self.uuid = (n.handler h).uuid →
      Store.Moves message T n.store t.store ∧ timestamp t.self.uuid = T := by
    rintro ⟨hs, hu⟩
    exact ⟨Or.inl (Or.inl hs), by rw [hu, hT]⟩
  have htrans : ∀ {v : UUIDv4}, n.translationTable.find? (n.handler h).uuid = some v →
      timestamp v = T := by
    intro v hv
    rw [← hn.table _ _ hv, hT]
  cases message with
  | acc v u =>
    rcases hf with hsame | ⟨horig, hc, hs⟩
    · exact hkept hsame
    · refine ⟨Or.inl ?_, htrans horig⟩
      obtain ⟨i, hi⟩ := OrdMap.contains_iff.mp hc
      have hts : timestamp t.self.uuid = timestamp (n.handler h).uuid := by
        rw [htrans horig, hT]
      have hfree : t.self.uuid = (n.handler h).uuid ∨ n.store.find? t.self.uuid = none := by
        rcases hx : n.store.find? t.self.uuid with _ | x
        · exact Or.inr rfl
        · exact Or.inl (hn.unique _ (OrdMap.mem_keys.mpr ⟨x, hx⟩) _
            (OrdMap.mem_keys.mpr ⟨i, hi⟩) hts)
      rw [← hT, hs]
      exact hn.unique.renames hi hts (OrdMap.find?_rename hi hfree)
  | ref v u =>
    refine ⟨?_, ?_⟩
    · rcases hf.store with hs | hs
      · exact Or.inl (Or.inl hs)
      · exact Or.inr ⟨v, u, _, rfl, hT, hs⟩
    · rcases hf.uuid with hu | hu
      · rw [hu]
        exact hT
      · exact htrans hu
  | ear v u r | mar v u r | bid v u value | rep v u length reserved listener => exact hkept hf

end Threads

/-! ## Steps -/

section Steps

variable {env : Env} {n n' : Node} {h : HandlerId} {message : Message} {source : NodeIdentifier}

theorem Node.handler_created_lt {id : UUIDv4} {i : HandlerId} (hi : i < n.handlers.length) :
    (n.created id).handler i = n.handler i := by
  simp [Node.handler, Node.created, List.getD_eq_getElem?_getD, List.getElem?_append_left hi]

theorem Node.handler_created_self {id : UUIDv4} :
    (n.created id).handler n.handlers.length = Handler.new id := by
  simp [Node.handler, Node.created, List.getD_eq_getElem?_getD]

theorem Node.handler_created_ne {id : UUIDv4} {i : HandlerId} (hi : i ≠ n.handlers.length) :
    (n.created id).handler i = n.handler i := by
  rcases Nat.lt_or_gt_of_ne hi with hlt | hgt
  · exact Node.handler_created_lt hlt
  · have hlength : (n.created id).handlers.length ≤ i := by
      rw [Node.created, List.length_append, List.length_singleton]
      exact hgt
    rw [Node.handler_of_ge hgt.le, Node.handler_of_ge hlength]

theorem Node.Inv.created (hn : n.Inv) {id : UUIDv4}
    (hfree : ∀ k ∈ n.store.keys, timestamp k ≠ timestamp id) : (n.created id).Inv where
  unique := hn.unique.assign _ hfree
  stored := by
    intro k i hk
    have hlen : (n.created id).handlers.length = n.handlers.length + 1 := by simp [Node.created]
    have hk' : (if k = id then some n.handlers.length else n.store.find? k) = some i := by
      rw [← OrdMap.find?_assign]
      exact hk
    rw [hlen]
    split_ifs at hk' with hkid
    · cases hk'
      refine ⟨Nat.lt_succ_self _, ?_⟩
      rw [Node.handler_created_self, hkid]
      rfl
    · obtain ⟨hi, hu⟩ := hn.stored k i hk'
      refine ⟨Nat.lt_succ_of_lt hi, ?_⟩
      rw [Node.handler_created_lt hi]
      exact hu
  table := hn.table
  valid := hn.valid
  pointer := by
    intro i hi
    have hlen : (n.created id).handlers.length = n.handlers.length + 1 := by simp [Node.created]
    rw [hlen] at hi
    rcases Nat.lt_succ_iff_lt_or_eq.mp hi with hlt | rfl
    · rw [Node.handler_created_lt hlt]
      exact hn.pointer i hlt
    · rw [Node.handler_created_self]
      trivial

/-- Changes of a handler that keep its UUID and its reservation. -/
theorem Node.Inv.modifyHandler (hn : n.Inv) {f : Handler → Handler}
    (hu : ∀ s, (f s).uuid = s.uuid) (hr : ∀ s, (f s).reservation = s.reservation) :
    (n.modifyHandler h f).Inv := by
  have hboth : ∀ i < n.handlers.length,
      ((n.modifyHandler h f).handler i).uuid = (n.handler i).uuid ∧
        ((n.modifyHandler h f).handler i).reservation = (n.handler i).reservation := by
    intro i hi
    by_cases hih : i = h
    · subst hih
      rw [Node.handler_modify_self hi]
      exact ⟨hu _, hr _⟩
    · rw [Node.handler_modify_ne hih]
      exact ⟨rfl, rfl⟩
  refine ⟨hn.unique, ?_, hn.table, hn.valid, ?_⟩
  · intro k i hk
    obtain ⟨hi, hts⟩ := hn.stored k i hk
    rw [Node.length_modifyHandler, (hboth i hi).1]
    exact ⟨hi, hts⟩
  · intro i hi
    rw [Node.length_modifyHandler] at hi
    rw [(hboth i hi).1, (hboth i hi).2]
    exact hn.pointer i hi

/-- A bid for an auction changes the bids of one handler. -/
theorem addBid_run (env : Env) (h : HandlerId) (value : BitVec 32) (source : NodeIdentifier)
    (n : Node) : (addBid env h value source).run n = (.error .outOfRange, n) ∨
      ∃ address, (bidAddress env source).run n = (.ok address, n) ∧
        (addBid env h value source).run n = (.ok (), n.modifyHandler h fun handler =>
          { handler with
            bids := BidSet.insert handler.bids (value, address, source.2)
            arrivingBids := handler.arrivingBids + 1 }) := by
  obtain ⟨bytes, type⟩ := source
  cases type with
  | simulation =>
    rcases bytes with _ | ⟨b, rest⟩
    · exact Or.inl rfl
    · exact Or.inr ⟨_, rfl, rfl⟩
  | mac => exact Or.inr ⟨_, rfl, rfl⟩
  | ipv4 => exact Or.inr ⟨_, rfl, rfl⟩
  | ipv6 => exact Or.inr ⟨_, rfl, rfl⟩
  | dds => exact Or.inr ⟨_, rfl, rfl⟩

theorem addBid_ok {value : BitVec 32} (hrun : (addBid env h value source).run n = (.ok (), n')) :
    ∃ address, n' = n.modifyHandler h fun handler =>
      { handler with
        bids := BidSet.insert handler.bids (value, address, source.2)
        arrivingBids := handler.arrivingBids + 1 } := by
  rcases addBid_run env h value source n with he | ⟨address, -, hadd⟩
  · rw [he] at hrun
    cases hrun
  · rw [hadd] at hrun
    cases hrun
    exact ⟨address, rfl⟩

theorem Node.Inv.deliver (hn : n.Inv) (hh : h < n.handlers.length)
    (hrun : (deliver env h message source).run n = (.ok (), n')) :
    n'.Inv ∧ Store.Moves message (timestamp (n.handler h).uuid) n.store n'.store := by
  obtain ⟨r, t, hr, htame, hf, hp⟩ := deliver_filed hn hh rfl env message source
  rw [hr] at hrun
  obtain ⟨rfl, rfl⟩ := Prod.mk.inj hrun
  obtain ⟨hm, hts⟩ := hf.moves hn rfl
  exact ⟨hn.putThread rfl htame hts (hp rfl) (hm.unique hn.unique)
    fun k i hk => hm.find?_eq_some hk, hm⟩

theorem Node.Inv.thread_inv (hn : n.Inv) :
    Thread.Inv (timestamp (n.handler h).uuid) (n.thread h) (n.thread h) := by
  refine ⟨Thread.Frame.refl hn.valid, ?_⟩
  by_cases hh : h < n.handlers.length
  · exact hn.pointer h hh
  · simp only [Node.thread, Node.handler_of_ge (not_lt.mp hh)]
    trivial

theorem Node.Inv.putThread_inv (hn : n.Inv) {t : Thread}
    (ht : Thread.Inv (timestamp (n.handler h).uuid) (n.thread h) t) :
    (Node.putThread t h n).Inv := by
  refine hn.putThread rfl ht.toTame ?_ ht.pointer ?_ ?_
  · rw [ht.uuid]
    rfl
  · rw [ht.store]
    exact hn.unique
  · intro k i hk
    rw [ht.store] at hk
    exact ⟨k, hk, rfl⟩

/-- What a step does to the store. -/
def Store.Step (action : Action) (n : Node) (s' : Store) : Prop :=
  match action with
  | .receive message _ =>
    ∃ s₁, (Store.Renames (timestamp message.uuid) n.store s₁ ∨
        ((∀ k ∈ n.store.keys, timestamp k ≠ timestamp message.uuid) ∧
          s₁ = n.store.assign message.uuid n.handlers.length)) ∧
      Store.Moves message (timestamp message.uuid) s₁ s'
  | .wake _ | .timeout _ _ | .markOrigin _ _ => s' = n.store

theorem Node.Found.renames {id : UUIDv4} {n₁ : Node} (hf : Node.Found id n n₁) (hn : n.Inv) :
    Store.Renames (timestamp id) n.store n₁.store := by
  cases hf with
  | same => exact Or.inl rfl
  | rekeyed hk hts hne => exact hn.renames_rekey hk hts hne

theorem handledUuid_timestamp (hn : n.Inv) (env : Env) (message : Message) :
    timestamp (handledUuid env n message) = timestamp message.uuid := by
  unfold handledUuid
  split_ifs with ho
  · rcases hv : n.translationTable.find? message.uuid with _ | v
    · rfl
    · exact (hn.table _ _ hv).symm
  · rfl

theorem Node.Inv.receive (hn : n.Inv)
    (hrun : (receive env message source).run n = (.ok (), n')) :
    n'.Inv ∧ Store.Step (.receive message source) n n'.store := by
  have hcases := receive_cases hn env message source
  generalize (Rankd.receive env message source).run n = result at hcases hrun
  -- A handler filed under the UUID of the message has its timestamp.
  have hts : ∀ {n₁ : Node} {h : HandlerId}, Node.Found message.uuid n n₁ →
      n₁.store.find? (handledUuid env n message) = some h →
      h < n₁.handlers.length ∧ timestamp (n₁.handler h).uuid = timestamp message.uuid := by
    intro n₁ h hf hk
    obtain ⟨hh, hu⟩ := (hf.inv hn).stored _ _ hk
    exact ⟨hh, hu.trans (handledUuid_timestamp hn env message)⟩
  cases hcases with
  | dropped hf =>
    cases hrun
    exact ⟨hf.inv hn, _, Or.inl (hf.renames hn), Or.inl (Or.inl rfl)⟩
  | stopped hf he => cases hrun
  | bid hf hk hs hr hm =>
    rename_i n₁ h value
    obtain ⟨address, rfl⟩ := addBid_ok hrun
    exact ⟨(hf.inv hn).modifyHandler (fun _ => rfl) fun _ => rfl,
      _, Or.inl (hf.renames hn), Or.inl (Or.inl rfl)⟩
  | resumed hf hk hs hr hq =>
    obtain ⟨hh, hu⟩ := hts hf hk
    obtain ⟨hinv, hm⟩ := (hf.inv hn).deliver hh hrun
    rw [hu] at hm
    exact ⟨hinv, _, Or.inl (hf.renames hn), hm⟩
  | created hfree =>
    have hh : n.handlers.length < (n.created message.uuid).handlers.length := by
      simp [Node.created]
    obtain ⟨hinv, hm⟩ := (hn.created hfree).deliver hh hrun
    rw [Node.handler_created_self] at hm
    exact ⟨hinv, _, Or.inr ⟨hfree, rfl⟩, hm⟩

theorem runThread_run {p : ThreadM Unit} {r : Except Fault Unit}
    (hrun : (runThread h p).run n = (r, n')) :
    ∃ t, p.run (n.thread h) = (r, t) ∧ n' = Node.putThread t h n := by
  rcases hr : p.run (n.thread h) with ⟨r', t⟩
  simp only [runThread, zoom, hr] at hrun
  obtain ⟨rfl, rfl⟩ := Prod.mk.inj hrun
  exact ⟨t, rfl, rfl⟩

/-- An exception of a timer's callback leaves a node that goes on. -/
theorem fireTimeout_run {type : TimeoutType}
    (hrun : (fireTimeout h type).run n = (.ok (), n')) :
    ∃ r, (runThread h (onTimeout type)).run (n.expire h type) = (r, n') := by
  simp only [fireTimeout] at hrun
  rcases hr : (runThread h (onTimeout type)).run (n.expire h type) with ⟨e | _, n₁⟩
  · simp only [hr] at hrun
    by_cases he : e.isException = true
    · rw [if_pos he] at hrun
      cases hrun
      exact ⟨_, rfl⟩
    · rw [if_neg he] at hrun
      cases hrun
  · simp only [hr] at hrun
    cases hrun
    exact ⟨_, rfl⟩

theorem Node.Inv.expire (hn : n.Inv) (h : HandlerId) (type : TimeoutType) : (n.expire h type).Inv :=
  ⟨hn.unique, hn.stored, hn.table, hn.valid, hn.pointer⟩

/-- The callback of a timer stays in its session, whether or not it faults. -/
theorem Node.Inv.callback (hn : n.Inv) {type : TimeoutType} {r : Except Fault Unit} {t : Thread}
    (hrun : (onTimeout type).run (n.thread h) = (r, t)) :
    Thread.Inv (timestamp (n.handler h).uuid) (n.thread h) t := by
  have htriple := onTimeout_keeps type _ (hn.thread_inv (h := h))
  rw [hrun] at htriple
  cases r with
  | ok u => exact htriple
  | error e => exact htriple

theorem Node.Inv.timeout_thread (hn : n.Inv) {type : TimeoutType}
    (hrun : (fireTimeout h type).run n = (.ok (), n')) :
    ∃ t, Thread.Inv (timestamp (n.handler h).uuid) ((n.expire h type).thread h) t ∧
      n' = Node.putThread t h (n.expire h type) := by
  obtain ⟨r, hr⟩ := fireTimeout_run hrun
  obtain ⟨t, ht, rfl⟩ := runThread_run hr
  exact ⟨t, (hn.expire h type).callback ht, rfl⟩

theorem Node.Inv.timeout (hn : n.Inv) {type : TimeoutType}
    (hrun : (fireTimeout h type).run n = (.ok (), n')) : n'.Inv ∧ n'.store = n.store := by
  obtain ⟨t, hinv, rfl⟩ := hn.timeout_thread hrun
  exact ⟨(hn.expire h type).putThread_inv hinv, hinv.store⟩

theorem Node.Inv.wake (hn : n.Inv) (hrun : (runThread h (wake env h)).run n = (.ok (), n')) :
    n'.Inv ∧ n'.store = n.store := by
  obtain ⟨t, ht, rfl⟩ := runThread_run hrun
  have hinv := (wake_keeps env h).ok hn.thread_inv ht
  exact ⟨hn.putThread_inv hinv, hinv.store⟩

/-- **A step keeps the invariant**, and changes the store in the given ways only. -/
theorem Node.Inv.step (hn : n.Inv) {action : Action}
    (hrun : (perform env action).run n = (.ok (), n')) :
    n'.Inv ∧ Store.Step action n n'.store := by
  cases action with
  | receive message source => exact hn.receive hrun
  | wake h => exact hn.wake hrun
  | timeout h type => exact hn.timeout hrun
  | markOrigin uuid pid =>
    cases hrun
    exact ⟨⟨hn.unique, hn.stored, hn.table, hn.valid, hn.pointer⟩, rfl⟩

theorem Node.Reachable.inv {n : Node} (h : n.Reachable) : n.Inv := by
  induction h with
  | refl => exact Node.Inv.initial
  | tail _ hstep ih =>
    obtain ⟨env, action, -, hrun⟩ := hstep
    exact (ih.step hrun).1

end Steps

end Rankd

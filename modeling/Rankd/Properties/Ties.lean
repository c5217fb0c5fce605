import Rankd.Node.Ending
import Rankd.Node.ReplyRun
import Rankd.Properties.Listener

/-!
# The replies to a tie

An auction that ends in a tie asks every winner under a translation of its UUID. The first ACC files
the handler under the original again and goes back to the past node. A REF that comes before it does
not get through (F.1), and one that comes after it closes the handler without a word. So the replies
lead to one ACC and a reserved handler exactly if all of them are ACCs (`tie_resolved_iff`).
-/

namespace Rankd

open Infra Infra.Prog

/-! ## What is expected of the replies -/

/-- A reply to the EAR for one translation. -/
structure Reply where
  env : Env
  accepted : Bool
  version : UInt8
  uuid : UUIDv4
  source : NodeIdentifier

def Reply.message (r : Reply) : Message :=
  if r.accepted then .acc r.version r.uuid else .ref r.version r.uuid

/-- A run in which a node takes the replies one after the other, `none` where one of them faults. -/
def takeReplies : List Reply → Node → Option Node
  | [], n => some n
  | r :: rest, n =>
    match (perform r.env (.receive r.message r.source)).run n with
    | (.ok (), n') => takeReplies rest n'
    | (.error _, _) => none

/-- The message goes to the past node of the reservation, once. -/
def SentBack (x : Reservation) (replies : List Reply) (message : Message) (sends : SendingQueue) :
    Prop :=
  ∃ r ∈ replies, ∃ target, x.pastPort r.env = some target ∧
    sends.filter (·.1 = message) = [(message, target, .simulation)]

/-- With an ACC among the replies: an ACC goes back and no REF, and the session ends RESERVED. -/
structure TieAccepted (u : UUIDv4) (x : Reservation) (replies : List Reply)
    (n n' : Node) : Prop where
  acc : SentBack x replies (newAcc u) (n.sentUntil n')
  noRef : ∀ e ∈ n.sentUntil n', e.1 ≠ newRef u
  reserved : ∃ k i, n'.store.find? k = some i ∧ timestamp k = timestamp u ∧
    (n'.handler i).state = .reserved

/-- Without an ACC among the replies: the last one makes a REF go back, and the
handler is closed. -/
structure TieRefused (h : HandlerId) (u : UUIDv4) (x : Reservation) (replies : List Reply)
    (n n' : Node) : Prop where
  ref : SentBack x replies.getLast?.toList (newRef u) (n.sentUntil n')
  last : ∀ n₁, takeReplies replies.dropLast n = some n₁ → ∀ e ∈ n.sentUntil n₁, e.1 ≠ newRef u
  closed : (n'.handler h).state = .closed

/-- The run over the replies ends as its replies say. -/
def TieResolved (h : HandlerId) (u : UUIDv4) (x : Reservation) (replies : List Reply) (n : Node) :
    Prop :=
  ∃ n', takeReplies replies n = some n' ∧
    ((∃ r ∈ replies, r.accepted = true) → TieAccepted u x replies n n') ∧
    ((∀ r ∈ replies, r.accepted = false) → TieRefused h u x replies n n')

/--
All replies are ACCs. The past node is a neighbour when the first one comes, whose source can be
printed. The UUID and the UUIDs of the ACCs between the first and the last one are not the one that
`is_uuid_in_store` takes for none.
-/
def OnlyAccs (u : UUIDv4) (x : Reservation) (replies : List Reply) : Prop :=
  u ≠ noUuid ∧ (∀ r ∈ replies, r.accepted = true) ∧ ∃ first accepted, replies = first :: accepted ∧
    (x.pastPort first.env).isSome = true ∧ (x.addNextNode first.source).printable = true ∧
    ∀ r ∈ accepted.dropLast, r.uuid ≠ noUuid

/-! ## The session between two replies -/

/-- The translations of `u` that are still to be answered. -/
structure Node.Owed (u : UUIDv4) (translations : List UUIDv4) (n : Node) : Prop where
  reachable : n.Reachable
  origin : ∀ k ∈ n.originSet.keys, timestamp k ≠ timestamp u
  nodup : translations.Nodup
  table : ∀ v ∈ translations, n.translationTable.find? v = some u
  original : n.translationTable.find? u = none

/-- Before the first ACC: the handler of the auction holds the pre-reservation of the session. -/
structure Node.Waits (h : HandlerId) (u : UUIDv4) (x : Reservation) (n : Node) : Prop where
  sole : ∃ a w, n.resources.Sole (timestamp u) a (x.setUuid w)
  filed : n.store.find? u = some h
  state : (n.handler h).state = .preReserved
  idle : (n.handler h).running = false

/-- After an ACC: a reserved handler is filed under `k`. -/
structure Node.Grants (u k : UUIDv4) (n : Node) : Prop where
  sole : ∃ a y, n.resources.Sole (timestamp u) a y ∧ y.state = .reserved
  filed : ∃ i, n.store.find? k = some i ∧ (n.handler i).state = .reserved ∧
    (n.handler i).running = false
  session : timestamp k = timestamp u

/-- The handler of the session is not reserved, and no reply will change that. -/
def Node.Doomed (T : Nat) (n : Node) : Prop :=
  ∃ k i, n.store.find? k = some i ∧ timestamp k = T ∧ (n.handler i).state ≠ .reserved ∧
    ((n.handler i).state = .closed ∨
      ∃ a y, n.resources.Sole T a y ∧ y.state = .reserved)

section Phases

variable {u v k : UUIDv4} {x : Reservation} {vs : List UUIDv4} {n n' : Node} {r : Reply}

theorem Reply.uuid_message (r : Reply) : r.message.uuid = r.uuid := by
  unfold Reply.message
  split_ifs <;> rfl

theorem Reply.not_requesting (r : Reply) : requestingMessage r.message = false := by
  unfold Reply.message
  split_ifs <;> rfl

theorem Reply.not_listener (r : Reply) (n : Node) :
    (listenerOfMessage r.env r.message).run n = (.ok false, n) := by
  unfold Reply.message
  split_ifs <;> rfl

theorem Node.Owed.timestamp_eq (ho : n.Owed u vs) (hv : v ∈ vs) : timestamp v = timestamp u :=
  ho.reachable.inv.table v u (ho.table v hv)

/-- A translation is not its original. -/
theorem Node.Owed.ne (ho : n.Owed u vs) (hv : v ∈ vs) : u ≠ v := by
  rintro rfl
  have htable := ho.table _ hv
  rw [ho.original] at htable
  cases htable

/-- The node is not the origin of the session. -/
theorem Node.Owed.not_origin (ho : n.Owed u vs) (hv : v ∈ vs) (env : Env) :
    iAmOrigin env n v = false := by
  rw [iAmOrigin, List.any_eq_false]
  intro k hk hsame
  exact ho.origin k hk ((isSameTimestamp_iff.mp hsame).trans (ho.timestamp_eq hv))

/-- The codes of the reservations are zero. -/
theorem Node.Owed.known {T a : Nat} {y : Reservation} (ho : n.Owed u vs)
    (hy : n.resources.Sole T a y) : y.listenerLength ≤ 7 := by
  have hcode : y.listenerLength = 0 :=
    ((Node.Reachable.listens ho.reachable 0 0).session.listed _ hy.mem.1).code
  rw [hcode]
  decide

/-- What is left when a reply was taken. -/
theorem Node.Owed.step (ho : n.Owed u (r.uuid :: vs))
    (hrun : (perform r.env (.receive r.message r.source)).run n = (.ok (), n'))
    (horigin : n'.originSet = n.originSet)
    (htable : ∀ w, w ≠ r.uuid → n'.translationTable.find? w = n.translationTable.find? w) :
    n'.Owed u vs where
  reachable := ho.reachable.tail ⟨r.env, .receive r.message r.source, trivial, hrun⟩
  origin := by
    rw [horigin]
    exact ho.origin
  nodup := (List.nodup_cons.mp ho.nodup).2
  table := by
    intro w hw
    have hne : w ≠ r.uuid := by
      rintro rfl
      exact (List.nodup_cons.mp ho.nodup).1 hw
    rw [htable w hne]
    exact ho.table w (List.mem_cons_of_mem _ hw)
  original := by
    rw [htable u (ho.ne List.mem_cons_self)]
    exact ho.original

end Phases

/-! ## Handing a reply over -/

/-- The node as the handler `i` finds it when it takes a reply for the translation `v`. -/
structure Node.Handing (v : UUIDv4) (i : HandlerId) (n n₁ : Node) : Prop where
  inv : n₁.Inv
  filed : n₁.store.find? v = some i
  uuid : (n₁.handler i).uuid = v
  resources : n₁.resources = n.resources
  table : n₁.translationTable = n.translationTable
  originSet : n₁.originSet = n.originSet
  sendingMessages : n₁.sendingMessages = n.sendingMessages

section Lookups

variable {u v k : UUIDv4} {x : Reservation} {vs : List UUIDv4} {n : Node} {r : Reply}
  {i : HandlerId}

theorem Node.Handing.rekey (hn : n.Inv) (hk : n.store.find? k = some i)
    (hts : timestamp k = timestamp v) (hne : k ≠ v) : Node.Handing v i n (n.rekey k v) where
  inv := hn.rekey hk hts hne
  filed := by rw [Node.find?_rekey hk hne, if_pos rfl]
  uuid := by rw [Node.handler_rekey_self hk (hn.stored k i hk).1]
  resources := Node.resources_rekey
  table := Node.translationTable_rekey
  originSet := by
    rw [Node.rekey_eq hk]
    rfl
  sendingMessages := by
    rw [Node.rekey_eq hk]
    rfl

/-- The lookup of a reply re-keys the session, unless its key is the one that is taken for none. -/
theorem Reply.lookedUp (hn : n.Inv) (hk : n.store.find? k = some i)
    (hts : timestamp k = timestamp r.uuid) (horigin : iAmOrigin r.env n r.uuid = false) :
    n.lookedUp r.env r.message = if k = r.uuid ∨ k = noUuid then n else n.rekey k r.uuid := by
  have hlistener : decide (((listenerOfMessage r.env r.message).run n).1 = .ok true) = false := by
    rw [r.not_listener n]
    rfl
  unfold Node.lookedUp
  rw [r.uuid_message, horigin, hlistener, Bool.or_false, knownSession, if_neg Bool.false_ne_true,
    isUuidInStore_run hn.unique (OrdMap.mem_keys.mpr ⟨i, hk⟩) hts]

theorem Reply.receive_run (hn : n.Inv) (hk : n.store.find? k = some i)
    (hts : timestamp k = timestamp r.uuid) (horigin : iAmOrigin r.env n r.uuid = false) :
    (perform r.env (.receive r.message r.source)).run n =
      (receiveKnown r.env r.uuid r.message r.source).run (n.lookedUp r.env r.message) := by
  have hts' : timestamp k = timestamp r.message.uuid := by rw [hts, r.uuid_message]
  obtain ⟨-, -, hreceive⟩ :=
    receive_stored hn (OrdMap.mem_keys.mpr ⟨i, hk⟩) hts' (r.not_listener n) r.source
  have hhandled : handledUuid r.env n r.message = r.uuid := by
    rw [handledUuid, r.uuid_message, horigin, Bool.false_and, if_neg Bool.false_ne_true]
  have hq : ¬requestingMessage r.message = true := by
    rw [r.not_requesting]
    exact Bool.false_ne_true
  show (receive r.env r.message r.source).run n = _
  rw [hreceive, if_neg hq, Bool.false_and, if_neg Bool.false_ne_true, hhandled]

/-- A reply for the handler of the session. -/
theorem Reply.receive_filed (hn : n.Inv) (hk : n.store.find? k = some i)
    (hts : timestamp k = timestamp r.uuid) (horigin : iAmOrigin r.env n r.uuid = false)
    (hne : k ≠ r.uuid) (hno : k ≠ noUuid) (hr : (n.handler i).running = false)
    (hs : (n.handler i).state.resumable = true) :
    (perform r.env (.receive r.message r.source)).run n =
      (deliver r.env i r.message r.source).run (n.rekey k r.uuid) := by
  have hh := Node.Handing.rekey hn hk hts hne
  have hself : (n.rekey k r.uuid).handler i = { n.handler i with uuid := r.uuid } :=
    Node.handler_rekey_self hk (hn.stored k i hk).1
  have hidle : ¬((n.rekey k r.uuid).handler i).running = true := by
    rw [hself, hr]
    exact Bool.false_ne_true
  have hopen : ((n.rekey k r.uuid).handler i).state.resumable = true := by
    rw [hself]
    exact hs
  have hkey : ¬(k = r.uuid ∨ k = noUuid) := by
    rintro (h | h)
    · exact hne h
    · exact hno h
  rw [Reply.receive_run hn hk hts horigin, Reply.lookedUp hn hk hts horigin, if_neg hkey,
    receiveKnown_run hh.inv.unique hh.filed, if_neg hidle, if_pos hopen]

/-- A session under the UUID that is taken for none is found, and then it is not. -/
theorem Reply.receive_lost (hn : n.Inv) (hk : n.store.find? k = some i)
    (hts : timestamp k = timestamp r.uuid) (horigin : iAmOrigin r.env n r.uuid = false)
    (hne : k ≠ r.uuid) (hno : k = noUuid) :
    (perform r.env (.receive r.message r.source)).run n = (.error .outOfRange, n) := by
  have hfind : n.store.find? r.uuid = none := by
    rcases hf : n.store.find? r.uuid with _ | j
    · rfl
    · refine absurd (hn.unique k (OrdMap.mem_keys.mpr ⟨i, hk⟩) r.uuid ?_ hts) hne
      exact OrdMap.mem_keys.mpr ⟨j, hf⟩
  have hat : (storeAt r.uuid).run n = (.error .outOfRange, n) := by
    simp only [storeAt, run_bind, run_get, hfind, require_none, run_fault]
  rw [Reply.receive_run hn hk hts horigin, Reply.lookedUp hn hk hts horigin, if_pos (Or.inr hno),
    receiveKnown, bind_error hat]

/-- Before the first ACC a reply is handed to a handler that is not reserved. -/
theorem Node.Waits.handing (hw : n.Waits i u x) (ho : n.Owed u (r.uuid :: vs)) (hu : u ≠ noUuid) :
    ∃ n₁, Node.Handing r.uuid i n n₁ ∧ (n₁.handler i).state ≠ .reserved ∧
      (perform r.env (.receive r.message r.source)).run n =
        (deliver r.env i r.message r.source).run n₁ := by
  have hn := ho.reachable.inv
  have hts : timestamp u = timestamp r.uuid := (ho.timestamp_eq List.mem_cons_self).symm
  have hne := ho.ne List.mem_cons_self
  refine ⟨_, .rekey hn hw.filed hts hne, ?_, ?_⟩
  · rw [Node.handler_rekey_self hw.filed (hn.stored u i hw.filed).1, hw.state]
    nofun
  · refine Reply.receive_filed hn hw.filed hts (ho.not_origin List.mem_cons_self r.env) hne hu
      hw.idle ?_
    rw [hw.state]
    rfl

end Lookups

/-! ## The rounds of the replies -/

section Rounds

variable {u : UUIDv4} {x : Reservation} {vs : List UUIDv4} {n n₁ n' : Node} {r : Reply}
  {i : HandlerId} {a : Nat} {w : UUIDv4}

/-- The thread that takes the reply, with the reservation of its session. -/
def Node.replying (r : Reply) (i : HandlerId) (a : Nat) (x : Reservation) (n : Node) : Thread :=
  (n.startThread i r.message r.source).loaded (n.resources.put a (x.setUuid r.uuid)) (.listed a)

/-- How a round for a reply begins. -/
structure Node.Replying (u : UUIDv4) (r : Reply) (i : HandlerId) (a : Nat) (x : Reservation)
    (n₁ : Node) : Prop where
  load : (loadReservation r.env).run (n₁.startThread i r.message r.source) =
    (.ok (), n₁.replying r i a x)
  check : checkReservation.run (n₁.replying r i a x) = (.ok (), n₁.replying r i a x)
  sole : (n₁.replying r i a x).resources.Sole (timestamp u) a (x.setUuid r.uuid)
  uuid : (n₁.replying r i a x).self.uuid = r.uuid
  filed : (n₁.replying r i a x).store.find? r.uuid = some i
  table : (n₁.replying r i a x).translationTable.find? r.uuid = some u
  state : (n₁.replying r i a x).self.state = (n₁.handler i).state
  source : r.accepted = true → (n₁.replying r i a x).self.sourceIdentifier = r.source
  lt : i < n₁.handlers.length

theorem Node.Handing.replying (hh : Node.Handing r.uuid i n n₁) (ho : n.Owed u (r.uuid :: vs))
    (hsole : n.resources.Sole (timestamp u) a (x.setUuid w)) : n₁.Replying u r i a x := by
  have hu : (n₁.startThread i r.message r.source).self.uuid = r.uuid :=
    Node.startThread_uuid.trans hh.uuid
  have hT : timestamp r.uuid = timestamp u := ho.timestamp_eq List.mem_cons_self
  have hsole₁ : (n₁.startThread i r.message r.source).resources.Sole (timestamp u) a
      (x.setUuid w) := by
    rw [← hh.resources] at hsole
    exact hsole
  have hload : (loadReservation r.env).run (n₁.startThread i r.message r.source) = _ :=
    loadReservation_sole hsole₁ (by rw [hu]; exact hT)
  rw [hu] at hload
  have hput : (n₁.replying r i a x).resources.Sole (timestamp u) a (x.setUuid r.uuid) :=
    hsole₁.put hT
  refine ⟨hload, ?_, hput, hu, hh.filed, ?_, ?_, ?_, (hh.inv.stored _ _ hh.filed).1⟩
  · have hknown : (x.setUuid w).listenerLength ≤ 7 := ho.known hsole
    exact checkReservation_sole hput rfl hknown
  · show n₁.translationTable.find? r.uuid = some u
    rw [hh.table]
    exact ho.table r.uuid List.mem_cons_self
  · cases hm : r.message <;>
      simp [Node.replying, Node.startThread, hm, acceptMessage, Thread.loaded]
  · intro hacc
    simp [Node.replying, Node.startThread, Reply.message, hacc, acceptMessage, Thread.loaded]

/-- (F.1) A REF for a pre-reservation does not get through. -/
theorem Node.Replying.refused (hr : n₁.Replying u r i a x) (hx : x.state = .preReserved)
    (hacc : r.accepted = false) :
    (deliver r.env i r.message r.source).run n₁ ≠ (.ok (), n') := by
  intro hrun
  have hm : r.message = .ref r.version r.uuid := by simp [Reply.message, hacc]
  have hfiled : (n₁.replying r i a x).store.find? (n₁.replying r i a x).self.uuid = some i := by
    rw [hr.uuid]
    exact hr.filed
  rcases hcall : (operatorCall r.env i (n₁.accepting i r.message r.source).handlers r.message).run
    (n₁.startThread i r.message r.source) with ⟨result, t⟩
  rw [deliver_run hr.lt hcall] at hrun
  obtain ⟨rfl, -⟩ := Prod.mk.inj hrun
  obtain ⟨exit, t₂, hbranch, -⟩ := operatorCall_ok hr.load hcall
  rw [hm, messageSwitch, refBranch,
    bind_error (refErase_faults hfiled rfl hr.sole.lookup hx)] at hbranch
  cases hbranch

/-- An ACC before the first one is answered by whether it can be sent on. -/
theorem Node.Replying.switch (hr : n₁.Replying u r i a x) (hx : x.state = .preReserved)
    (hs : (n₁.handler i).state ≠ .reserved) (hacc : r.accepted = true) :
    (messageSwitch r.env i (n₁.accepting i r.message r.source).handlers r.message).run
        (n₁.replying r i a x) =
      (accRelay r.env).run ((n₁.replying r i a x).rekeyed a (x.setUuid r.uuid) u) ∧
      ((n₁.replying r i a x).rekeyed a (x.setUuid r.uuid) u).resources.Sole (timestamp u) a
        { x.setUuid r.uuid with state := .reserved } := by
  have hm : r.message = .acc r.version r.uuid := by simp [Reply.message, hacc]
  have htable : (n₁.replying r i a x).translationTable.find? (n₁.replying r i a x).self.uuid =
      some u := by
    rw [hr.uuid]
    exact hr.table
  have hfiled : (n₁.replying r i a x).store.contains (n₁.replying r i a x).self.uuid = true := by
    rw [hr.uuid, OrdMap.contains_iff]
    exact ⟨i, hr.filed⟩
  have hbranch : (accBranch r.env).run (n₁.replying r i a x) = _ ∧ _ :=
    accBranch_translated hr.sole rfl hx (by rw [hr.state]; exact hs) htable hfiled
  obtain ⟨hbranch, hsole, -⟩ := hbranch
  refine ⟨?_, hsole⟩
  rw [← hbranch, hm]
  rfl

/-- (E.2) The first ACC goes back, if the past node is a neighbour. -/
theorem Node.Replying.accepted {target : Bytes} (hr : n₁.Replying u r i a x)
    (hx : x.state = .preReserved) (hs : (n₁.handler i).state ≠ .reserved)
    (hacc : r.accepted = true) (hport : x.pastPort r.env = some target)
    (hprint : (x.addNextNode r.source).printable = true) :
    ∃ n', (deliver r.env i r.message r.source).run n₁ = (.ok (), n') ∧
      n'.store = n₁.store.rename r.uuid u ∧
      (∃ y, n'.resources.Sole (timestamp u) a y ∧ y.state = .reserved) ∧
      n'.translationTable = n₁.translationTable ∧ n'.originSet = n₁.originSet ∧
      n'.sendingMessages = n₁.sendingMessages ++ [(newAcc u, target, .simulation)] ∧
      (n'.handler i).state = .reserved ∧ (n'.handler i).running = false := by
  obtain ⟨hswitch, hsole⟩ := hr.switch hx hs hacc
  have hsource := hr.source hacc
  rw [accRelay_run hsole rfl hport (by rw [← hsource] at hprint; exact hprint)] at hswitch
  refine ⟨_, deliver_run hr.lt (operatorCall_run hr.load hr.check hswitch), ?_,
    ⟨_, hsole.put hsole.mem.2, rfl⟩, rfl, rfl, rfl, ?_, ?_⟩
  · show n₁.store.rename (n₁.replying r i a x).self.uuid u = _
    rw [hr.uuid]
  · rw [Node.handler_putThread_self hr.lt]
    rfl
  · rw [Node.handler_putThread_self hr.lt]
    rfl

/-- An ACC that cannot be sent on leaves the reservation marked under a handler that is not. -/
theorem Node.Replying.stuck (hr : n₁.Replying u r i a x) (hx : x.state = .preReserved)
    (hs : (n₁.handler i).state ≠ .reserved) (hacc : r.accepted = true)
    (hno : ¬((x.pastPort r.env).isSome = true ∧ (x.addNextNode r.source).printable = true))
    (hrun : (deliver r.env i r.message r.source).run n₁ = (.ok (), n')) :
    n'.store = n₁.store.rename r.uuid u ∧ (n'.handler i).state ≠ .reserved ∧
      ∃ y, n'.resources.Sole (timestamp u) a y ∧ y.state = .reserved := by
  rcases hcall : (operatorCall r.env i (n₁.accepting i r.message r.source).handlers r.message).run
    (n₁.startThread i r.message r.source) with ⟨result, t⟩
  rw [deliver_run hr.lt hcall] at hrun
  obtain ⟨rfl, rfl⟩ := Prod.mk.inj hrun
  obtain ⟨exit, t₂, hbranch, rfl⟩ := operatorCall_ok hr.load hcall
  obtain ⟨hswitch, hsole⟩ := hr.switch hx hs hacc
  rw [hswitch] at hbranch
  obtain ⟨rfl, ⟨target, hport, hprint, -⟩ | ⟨-, rfl⟩⟩ := accRelay_ok hsole rfl hbranch
  · refine absurd ⟨?_, ?_⟩ hno
    · have hsome : x.pastPort r.env = some target := hport
      rw [hsome]
      rfl
    · rw [← hr.source hacc]
      exact hprint
  · refine ⟨?_, ?_, _, hsole, rfl⟩
    · show n₁.store.rename (n₁.replying r i a x).self.uuid u = _
      rw [hr.uuid]
    · rw [Node.handler_putThread_self hr.lt]
      have hstate := hr.state
      intro h
      exact hs (hstate.symm.trans h)

end Rounds

/-! ## The steps of the replies -/

section Replies

variable {u k : UUIDv4} {x : Reservation} {vs : List UUIDv4} {n n' : Node} {r : Reply} {T : Nat}
  {i : HandlerId}

/-- The original is not filed while one of its translations is. -/
theorem Node.Handing.original_free {n₁ : Node} (hh : Node.Handing r.uuid i n n₁)
    (ho : n.Owed u (r.uuid :: vs)) : n₁.store.find? u = none := by
  rcases hf : n₁.store.find? u with _ | j
  · rfl
  · refine absurd (hh.inv.unique u (OrdMap.mem_keys.mpr ⟨j, hf⟩) r.uuid ?_ ?_)
      (ho.ne List.mem_cons_self)
    · exact OrdMap.mem_keys.mpr ⟨i, hh.filed⟩
    · exact (ho.timestamp_eq List.mem_cons_self).symm

/-- **A REF before the first ACC** ends the run. -/
theorem Node.Waits.refused (hw : n.Waits i u x) (ho : n.Owed u (r.uuid :: vs)) (hu : u ≠ noUuid)
    (hx : x.state = .preReserved) (hacc : r.accepted = false) :
    (perform r.env (.receive r.message r.source)).run n ≠ (.ok (), n') := by
  obtain ⟨n₁, hh, -, hperform⟩ := hw.handing ho hu
  obtain ⟨a, w, hsole⟩ := hw.sole
  rw [hperform]
  exact (hh.replying ho hsole).refused hx hacc

/-- **The first ACC** goes back to the past node, and a reserved handler is filed under `u`. -/
theorem Node.Waits.accepted {target : Bytes} (hw : n.Waits i u x) (ho : n.Owed u (r.uuid :: vs))
    (hu : u ≠ noUuid) (hx : x.state = .preReserved) (hacc : r.accepted = true)
    (hport : x.pastPort r.env = some target) (hprint : (x.addNextNode r.source).printable = true) :
    ∃ n', (perform r.env (.receive r.message r.source)).run n = (.ok (), n') ∧
      n'.Grants u u ∧ n'.Owed u vs ∧
      n'.sendingMessages = n.sendingMessages ++ [(newAcc u, target, .simulation)] := by
  obtain ⟨n₁, hh, hs, hperform⟩ := hw.handing ho hu
  obtain ⟨a, w, hsole⟩ := hw.sole
  obtain ⟨n', hrun, hstore, ⟨y, hy⟩, htable, horigin, hsends, hstate, hidle⟩ :=
    (hh.replying ho hsole).accepted hx hs hacc hport hprint
  rw [← hperform] at hrun
  refine ⟨n', hrun, ⟨⟨a, y, hy⟩, ⟨i, ?_, hstate, hidle⟩, rfl⟩, ?_, ?_⟩
  · rw [hstore, OrdMap.find?_rename hh.filed (Or.inr (hh.original_free ho)), if_pos rfl]
  · refine ho.step hrun (horigin.trans hh.originSet) ?_
    intro v hv
    rw [htable, hh.table]
  · rw [hsends, hh.sendingMessages]

/-- A first ACC that cannot be sent on. -/
theorem Node.Waits.stuck (hw : n.Waits i u x) (ho : n.Owed u (r.uuid :: vs)) (hu : u ≠ noUuid)
    (hx : x.state = .preReserved) (hacc : r.accepted = true)
    (hno : ¬((x.pastPort r.env).isSome = true ∧ (x.addNextNode r.source).printable = true))
    (hrun : (perform r.env (.receive r.message r.source)).run n = (.ok (), n')) :
    n'.Doomed (timestamp u) := by
  obtain ⟨n₁, hh, hs, hperform⟩ := hw.handing ho hu
  obtain ⟨a, w, hsole⟩ := hw.sole
  rw [hperform] at hrun
  obtain ⟨hstore, hstate, y, hy⟩ := (hh.replying ho hsole).stuck hx hs hacc hno hrun
  refine ⟨u, i, ?_, rfl, hstate, Or.inr ⟨a, y, hy⟩⟩
  rw [hstore, OrdMap.find?_rename hh.filed (Or.inr (hh.original_free ho)), if_pos rfl]

/-- **A second ACC** files the reserved handler under its translation. -/
theorem Node.Grants.accepted (hg : n.Grants u k) (ho : n.Owed u (r.uuid :: vs)) (hk : k ≠ r.uuid)
    (hno : k ≠ noUuid) (hacc : r.accepted = true) :
    ∃ n', (perform r.env (.receive r.message r.source)).run n = (.ok (), n') ∧
      n'.Grants u r.uuid ∧ n'.Owed u vs ∧ n'.sendingMessages = n.sendingMessages := by
  obtain ⟨i, hi, hs, hidle⟩ := hg.filed
  obtain ⟨a, y, hsole, hy⟩ := hg.sole
  have hn := ho.reachable.inv
  have hts := hg.session.trans (ho.timestamp_eq List.mem_cons_self).symm
  have hh := Node.Handing.rekey hn hi hts hk
  have hr := hh.replying ho (x := y) (w := y.uuid) hsole
  have hself : (n.rekey k r.uuid).handler i = { n.handler i with uuid := r.uuid } :=
    Node.handler_rekey_self hi (hn.stored k i hi).1
  have hstate : ((n.rekey k r.uuid).replying r i a y).self.state = .reserved := by
    rw [hr.state, hself]
    exact hs
  have hswitch : (messageSwitch r.env i ((n.rekey k r.uuid).accepting i r.message r.source).handlers
      r.message).run ((n.rekey k r.uuid).replying r i a y) =
        (.ok .breaks, ((n.rekey k r.uuid).replying r i a y).stopped) := by
    have hm : r.message = .acc r.version r.uuid := by simp [Reply.message, hacc]
    rw [← accBranch_repeated hstate, hm]
    rfl
  have hrun := deliver_run hr.lt (operatorCall_run hr.load hr.check hswitch)
  rw [← Reply.receive_filed hn hi hts (ho.not_origin List.mem_cons_self r.env) hk hno hidle
    (by rw [hs]; rfl)] at hrun
  refine ⟨_, hrun, ⟨⟨a, _, hr.sole, hy⟩, ⟨i, hh.filed, ?_, ?_⟩, ?_⟩, ?_, hh.sendingMessages⟩
  · rw [Node.handler_putThread_self hr.lt]
    exact hstate
  · rw [Node.handler_putThread_self hr.lt]
    rfl
  · exact ho.timestamp_eq List.mem_cons_self
  · refine ho.step hrun hh.originSet ?_
    intro v hv
    exact congrArg (fun table : OrdMap UUIDv4 UUIDv4 => table.find? v) hh.table

/-- **A REF after an ACC** closes the handler. -/
theorem Node.Grants.refused (hg : n.Grants u k) (ho : n.Owed u (r.uuid :: vs)) (hk : k ≠ r.uuid)
    (hno : k ≠ noUuid) (hacc : r.accepted = false)
    (hrun : (perform r.env (.receive r.message r.source)).run n = (.ok (), n')) :
    n'.Doomed (timestamp u) := by
  obtain ⟨i, hi, hs, hidle⟩ := hg.filed
  obtain ⟨a, y, hsole, hy⟩ := hg.sole
  have hn := ho.reachable.inv
  have hts := hg.session.trans (ho.timestamp_eq List.mem_cons_self).symm
  have hh := Node.Handing.rekey hn hi hts hk
  have hr := hh.replying ho (x := y) (w := y.uuid) hsole
  have horiginal : (n.rekey k r.uuid).translationTable.find? u = none := by
    rw [hh.table]
    exact ho.original
  have hswitch : (messageSwitch r.env i ((n.rekey k r.uuid).accepting i r.message r.source).handlers
      r.message).run ((n.rekey k r.uuid).replying r i a y) = (.ok .breaks,
        ((((n.rekey k r.uuid).replying r i a y).untranslated u).inState .closed).stopped) := by
    have hm : r.message = .ref r.version r.uuid := by simp [Reply.message, hacc]
    have hkept : (refErase i ((n.rekey k r.uuid).accepting i r.message r.source).handlers).run
        ((n.rekey k r.uuid).replying r i a y) = (.ok (), (n.rekey k r.uuid).replying r i a y) := by
      refine refErase_kept ?_ (Or.inr ⟨a, _, rfl, hr.sole.lookup, ?_⟩)
      · intro j hj
        rw [hr.uuid, hr.filed] at hj
        exact (Option.some.inj hj).symm
      · show y.state ≠ .preReserved
        rw [hy]
        simp
    rw [hm, messageSwitch, refBranch, ← hm, bind_ok hkept]
    refine refReply_translated ?_ horiginal
    rw [hr.uuid]
    exact hr.table
  have hdeliver := deliver_run hr.lt (operatorCall_run hr.load hr.check hswitch)
  rw [← Reply.receive_filed hn hi hts (ho.not_origin List.mem_cons_self r.env) hk hno hidle
    (by rw [hs]; rfl), hrun] at hdeliver
  obtain ⟨-, rfl⟩ := Prod.mk.inj hdeliver
  have hclosed : ∀ t : Thread, t.self.state = .closed →
      ((Node.putThread t i (n.rekey k r.uuid)).handler i).state = .closed := by
    intro t ht
    rw [Node.handler_putThread_self hr.lt, ht]
  refine ⟨r.uuid, i, hh.filed, ho.timestamp_eq List.mem_cons_self, ?_, Or.inl (hclosed _ rfl)⟩
  rw [hclosed _ rfl]
  simp

/-- Nothing but a fault comes out of a reply for a session whose key is the one taken for none. -/
theorem Node.Grants.lost (hg : n.Grants u k) (ho : n.Owed u (r.uuid :: vs)) (hk : k ≠ r.uuid)
    (hno : k = noUuid) : (perform r.env (.receive r.message r.source)).run n ≠ (.ok (), n') := by
  obtain ⟨i, hi, -⟩ := hg.filed
  have hts := hg.session.trans (ho.timestamp_eq List.mem_cons_self).symm
  rw [Reply.receive_lost ho.reachable.inv hi hts (ho.not_origin List.mem_cons_self r.env) hk hno]
  nofun

/-- A reply for a handler that is not reserved, over a reservation that is. -/
theorem operatorCall_late {t t' : Thread} {a : Nat} {y : Reservation} {me : HandlerId}
    {peers : List Handler} (hsole : t.resources.Sole T a y) (hy : y.state = .reserved)
    (hT : timestamp t.self.uuid = T) (hs : t.self.state ≠ .reserved)
    (hrun : (operatorCall r.env me peers r.message).run t = (.ok (), t')) :
    t'.store = t.store ∧ (t'.self.state = .closed ∨ t'.self.state = t.self.state) ∧
      ∃ z, t'.resources.Sole T a z ∧ z.state = .reserved := by
  have hput := hsole.put (y := y.setUuid t.self.uuid) hT
  obtain ⟨exit, t₂, hswitch, rfl⟩ := operatorCall_ok (loadReservation_sole hsole hT) hrun
  rcases hacc : r.accepted with _ | _
  · have hm : r.message = .ref r.version r.uuid := by simp [Reply.message, hacc]
    rw [hm, messageSwitch] at hswitch
    obtain ⟨rfl, hans⟩ := refBranch_ok
      (t := t.loaded (t.resources.put a (y.setUuid t.self.uuid)) (.listed a)) hswitch
    refine ⟨hans.store, hans.state, y.setUuid t.self.uuid, ?_, hy⟩
    show t₂.resources.Sole T a _
    rw [hans.resources]
    exact hput
  · have hm : r.message = .acc r.version r.uuid := by simp [Reply.message, hacc]
    have hcreated : (y.setUuid t.self.uuid).state ≠ .created := by
      show y.state ≠ .created
      rw [hy]
      simp
    rw [hm, messageSwitch] at hswitch
    obtain ⟨-, hpre, -⟩ := accBranch_ok (t := t.loaded _ _) hput rfl hcreated hs hswitch
    have hpre' : y.state = .preReserved := hpre
    rw [hy] at hpre'
    cases hpre'

/-- **A session that is lost stays lost.** -/
theorem Node.Doomed.step (hd : n.Doomed T) (hn : n.Inv) (hT : timestamp r.uuid = T)
    (hrun : (perform r.env (.receive r.message r.source)).run n = (.ok (), n')) : n'.Doomed T := by
  obtain ⟨k, i, hk, hkT, hs, hwhy⟩ := hd
  generalize haction : Action.receive r.message r.source = action at hrun
  generalize hresult : (Except.ok () : Except Fault Unit) = result at hrun
  cases hn.stepped hrun with
  | dropped hf =>
    cases haction
    obtain ⟨j, hj, hjT⟩ := (hf.renames hn).find?_of_eq_some hk
    obtain ⟨w, hw, -⟩ := hf.handler hn i
    refine ⟨j, i, hj, hjT.trans hkT, ?_, ?_⟩
    · rw [hw]
      exact hs
    · rw [hw, hf.resources]
      exact hwhy
  | stopped => cases hresult
  | bid hf hfind hstate hr hb =>
    cases haction
    -- an ACC or a REF is no BID
    obtain ⟨v, w, hm⟩ := hb.value
    unfold Reply.message at hm
    split_ifs at hm
  | round hh hcall =>
    rename_i message source n₁ h t
    cases haction
    cases hresult
    -- the round is one of the handler of the session
    obtain ⟨j, hj⟩ := hh.stored
    obtain ⟨l, hl⟩ := hh.find? hn hk
    have hn₁ := hh.inv hn
    obtain ⟨-, w, hw, hwT⟩ := hh.handler hn (hn.stored k i hk).1
    have hsession : timestamp (n₁.handler h).uuid = T := by
      rw [hh.timestamp_eq hn, r.uuid_message, hT]
    have hiT : timestamp (n₁.handler i).uuid = T := by
      rw [hw, hwT, (hn.stored k i hk).2, hkT]
    obtain rfl : i = h := hn₁.eq_of_stored hl hj (hiT.trans hsession.symm)
    have hstate : (n₁.handler i).state = (n.handler i).state := by rw [hw]
    have hopen := hh.resumable
    rcases hwhy with hclosed | ⟨a, y, hsole, hy⟩
    · rw [hstate, hclosed] at hopen
      cases hopen
    rw [← hh.resources] at hsole
    have huT : timestamp (n₁.startThread i r.message r.source).self.uuid = T := by
      rw [Node.startThread_uuid, hsession]
    have hself : (n₁.startThread i r.message r.source).self.state = (n.handler i).state := by
      rw [← hstate]
      cases r.message <;> rfl
    obtain ⟨hstore, hend, z, hz, hzs⟩ :=
      operatorCall_late hsole hy huT (by rw [hself]; exact hs) hcall
    have hput : (Node.putThread t i n₁).handler i = t.self :=
      Node.handler_putThread_self (hn₁.stored l i hl).1
    refine ⟨l, i, hstore ▸ hl, ?_, ?_, Or.inr ⟨a, z, hz, hzs⟩⟩
    · rw [← (hn₁.stored l i hl).2, hiT]
    · rw [hput]
      rcases hend with hend | hend
      · rw [hend]
        nofun
      · rw [hend, hself]
        exact hs
  | woken => cases haction
  | fired => cases haction
  | marked => cases haction

end Replies

/-! ## Runs of replies -/

section Runs

variable {u k : UUIDv4} {x : Reservation} {n n' : Node} {r : Reply} {rest replies : List Reply}
  {T : Nat} {h : HandlerId}

theorem takeReplies_cons (hrun : (perform r.env (.receive r.message r.source)).run n =
    (.ok (), n')) :
    takeReplies (r :: rest) n = takeReplies rest n' := by
  simp only [takeReplies, hrun]

theorem takeReplies_cons_some (hrun : takeReplies (r :: rest) n = some n') :
    ∃ n₁, (perform r.env (.receive r.message r.source)).run n = (.ok (), n₁) ∧
      takeReplies rest n₁ = some n' := by
  rcases hr : (perform r.env (.receive r.message r.source)).run n with ⟨_ | _, n₁⟩
  · simp only [takeReplies, hr] at hrun
    cases hrun
  · refine ⟨n₁, rfl, ?_⟩
    rw [takeReplies_cons hr] at hrun
    exact hrun

/-- **A run of ACCs after the first one** sends nothing and keeps the handler reserved. -/
theorem Node.Grants.acceptances (hg : n.Grants u k) (ho : n.Owed u (replies.map (·.uuid)))
    (hk : k ∉ replies.map (·.uuid)) (hacc : ∀ r ∈ replies, r.accepted = true)
    (hno : ∀ w ∈ (k :: replies.map (·.uuid)).dropLast, w ≠ noUuid) :
    ∃ n' k', takeReplies replies n = some n' ∧ n'.Grants u k' ∧
      n'.sendingMessages = n.sendingMessages := by
  induction replies generalizing n k with
  | nil => exact ⟨n, k, rfl, hg, rfl⟩
  | cons r rest ih =>
    rw [List.map_cons, List.mem_cons, not_or] at hk
    rw [List.map_cons, List.dropLast_cons_of_ne_nil (List.cons_ne_nil _ _)] at hno
    obtain ⟨n₁, hrun, hg₁, ho₁, hsends₁⟩ := hg.accepted ho hk.1 (hno k List.mem_cons_self)
      (hacc r List.mem_cons_self)
    obtain ⟨n', k', htake, hg', hsends⟩ := ih hg₁ ho₁ (List.nodup_cons.mp ho.nodup).1
      (fun q hq => hacc q (List.mem_cons_of_mem r hq)) fun w hw => hno w (List.mem_cons_of_mem k hw)
    refine ⟨n', k', ?_, hg', hsends.trans hsends₁⟩
    rw [takeReplies_cons hrun, htake]

/-- A session that is lost has no reserved handler in the end. -/
theorem Node.Doomed.run (hd : n.Doomed T) (hn : n.Inv) (hT : ∀ r ∈ replies, timestamp r.uuid = T)
    (hrun : takeReplies replies n = some n') {i : HandlerId} (hk : n'.store.find? k = some i)
    (hkT : timestamp k = T) : (n'.handler i).state ≠ .reserved := by
  induction replies generalizing n with
  | nil =>
    cases hrun
    obtain ⟨j, l, hl, hjT, hs, -⟩ := hd
    have hjk : j = k := hn.unique j (OrdMap.mem_keys.mpr ⟨l, hl⟩) k (OrdMap.mem_keys.mpr ⟨i, hk⟩)
      (hjT.trans hkT.symm)
    rw [hjk, hk] at hl
    cases hl
    exact hs
  | cons r rest ih =>
    obtain ⟨n₁, hstep, hrest⟩ := takeReplies_cons_some hrun
    exact ih (hd.step hn (hT r List.mem_cons_self) hstep) (hn.step hstep).1
      (fun q hq => hT q (List.mem_cons_of_mem r hq)) hrest

/-- **After the first ACC the handler stays reserved only with ACCs.** -/
theorem Node.Grants.only_acceptances (hg : n.Grants u k) (ho : n.Owed u (replies.map (·.uuid)))
    (hk : k ∉ replies.map (·.uuid)) (hrun : takeReplies replies n = some n')
    (hend : ∃ k' i, n'.store.find? k' = some i ∧ timestamp k' = timestamp u ∧
      (n'.handler i).state = .reserved) :
    (∀ r ∈ replies, r.accepted = true) ∧
      ∀ w ∈ (k :: replies.map (·.uuid)).dropLast, w ≠ noUuid := by
  induction replies generalizing n k with
  | nil => simp
  | cons r rest ih =>
    rw [List.map_cons, List.mem_cons, not_or] at hk
    obtain ⟨n₁, hstep, hrest⟩ := takeReplies_cons_some hrun
    have hno : k ≠ noUuid := fun hno => hg.lost ho hk.1 hno hstep
    rw [List.map_cons, List.dropLast_cons_of_ne_nil (List.cons_ne_nil _ _)]
    rcases hacc : r.accepted with _ | _
    · have hd := hg.refused ho hk.1 hno hacc hstep
      have hn := ho.reachable.inv
      obtain ⟨k', i, hk', hT, hs⟩ := hend
      refine absurd hs (hd.run (hn.step hstep).1 ?_ hrest hk' hT)
      intro q hq
      exact ho.timestamp_eq (List.mem_cons_of_mem _ (List.mem_map_of_mem hq))
    · obtain ⟨n₂, hstep', hg₁, ho₁, -⟩ := hg.accepted ho hk.1 hno hacc
      rw [hstep] at hstep'
      cases hstep'
      obtain ⟨hall, hkeys⟩ := ih hg₁ ho₁ (List.nodup_cons.mp ho.nodup).1 hrest
      exact ⟨List.forall_mem_cons.mpr ⟨hacc, hall⟩, List.forall_mem_cons.mpr ⟨hno, hkeys⟩⟩

end Runs

/-! ## Ties -/

/-- The handler `h` of the session is in its auction, for the one reservation of the session. -/
structure Node.InAuction (h : HandlerId) (u : UUIDv4) (x : Reservation) (n : Node) : Prop where
  reachable : n.Reachable
  origin : ∀ k ∈ n.originSet.keys, timestamp k ≠ timestamp u
  filed : n.store.find? u = some h
  uuid : (n.handler h).uuid = u
  sole : ∃ a, n.resources.Sole (timestamp u) a x
  pre : x.state = .preReserved

/-- The UUIDs that a tie of the handler's auction creates. -/
def tieTranslations (env : Env) (u : UUIDv4) (winners : List NodeIdentifier) : List UUIDv4 :=
  (List.range winners.length).map fun index => translation env index u

/-- The UUIDs that are created are new, as random ones are. -/
def Node.New (u : UUIDv4) (translations : List UUIDv4) (n : Node) : Prop :=
  (u :: translations).Nodup ∧ ∀ v ∈ u :: translations, n.translationTable.find? v = none

section Ties

variable {env : Env} {u : UUIDv4} {x : Reservation} {n n' : Node} {replies : List Reply}
  {h : HandlerId}

/-- **The EAR of a new session** that starts an auction. -/
theorem Node.InAuction.opened {v : UInt8} {r : Request} {source : NodeIdentifier}
    (hreach : n.Reachable) (hfree : ∀ k ∈ n.store.keys, timestamp k ≠ timestamp u)
    (hres : n.resources.Free (timestamp u))
    (horigin : ∀ k ∈ n.originSet.keys, timestamp k ≠ timestamp u)
    (hrun : (perform env (.receive (.ear v u r) source)).run n = (.ok (), n'))
    (hs : (n'.handler n.handlers.length).state = .auctionWaiting) :
    ∃ x, n'.InAuction n.handlers.length u x ∧ x.pastNode = source := by
  have hinv := hreach.inv
  have hreach' : n'.Reachable := hreach.tail ⟨env, .receive (.ear v u r) source, trivial, hrun⟩
  obtain ⟨n₁, t, hh, hcall, rfl⟩ := Node.Delivers.of_free hfree hrun
  cases hh with
  | resumed hf hk =>
    have hlt := ((hf.inv hinv).stored _ _ hk).1
    rw [hf.length] at hlt
    exact absurd hlt (Nat.lt_irrefl _)
  | created =>
    have hlt : n.handlers.length < (n.created u).handlers.length := by simp [Node.created]
    have hself : (n.created u).handler n.handlers.length = Handler.new u :=
      Node.handler_created_self
    have huuid :
      ((n.created u).startThread n.handlers.length (.ear v u r) source).self.uuid = u := by
      rw [Node.startThread_uuid, hself]
      rfl
    have hkey : ∀ h, (n.created u).store.find? u = some h → h = n.handlers.length := by
      intro h hh
      rw [Node.created, OrdMap.find?_assign, if_pos rfl] at hh
      exact (Option.some.inj hh).symm
    obtain ⟨exit, t', hswitch, rfl⟩ := operatorCall_ok
      (loadReservation_free (t := (n.created u).startThread _ _ _) hres (by rw [huuid])) hcall
    have hready : (((n.created u).startThread n.handlers.length (.ear v u r) source).loaded
        n.resources .null).self.state ≠ .preReserved := by
      show ((n.created u).handler n.handlers.length).state ≠ .preReserved
      rw [hself]
      intro h
      cases h
    have htaken := earBranch_ok (t := ((n.created u).startThread n.handlers.length (.ear v u r)
      source).loaded n.resources .null) hres (by rw [Thread.uuid_loaded, huuid]) hready hkey hswitch
    have hput : ∀ t : Thread, (Node.putThread t n.handlers.length
        (n.created (Message.ear v u r).uuid)).handler n.handlers.length = t.self :=
      fun t => Node.handler_putThread_self hlt
    rw [hput] at hs
    -- only an EAR with several connections leaves its handler waiting
    cases htaken with
    | unreadable => cases hs
    | refused => cases hs
    | accepted => cases hs
    | forwarded hl hme hu had ht hf =>
      rename_i address capabilities target
      generalize hx : ({ admittedReservation env _ r address capabilities with
        state := .preReserved } : Reservation) = x at hf
      have hxT : timestamp x.uuid = timestamp u := by
        rw [← hx]
        exact congrArg timestamp huuid
      have hpush := hres.push hxT
      cases hf with
      | stuck => cases hs
      | single => cases hs
      | auction hc =>
        refine ⟨x.setPastNode source, ⟨hreach', horigin, ?_, ?_, ⟨_, hpush.put hxT⟩, ?_⟩, rfl⟩
        · show (n.store.assign u n.handlers.length).find? u = some n.handlers.length
          rw [OrdMap.find?_assign, if_pos rfl]
        · rw [hput]
          exact huuid
        · show x.state = .preReserved
          rw [← hx]

/-- **A bid** leaves the session in its auction. -/
theorem Node.InAuction.bid {v : UInt8} {value : BitVec 32} {source : NodeIdentifier}
    (ha : n.InAuction h u x) (hs : (n.handler h).state = .auctionWaiting)
    (hrun : (perform env (.receive (.bid v u value) source)).run n = (.ok (), n')) :
    (n'.InAuction h u x ∨ n'.InAuction h u (x.setUuid u)) ∧
      (n'.handler h).state = .auctionWaiting := by
  have hinv := ha.reachable.inv
  have hreach' : n'.Reachable :=
    ha.reachable.tail ⟨env, .receive (.bid v u value) source, trivial, hrun⟩
  have hkey := OrdMap.mem_keys.mpr ⟨h, ha.filed⟩
  -- the UUID of the BID is a key of the store, so no key is renamed
  have hsame : ∀ {n₁ : Node}, Node.Found u n n₁ → n₁ = n := by
    intro n₁ hf
    cases hf with
    | same => rfl
    | rekeyed hk hts hne =>
      exact absurd (hinv.unique _ (OrdMap.mem_keys.mpr ⟨_, hk⟩) u hkey hts) hne
  -- only the handler of the session can take it
  have hown : ∀ {i : HandlerId},
      n.store.find? (handledUuid env n (.bid v u value)) = some i → i = h := by
    intro i hfind
    refine hinv.eq_of_stored hfind ha.filed ?_
    rw [(hinv.stored _ _ hfind).2, handledUuid_timestamp hinv, ha.uuid]
    rfl
  have hlt := (hinv.stored u h ha.filed).1
  cases hinv.stepped hrun with
  | dropped hf =>
    rw [hsame hf]
    exact ⟨Or.inl ha, hs⟩
  | bid hf hfind hstate hr hb =>
    rename_i n₁ i bid
    obtain rfl : n₁ = n := hsame hf
    obtain rfl := hown hfind
    have hself : (n₁.withBid i bid).handler i = { n₁.handler i with
        bids := BidSet.insert (n₁.handler i).bids bid
        arrivingBids := (n₁.handler i).arrivingBids + 1 } := Node.handler_modify_self hlt
    refine ⟨Or.inl ⟨hreach', ha.origin, ha.filed, ?_, ha.sole, ha.pre⟩, ?_⟩
    · rw [hself]
      exact ha.uuid
    · rw [hself]
      exact hs
  | round hh hcall =>
    rename_i n₁ i t
    cases hh with
    | created hfree => exact absurd rfl (hfree u hkey)
    | resumed hf hfind hstate hr hq =>
      obtain rfl : n₁ = n := hsame hf
      obtain rfl := hown hfind
      obtain ⟨a, hsole⟩ := ha.sole
      have huuid : (n₁.startThread i (.bid v u value) source).self.uuid = u :=
        Node.startThread_uuid.trans ha.uuid
      have hload : (loadReservation env).run (n₁.startThread i (.bid v u value) source) = _ :=
        loadReservation_sole hsole (by rw [huuid])
      rw [huuid] at hload
      obtain ⟨exit, t₂, hswitch, rfl⟩ := operatorCall_ok hload hcall
      rw [messageSwitch, bidBranch_waiting hs] at hswitch
      cases hswitch
      have hself : ∀ t : Thread, (Node.putThread t i n₁).handler i = t.self :=
        fun t => Node.handler_putThread_self hlt
      refine ⟨Or.inr ⟨hreach', ha.origin, ha.filed, ?_, ⟨a, hsole.put rfl⟩, ha.pre⟩, ?_⟩
      · rw [hself]
        exact huuid
      · rw [hself]
        exact hs

/-- The table after a tie, at its new keys and at all others. -/
theorem find?_tieTable {table : OrdMap UUIDv4 UUIDv4} {indices : List Nat}
    (hnew : ∀ index ∈ indices, table.find? (translation env index u) = none)
    (hnodup : (indices.map fun index => translation env index u).Nodup) (v : UUIDv4) :
    (tieTable env u indices table).find? v =
      if v ∈ indices.map (fun index => translation env index u) then some u else table.find? v := by
  have htable : tieTable env u indices table =
      table.insertAll (indices.map fun index => (translation env index u, u)) := by
    rw [tieTable, OrdMap.insertAll, List.foldl_map]
  have hkeys : (indices.map fun index => (translation env index u, u)).map (·.1) =
      indices.map fun index => translation env index u := List.map_map
  rw [htable]
  split_ifs with hv
  · refine OrdMap.find?_insertAll_of_mem ?_ (hkeys ▸ hnodup) ?_
    · intro e he
      obtain ⟨index, hindex, rfl⟩ := List.mem_map.mp he
      exact hnew index hindex
    · obtain ⟨index, hindex, rfl⟩ := List.mem_map.mp hv
      exact List.mem_map.mpr ⟨index, hindex, rfl⟩
  · exact OrdMap.find?_insertAll_of_not_mem (hkeys ▸ hv)

/-- **What a tie leaves behind**: translations that are owed, and the pre-reservation. -/
theorem Node.InAuction.tied (ha : n.InAuction h u x) (hen : (Action.wake h).enabled n)
    (hwake : (perform env (.wake h)).run n = (.ok (), n'))
    (htie : 2 ≤ (maxBids (n.handler h).bids).length)
    (hnew : n.New u (tieTranslations env u (maxBids (n.handler h).bids))) :
    n'.Waits h u x ∧ n'.Owed u (tieTranslations env u (maxBids (n.handler h).bids)) := by
  obtain ⟨t, ht, rfl⟩ := runThread_run hwake
  obtain ⟨exit, t₁, hend, rfl⟩ := wake_ok ht
  have hbids : (n.thread h).unblocked.self.bids ≠ [] := by
    show (n.handler h).bids ≠ []
    intro hnil
    rw [hnil] at htie
    exact absurd htie (by decide)
  obtain ⟨rfl, hidle, hsame, hstate, htable⟩ := auctionEnd_ok hbids hend
  -- with several winners the request is not refused
  have hstate : t₁.self.state = .preReserved := by
    rcases hstate with ⟨hs, -⟩ | ⟨hnil, -⟩
    · exact hs
    · have hlen : (maxBids (n.handler h).bids).length = 0 := congrArg List.length hnil
      rw [hlen] at htie
      exact absurd htie (by decide)
  -- the table has the translations, and what it had before
  have hfind : ∀ v, t₁.translationTable.find? v =
      if v ∈ tieTranslations env u (maxBids (n.handler h).bids) then some u
      else n.translationTable.find? v := by
    intro v
    have hoften : 2 ≤ (maxBids (n.thread h).unblocked.self.bids).length := htie
    have hself : (n.thread h).unblocked.self.uuid = u := ha.uuid
    rw [htable hoften, hself]
    refine find?_tieTable ?_ (List.nodup_cons.mp hnew.1).2 v
    intro index hindex
    exact hnew.2 _ (List.mem_cons_of_mem u (List.mem_map_of_mem hindex))
  have hinv := ha.reachable.inv
  have hlt := (hinv.stored u h ha.filed).1
  obtain ⟨a, hsole⟩ := ha.sole
  have hstore : t₁.store = n.store := hsame.store
  have hres : t₁.resources = n.resources := hsame.resources
  have horigin : t₁.originSet = n.originSet := hsame.originSet
  refine ⟨⟨⟨a, x.uuid, ?_⟩, hstore ▸ ha.filed, ?_, ?_⟩,
    ⟨ha.reachable.tail ⟨env, _, hen, hwake⟩, ?_, ?_, ?_, ?_⟩⟩
  · show t₁.resources.Sole (timestamp u) a x
    rw [hres]
    exact hsole
  · rw [Node.handler_putThread_self hlt]
    exact hstate
  · rw [Node.handler_putThread_self hlt]
    exact hidle
  · show ∀ k ∈ t₁.originSet.keys, timestamp k ≠ timestamp u
    rw [horigin]
    exact ha.origin
  · exact (List.nodup_cons.mp hnew.1).2
  · intro v hv
    exact (hfind v).trans (if_pos hv)
  · refine (hfind u).trans ?_
    rw [if_neg (List.nodup_cons.mp hnew.1).1, hnew.2 u List.mem_cons_self]

/-- With an ACC first, the run does what is expected if only ACCs follow. -/
theorem Node.Waits.accepted_iff {accepted : List Reply} {first : Reply} (hw : n.Waits h u x)
    (ho : n.Owed u ((first :: accepted).map (·.uuid))) (hu : u ≠ noUuid)
    (hx : x.state = .preReserved)
    (hfirst : first.accepted = true) :
    (∃ n', takeReplies (first :: accepted) n = some n' ∧
        TieAccepted u x (first :: accepted) n n') ↔
      ((x.pastPort first.env).isSome = true ∧ (x.addNextNode first.source).printable = true) ∧
        (∀ r ∈ accepted, r.accepted = true) ∧
        ∀ w ∈ (u :: accepted.map (·.uuid)).dropLast, w ≠ noUuid := by
  have hlater : u ∉ accepted.map (·.uuid) := fun hmem =>
    ho.ne (List.mem_cons_of_mem _ hmem) rfl
  constructor
  · rintro ⟨n', hrun, hdone⟩
    obtain ⟨n₂, hstep, hrest⟩ := takeReplies_cons_some hrun
    by_cases hgo : (x.pastPort first.env).isSome = true ∧
        (x.addNextNode first.source).printable = true
    · obtain ⟨target, htarget⟩ := Option.isSome_iff_exists.mp hgo.1
      obtain ⟨n₃, hstep', hg, ho₂, -⟩ := hw.accepted ho hu hx hfirst htarget hgo.2
      rw [hstep] at hstep'
      cases hstep'
      exact ⟨hgo, hg.only_acceptances ho₂ hlater hrest hdone.reserved⟩
    · have hd := hw.stuck ho hu hx hfirst hgo hstep
      obtain ⟨k, i, hk, hT, hs⟩ := hdone.reserved
      refine absurd hs (hd.run (ho.reachable.inv.step hstep).1 ?_ hrest hk hT)
      intro q hq
      exact ho.timestamp_eq (List.mem_cons_of_mem _ (List.mem_map_of_mem hq))
  · rintro ⟨⟨hport, hprint⟩, hacc, hno⟩
    obtain ⟨target, htarget⟩ := Option.isSome_iff_exists.mp hport
    obtain ⟨n₂, hstep, hg, ho₂, hsends₂⟩ := hw.accepted ho hu hx hfirst htarget hprint
    obtain ⟨n', k, hrest, ⟨hsole, ⟨i, hi, hs, -⟩, hT⟩, hsends⟩ :=
      hg.acceptances ho₂ hlater hacc hno
    have hsent : n.sentUntil n' = [(newAcc u, target, .simulation)] := by
      refine Node.sentUntil_eq ?_
      rw [hsends, hsends₂]
    refine ⟨n', by rw [takeReplies_cons hstep, hrest], ?_, ?_, k, i, hi, hT, hs⟩
    · rw [hsent]
      exact ⟨first, List.mem_cons_self, target, htarget, by simp⟩
    · rw [hsent]
      intro e he
      rw [List.mem_singleton.mp he]
      nofun

/-- **Where the replies to a tie lead to.** -/
theorem Node.Waits.resolved_iff (hw : n.Waits h u x) (ho : n.Owed u (replies.map (·.uuid)))
    (hx : x.state = .preReserved) (hne : replies ≠ []) :
    TieResolved h u x replies n ↔ OnlyAccs u x replies := by
  have hkeys : ∀ l : List Reply, u ≠ noUuid → ((∀ w ∈ (u :: l.map (·.uuid)).dropLast, w ≠ noUuid) ↔
      ∀ r ∈ l.dropLast, r.uuid ≠ noUuid) := by
    intro l hu
    rcases l with _ | ⟨r, rest⟩
    · simp
    · rw [List.map_cons, List.dropLast_cons_of_ne_nil (List.cons_ne_nil _ _), ← List.map_cons,
        ← List.map_dropLast, List.forall_mem_cons, List.forall_mem_map]
      exact and_iff_right hu
  obtain ⟨first, rest, rfl⟩ := List.exists_cons_of_ne_nil hne
  constructor
  · rintro ⟨n', hrun, haccepted, -⟩
    obtain ⟨n₁, hstep, -⟩ := takeReplies_cons_some hrun
    have hu : u ≠ noUuid := by
      rintro hu
      have hr : first.uuid ∈ (first :: rest).map (·.uuid) := List.mem_cons_self
      rw [Reply.receive_lost ho.reachable.inv hw.filed (ho.timestamp_eq hr).symm
        (ho.not_origin hr first.env) (ho.ne hr) hu] at hstep
      cases hstep
    have hfirst : first.accepted = true := by
      by_contra hacc
      exact hw.refused ho hu hx (Bool.not_eq_true _ ▸ hacc) hstep
    have hdone := haccepted ⟨first, List.mem_cons_self, hfirst⟩
    obtain ⟨⟨hport, hprint⟩, hall, hno⟩ := (hw.accepted_iff ho hu hx hfirst).mp ⟨n', hrun, hdone⟩
    exact ⟨hu, List.forall_mem_cons.mpr ⟨hfirst, hall⟩, first, rest, rfl, hport, hprint,
      (hkeys rest hu).mp hno⟩
  · rintro ⟨hu, hacc, _, _, heq, hport, hprint, hno⟩
    obtain ⟨rfl, rfl⟩ := List.cons.inj heq
    obtain ⟨hfirst, hall⟩ := List.forall_mem_cons.mp hacc
    obtain ⟨n', hrun, hdone⟩ := (hw.accepted_iff ho hu hx hfirst).mpr
      ⟨⟨hport, hprint⟩, hall, (hkeys rest hu).mpr hno⟩
    refine ⟨n', hrun, fun _ => hdone, ?_⟩
    intro hrefused
    have hfalse := hrefused first List.mem_cons_self
    rw [hfirst] at hfalse
    cases hfalse

/-- **The replies to a tie lead to what they say exactly if all of them are ACCs.** -/
theorem tie_resolved_iff (ha : n.InAuction h u x) (hen : (Action.wake h).enabled n)
    (hwake : (perform env (.wake h)).run n = (.ok (), n'))
    (htie : 2 ≤ (maxBids (n.handler h).bids).length)
    (hnew : n.New u (tieTranslations env u (maxBids (n.handler h).bids)))
    (hreplies : (replies.map (·.uuid)).Perm
      (tieTranslations env u (maxBids (n.handler h).bids))) :
    TieResolved h u x replies n' ↔ OnlyAccs u x replies := by
  obtain ⟨hw, ho⟩ := ha.tied hen hwake htie hnew
  have ho' : n'.Owed u (replies.map (·.uuid)) := {
    reachable := ho.reachable
    origin := ho.origin
    nodup := hreplies.nodup_iff.mpr ho.nodup
    table := fun v hv => ho.table v (hreplies.mem_iff.mp hv)
    original := ho.original }
  refine hw.resolved_iff ho' ha.pre ?_
  rintro rfl
  have hlen := hreplies.length_eq
  rw [tieTranslations, List.length_map, List.length_map, List.length_range, List.length_nil] at hlen
  rw [← hlen] at htie
  exact absurd htie (by decide)

end Ties

/-! ## Two winners -/

/-- The reply of one of the winners of the tie `sampleTie`. -/
def Reply.sample (accepted : Bool) (index : Nat) (source : UInt8) : Reply where
  env := .sample
  accepted := accepted
  version := 1
  uuid := translation .sample index (sampleUuid 7 0)
  source := ([source], .simulation)

/-- The neighbours 6 and 7 end an auction in a tie. -/
theorem exists_tie : ∃ (n n' : Node) (x : Reservation), n.InAuction 0 (sampleUuid 7 0) x ∧
    (Action.wake 0).enabled n ∧ (perform .sample (.wake 0)).run n = (.ok (), n') ∧
    maxBids (n.handler 0).bids = [([6], .simulation), ([7], .simulation)] ∧
    n.New (sampleUuid 7 0) (tieTranslations .sample (sampleUuid 7 0) (maxBids (n.handler 0).bids)) ∧
    x.pastNode = ([5], .simulation) ∧ x.nextNodes = [] := by
  have hrun :
    (performAll .sample [.receive (.ear 1 (sampleUuid 7 0) (.sample 9)) ([5], .simulation)]
      .initial).any (fun m => (m.handler 0).state = .auctionWaiting ∧
        (performAll .sample [.receive (.bid 1 (sampleUuid 7 0) 0x3F800000) ([6], .simulation)]
          m).any fun m₁ =>
        (performAll .sample [.receive (.bid 1 (sampleUuid 7 0) 0x3F800000) ([7], .simulation)]
          m₁).any fun n => (Action.wake 0).enabled n ∧
            maxBids (n.handler 0).bids = [([6], .simulation), ([7], .simulation)] ∧
            n.translationTable.entries = [] ∧
            (∀ e ∈ n.resources.reservations, e.2.pastNode = ([5], .simulation) ∧
              e.2.nextNodes = []) ∧
            (performAll .sample [.wake 0] n).isSome = true) = true := by
    decide +kernel
  obtain ⟨m, hm, hfacts⟩ := (Option.any_eq_true _ _).mp hrun
  obtain ⟨hs, hfacts⟩ := of_decide_eq_true hfacts
  obtain ⟨m₁, hm₁, hfacts⟩ := (Option.any_eq_true _ _).mp hfacts
  obtain ⟨n, hn, hfacts⟩ := (Option.any_eq_true _ _).mp hfacts
  obtain ⟨hen, hwinners, hempty, hall, hwake⟩ := of_decide_eq_true hfacts
  obtain ⟨n', hn'⟩ := Option.isSome_iff_exists.mp hwake
  obtain ⟨x, hx, -⟩ := Node.InAuction.opened (u := sampleUuid 7 0) .refl nofun
    ⟨⟨List.nodup_nil, nofun⟩, rfl⟩ nofun (performAll_single hm) hs
  -- neither bid ends the auction
  obtain ⟨hbid, hs₁⟩ := hx.bid hs (performAll_single hm₁)
  have hfirst : ∃ x, m₁.InAuction 0 (sampleUuid 7 0) x := by
    rcases hbid with h | h <;> exact ⟨_, h⟩
  obtain ⟨x₁, hx₁⟩ := hfirst
  have hsecond : ∃ x, n.InAuction 0 (sampleUuid 7 0) x := by
    rcases (hx₁.bid hs₁ (performAll_single hn)).1 with h | h <;> exact ⟨_, h⟩
  obtain ⟨x₂, hx₂⟩ := hsecond
  obtain ⟨a, hsole⟩ := hx₂.sole
  obtain ⟨hpast, hnext⟩ := hall _ hsole.mem.1
  refine ⟨n, n', x₂, hx₂, hen, performAll_single hn', hwinners, ⟨?_, ?_⟩, hpast, hnext⟩
  · rw [hwinners]
    decide +kernel
  · intro v _
    rw [OrdMap.find?, hempty]
    rfl

/-- Two ACCs. -/
theorem tie_resolved_iff_accs : ∃ (n' : Node) (x : Reservation),
    (TieResolved 0 (sampleUuid 7 0) x [.sample true 0 6, .sample true 1 7] n' ↔
      OnlyAccs (sampleUuid 7 0) x [.sample true 0 6, .sample true 1 7]) ∧
    OnlyAccs (sampleUuid 7 0) x [.sample true 0 6, .sample true 1 7] := by
  obtain ⟨n, n', x, hx, hen, hwake, hwinners, hnew, hpast, hnext⟩ := exists_tie
  refine ⟨n', x, tie_resolved_iff hx hen hwake ?_ hnew ?_, ?_⟩
  · rw [hwinners]
    exact Nat.le_refl 2
  · rw [hwinners]
    exact List.Perm.refl _
  · refine ⟨by decide, by simp [Reply.sample], .sample true 0 6, _, rfl, ?_, ?_, nofun⟩
    · simp only [Reservation.pastPort, hpast, Reply.sample]
      decide
    · simp only [Reservation.printable, Reservation.addNextNode, hpast, hnext, Reply.sample]
      decide

/-- An ACC, then a REF: the handler that has sent its ACC is closed. -/
theorem tie_acc_ref : ¬∀ (env : Env) (n n' : Node) (h : HandlerId) (u : UUIDv4) (x : Reservation)
    (replies : List Reply), n.InAuction h u x → (Action.wake h).enabled n →
      (perform env (.wake h)).run n = (.ok (), n') → 2 ≤ (maxBids (n.handler h).bids).length →
      n.New u (tieTranslations env u (maxBids (n.handler h).bids)) →
      (replies.map (·.uuid)).Perm (tieTranslations env u (maxBids (n.handler h).bids)) →
      TieResolved h u x replies n' := by
  intro hall
  obtain ⟨n, n', x, hx, hen, hwake, hwinners, hnew, -, -⟩ := exists_tie
  have htie : 2 ≤ (maxBids (n.handler 0).bids).length := by
    rw [hwinners]
    exact Nat.le_refl 2
  have htranslations : tieTranslations .sample (sampleUuid 7 0) (maxBids (n.handler 0).bids) =
      [Reply.sample true 0 6, .sample false 1 7].map (·.uuid) := by
    rw [hwinners]
    rfl
  have hresolved :=
    hall .sample n n' 0 (sampleUuid 7 0) x [.sample true 0 6, .sample false 1 7] hx hen
    hwake htie hnew (by rw [htranslations])
  obtain ⟨hw, ho⟩ := hx.tied hen hwake htie hnew
  rw [htranslations] at ho
  obtain ⟨-, haccs, -⟩ := (hw.resolved_iff ho hx.pre (List.cons_ne_nil _ _)).mp hresolved
  exact absurd (haccs _ (List.mem_cons_of_mem _ List.mem_cons_self)) (by decide)

end Rankd

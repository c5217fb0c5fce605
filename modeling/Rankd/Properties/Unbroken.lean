import Rankd.Node.Acts
import Rankd.Properties.Wired
import Rankd.Properties.Isolation
import Rankd.Properties.Listener

/-!
# The dispatchers go on

An exception in the thread of a sender or a receiver ends the process. What the nodes send gives
rise to none: a sender can encode everything that waits in its queue, and a receiver can decode
everything that the senders of other nodes have encoded.

* `Wiring.Unbroken.step`: what a thread of a node keeps
* `dispatchers_unbroken`: every run
-/

namespace Rankd

open Infra

/-- The receiver decodes the bytes, or ignores them. -/
def Letter.Readable (ulid : Ulid) (letter : Letter) : Prop :=
  ∀ uninit, ∃ m, ReceiverSimulation.operatorCall ulid uninit letter = .ok m

/-- A message whose listener is named by code 0, and whose payload is there as far as
its length says. -/
def Message.Framed (m : Message) : Prop :=
  ∀ q, m.request? = some q → q.listenerLength = 0 ∧ q.payloadLength.toNat ≤ q.payload.length

/-- An item that the sender can encode. -/
structure SendingItem.Sound (item : SendingItem) : Prop where
  target : item.2.1 ≠ []
  framed : item.1.Framed

section Codec

variable {ulid : Ulid} {uninit : ListenerArray} {m : Message} {item : SendingItem}

/-- **Framed messages are decoded**, whatever else they hold. -/
theorem Message.Framed.parse (h : m.Framed) (ulid : Ulid) (uninit : ListenerArray) :
    ∃ o, parseMessageFromBytes ulid uninit (m.rawPayload ulid) false = .ok o := by
  rw [← rawPayload_masked]
  have hparse : m.masked.WellFormed → ∃ o,
      parseMessageFromBytes ulid uninit (m.masked.rawPayload ulid) false = .ok o := by
    intro hw
    obtain ⟨m', hm', -⟩ := parse_rawPayload ulid uninit m.masked hw
    exact ⟨_, hm'⟩
  cases m with
  | ear v u r =>
    obtain ⟨hcode, hpayload⟩ := h r rfl
    have ha : addrLen? r.listenerLength = some 1 := by rw [hcode]; rfl
    obtain ⟨r', hr', -⟩ := parse_ear ulid uninit (version_mask_lt v) u ha hpayload
    exact ⟨_, hr'⟩
  | mar v u r =>
    obtain ⟨hcode, hpayload⟩ := h r rfl
    have ha : addrLen? r.listenerLength = some 1 := by rw [hcode]; rfl
    have hversion : (Message.mar (v &&& 3) u r).version < 4 := version_mask_lt v
    obtain ⟨r', hdecode, -⟩ := Request.decode_packed uninit ha hpayload
    refine ⟨some (.mar (v &&& 3) u r'), ?_⟩
    have hraw : (Message.mar v u r).masked.rawPayload ulid =
        marshalHeader ulid (Message.mar (v &&& 3) u r).header ++
          ([(r.priority <<< 5) ||| ((r.listenerLength &&& 0x7) <<< 2) ||| (r.reserved &&& 0x3)] ++
            r.listener.toList.take 1 ++ toBytesBE 2 r.payloadLength.toNat ++ r.payload) := by
      simp only [Message.masked, Message.rawPayload, Request.rawPayload, ha, payloadLength_bytes,
        List.append_assoc]
    rw [hraw, parse_marshal hversion]
    simp only [parseContent, Message.header, Message.type, hdecode, ok_bind]
    rfl
  | bid v u value => exact hparse ⟨version_mask_lt v, trivial⟩
  | acc v u => exact hparse ⟨version_mask_lt v, trivial⟩
  | ref v u => exact hparse ⟨version_mask_lt v, trivial⟩
  | rep v u code reserved listener =>
    rcases ha : addrLen? code with _ | len
    · refine ⟨none, ?_⟩
      rw [Message.masked, Message.rawPayload, repRawPayload, ha]
      rfl
    · have hcode : (addrLen? code).isSome := by rw [ha]; rfl
      exact hparse ⟨version_mask_lt v, hcode⟩

theorem Message.Framed.readable (h : m.Framed) (source : UInt8) :
    Letter.Readable ulid (source, m.rawPayload ulid) := by
  intro uninit
  obtain ⟨o, ho⟩ := h.parse ulid uninit
  refine ⟨o.map fun m => (([source], .simulation), m), ?_⟩
  rw [ReceiverSimulation.operatorCall, ho]
  rfl

/-- **The sender encodes sound items.** -/
theorem SendingItem.Sound.encoded (h : item.Sound) (hmac : item.2.2 = .mac → 6 ≤ item.2.1.length) :
    ∃ out, Sender.operatorCall ulid item = .ok out := by
  obtain ⟨message, target, type⟩ := item
  cases type with
  | mac =>
    have hsix : readRun Thrown.outOfRange target 6 0 [] = .ok ([] ++ (target.drop 0).take 6) :=
      readRun_of_le (by have := hmac rfl; omega)
    refine ⟨none, ?_⟩
    simp only [Sender.operatorCall, makeAndSendFrame, hsix]
    rfl
  | ipv4 | ipv6 | dds => exact ⟨none, rfl⟩
  | simulation =>
    rcases target with _ | ⟨port, rest⟩
    · exact absurd rfl h.target
    · refine ⟨some (port, message.rawPayload ulid), ?_⟩
      have hlog : logListener message = .ok () := by
        rcases hq : message.request? with _ | q
        · cases message with
          | ear | mar => cases hq
          | bid | acc | ref | rep => rfl
        · have hcode : q.listenerLength.toNat ≤ 16 := by
            rw [(h.framed q hq).1]
            exact Nat.zero_le 16
          obtain ⟨first, field, hfield⟩ := listenerField_ok q.listener hcode
          cases message with
          | ear | mar =>
            cases hq
            rw [logListener, hfield]
            rfl
          | bid | acc | ref | rep => cases hq
      simp only [Sender.operatorCall, readAt_cons_zero, hlog, makeAndSendBytes, ok_bind]
      rfl

/-- What a sender passes on can be decoded. -/
theorem SendingItem.Sound.emitted (h : item.Sound) {k : Nat} {w : Wiring k}
    {foreign : UUIDv4 → Prop}
    {noise : Letter → Prop} {i : Fin (k + 1)} {e : Fin (k + 1) × Letter}
    (he : (w.pipeline foreign noise).emits i item (some e)) : e.2.Readable w.ulid := by
  obtain ⟨j, source, bytes⟩ := e
  obtain ⟨-, hbytes⟩ := Wiring.emitted he
  obtain rfl : bytes = item.1.rawPayload w.ulid := hbytes
  exact h.framed.readable source

end Codec

/-! ## What nodes send -/

/-- A request that is sent is one that is relayed, or ends an auction. -/
theorem Action.scope_request {env : Env} {action : Action} {m : Message} {q : Request}
    (hm : (action.scope env).sends m) (hq : m.request? = some q) :
    ∃ x, q = relayedRequest env x ∨ q = auctionRequest x := by
  cases action with
  | receive message source =>
    cases message with
    | ear v u r =>
      rw [Action.scope, Message.scope] at hm
      split_ifs at hm
      · obtain ⟨u, rfl | rfl⟩ := hm <;> cases hq
      · obtain ⟨u, rfl | ⟨x, rfl | rfl⟩⟩ := hm <;> cases hq
        · exact ⟨x, Or.inl rfl⟩
        · exact ⟨x, Or.inl rfl⟩
    | mar v u r =>
      obtain ⟨u, value, rfl⟩ := hm
      cases hq
    | bid v u value => exact False.elim hm
    | acc v u | ref v u =>
      obtain ⟨u, rfl⟩ := hm
      cases hq
    | rep v u length reserved listener =>
      obtain ⟨u, rfl | ⟨length, reserved, listener, rfl⟩⟩ := hm <;> cases hq
  | wake h =>
    obtain ⟨u, rfl | ⟨x, rfl⟩⟩ := hm <;> cases hq
    exact ⟨x, Or.inr rfl⟩
  | timeout h type => exact False.elim hm
  | markOrigin uuid pid => exact False.elim hm

/-- The length of a payload that is sent is not more than the payload. -/
theorem Message.Framed.of_scope {env : Env} {action : Action} {m : Message}
    (hm : (action.scope env).sends m) (hcode : ∀ q, m.request? = some q → q.listenerLength = 0) :
    m.Framed := by
  intro q hq
  refine ⟨hcode q hq, ?_⟩
  obtain ⟨x, rfl | rfl⟩ := Action.scope_request hm hq
  · show (UInt16.ofNat _).toNat ≤ _
    rw [UInt16.toNat_ofNat']
    exact Nat.mod_le _ _
  · exact Nat.zero_le _

/-- **What a node sends in a step is sound.** -/
theorem Node.Reachable.sends_sound {env : Env} {action : Action} {n n' : Node} (hn : n.Reachable)
    (hen : action.enabled n) (hrun : (perform env action).run n = (.ok (), n')) :
    ∀ item ∈ n.sentUntil n', SendingItem.Sound item := by
  obtain ⟨l, hl, hsent⟩ := (hn.inv.acted hrun).sends
  have hn' : n'.Reachable := hn.tail ⟨env, action, hen, hrun⟩
  have hlistens := Node.Listens.sent (hn'.listens 0)
  rw [Node.sentUntil_eq hl]
  intro item hitem
  have hcode := (hlistens item (by rw [hl]; exact List.mem_append_right _ hitem)).code
  exact ⟨(hsent item hitem).2, .of_scope (hsent item hitem).1 hcode⟩

/-! ## Runs -/

/-- A node of a simulation whose queues hold what its dispatchers can work on. -/
structure Wiring.Unbroken (ulid : Ulid) (st : Station Node SendingItem Letter Parcel) : Prop where
  reachable : st.state.Reachable
  outbox : ∀ item ∈ st.outbox, SendingItem.Sound item
  raw : ∀ letter ∈ st.raw, Letter.Readable ulid letter

variable {k : Nat} {w : Wiring k} {foreign : UUIDv4 → Prop}

/-- The bytes of the wiring, where what comes from outside can be decoded. -/
abbrev Wiring.simulation (w : Wiring k) (foreign : UUIDv4 → Prop) :
    Pipeline (Fin (k + 1)) Node SendingItem Letter Parcel :=
  w.pipeline foreign (Letter.Readable w.ulid)

theorem Wiring.Unbroken.step {i : Fin (k + 1)} {st st' : Station Node SendingItem Letter Parcel}
    {sends : List (Fin (k + 1) × Letter)} (h : Wiring.Unbroken w.ulid st)
    (hw : (w.simulation foreign).Works i st st' sends) :
    Wiring.Unbroken w.ulid st' ∧ ∀ e ∈ sends, e.2.Readable w.ulid := by
  cases hw with
  | @handle m rest s sent hf hhandles =>
    obtain ⟨env, -, hrun, rfl⟩ := hhandles
    have hen : (Action.receive m.2 m.1).enabled st.state := trivial
    refine ⟨⟨h.reachable.tail ⟨env, _, hen, hrun⟩, ?_, h.raw⟩,
      fun e he => absurd he List.not_mem_nil⟩
    rw [List.forall_mem_append]
    exact ⟨h.outbox, h.reachable.sends_sound hen hrun⟩
  | act hact =>
    obtain ⟨env, action, -, -, hen, hrun, rfl⟩ := hact
    refine ⟨⟨h.reachable.tail ⟨env, action, hen, hrun⟩, ?_, h.raw⟩,
      fun e he => absurd he List.not_mem_nil⟩
    rw [List.forall_mem_append]
    exact ⟨h.outbox, h.reachable.sends_sound hen hrun⟩
  | @emit item rest letter hf hemits =>
    have houtbox := h.outbox
    rw [hf, List.forall_mem_cons] at houtbox
    refine ⟨⟨h.reachable, houtbox.2, h.raw⟩, ?_⟩
    cases letter with
    | none => exact fun e he => absurd he List.not_mem_nil
    | some e =>
      intro e' he'
      rw [Option.toList_some, List.mem_singleton] at he'
      rw [he']
      exact houtbox.1.emitted hemits
  | read hf hreads =>
    have hraw := h.raw
    rw [hf, List.forall_mem_cons] at hraw
    exact ⟨⟨h.reachable, h.outbox, hraw.2⟩, fun e he => absurd he List.not_mem_nil⟩
  | submit hsubmits =>
    exact ⟨⟨h.reachable, h.outbox, h.raw⟩, fun e he => absurd he List.not_mem_nil⟩
  | inject hinjects =>
    refine ⟨h, fun e he => ?_⟩
    rw [List.mem_singleton.mp he]
    exact hinjects.1

/--
**The dispatchers never throw**: in every run of a simulation in which what comes from outside can
be decoded, each sender can encode what waits for it, unless a MAC address is shorter than six
bytes, and each receiver can decode what waits for it or is on its way to it.
-/
theorem dispatchers_unbroken {plant plant' : Plant k}
    (h : ∀ i, Wiring.Unbroken w.ulid (plant.party i))
    (hflight : ∀ e ∈ plant.flight, e.2.Readable w.ulid)
    (hrun : Net.Run (w.simulation foreign).wire plant plant') :
    (∀ i, ∀ item ∈ (plant'.party i).outbox, (item.2.2 = .mac → 6 ≤ item.2.1.length) →
      ∃ out, Sender.operatorCall w.ulid item = .ok out) ∧
    (∀ i, ∀ letter ∈ (plant'.party i).raw, ∀ uninit,
      ∃ m, ReceiverSimulation.operatorCall w.ulid uninit letter = .ok m) ∧
    ∀ e ∈ plant'.flight, ∀ uninit, ∃ m,
    ReceiverSimulation.operatorCall w.ulid uninit e.2 = .ok m := by
  have hholds : plant'.Holds (fun _ st => Wiring.Unbroken w.ulid st)
      fun _ letter => letter.Readable w.ulid := by
    refine hrun.holds ?_ (fun h hw => h.step hw) ⟨h, hflight⟩
    rintro i letter st st' sends h hletter ⟨rfl, ⟨-, rfl⟩ | ⟨-, rfl⟩⟩
    · refine ⟨⟨h.reachable, h.outbox, ?_⟩, fun e he => absurd he List.not_mem_nil⟩
      rw [List.forall_mem_append, List.forall_mem_singleton]
      exact ⟨h.raw, hletter⟩
    · exact ⟨h, fun e he => absurd he List.not_mem_nil⟩
  exact ⟨fun i item hitem hmac => ((hholds.party i).outbox item hitem).encoded hmac,
    fun i letter hletter => (hholds.party i).raw letter hletter, hholds.flight⟩

/-- The bytes of a request are readable for the node that they are sent to. -/
theorem dispatchers_unbroken_sample : ∃ plant',
    Net.Run (Wiring.sample.simulation fun _ => True).wire samplePlant plant' ∧
      (plant'.party 1).raw ≠ [] ∧
      ∀ letter ∈ (plant'.party 1).raw, ∀ uninit,
        ∃ m, ReceiverSimulation.operatorCall Wiring.sample.ulid uninit letter = .ok m := by
  have hturns : (Wiring.sample.turns sampleSite [some 0, some 0, none] samplePlant).map
      (fun plant' => (plant'.party 1).raw.isEmpty) = some false := by
    decide +kernel
  obtain ⟨plant', hplant, hraw⟩ := Option.map_eq_some_iff.mp hturns
  have hrun : Net.Run (Wiring.sample.simulation fun _ => True).wire samplePlant plant' :=
    Wiring.turns_run (fun _ => rfl) hplant
  have hstart : ∀ i, Wiring.Unbroken Wiring.sample.ulid (samplePlant.party i) := fun i =>
    ⟨samplePlant_begins.reachable i, fun e he => absurd he List.not_mem_nil,
      fun e he => absurd he List.not_mem_nil⟩
  exact ⟨plant', hrun, List.isEmpty_eq_false_iff.mp hraw,
    (dispatchers_unbroken hstart (fun e he => absurd he List.not_mem_nil) hrun).2.1 1⟩

end Rankd

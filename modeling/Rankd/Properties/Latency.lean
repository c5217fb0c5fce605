import Mathlib.Data.List.Forall2
import Rankd.Host.Latency

/-!
# Schedules as they are dumped

What `snap_tas_via_linux_tc` makes of a dump: the key comes from the name of the qdisc, the interval
of an entry from the table around it, the nanoseconds are the whole base time, and one datagram of
the answer is read.

* `snapped_iff_fits`: the rules are those of the dump if and only if the dump is of the shape that
  these slips leave alone
* `tells_self_iff`: what this asks of a schedule that is read itself
-/

namespace Rankd.Host

open Infra

/-! ## What the rules should be -/

/-- The answer of the kernel: the datagram that is received, and those behind it. -/
structure Dump where
  received : List Qdisc
  further : List Qdisc
  framed : ∀ m ∈ received ++ further, m.type = rtmNewqdisc → m.Framed

def Dump.messages (d : Dump) : List Qdisc := d.received ++ d.further

/-- The schedules with a priority map of an interface. -/
def carriedBy (ms : List Qdisc) (interface : Int32) : List Attribute :=
  (ms.filter (·.ifindex = interface)).filterMap Qdisc.carried

/-- An element of a control list has the values of an entry. -/
structure Shows (item : Attribute) (e : SchedGateControlEntriesEntry) : Prop where
  index : e.index.toNat = field item tcaTaprioSchedEntryIndex
  command : e.operationName.toNat = field item tcaTaprioSchedEntryCmd
  gateMask : e.gateStatesValue.toNat = field item tcaTaprioSchedEntryGateMask
  interval : e.timeIntervalValue.map UInt32.toNat = some (field item tcaTaprioSchedEntryInterval)

def PTPTimeGrouping.Splits (t : PTPTimeGrouping) (nanoseconds : Int) : Prop :=
  t.nanoseconds.toNat < 1000000000 ∧
    (t.seconds.toNat * 1000000000 + t.nanoseconds.toNat : Int) = nanoseconds

/-- The control lists and the base times are those of a schedule. -/
structure Told (options : Attribute) (p : SchedParameters) : Prop where
  entries : ∃ l, p.adminControlList = some l ∧ p.operControlList = some l ∧
    List.Forall₂ Shows (items options) l
  baseTime : ∀ a, entry options tcaTaprioAttrSchedBaseTime = some a → 0 ≤ a.int 8 →
    ∃ t, p.adminBaseTime = some t ∧ p.operBaseTime = some t ∧ t.Splits (a.int 8)

/-- One entry per interface with a taprio that carries a priority map, under its index. -/
structure Faithful (d : Dump) (rules : Rules) : Prop where
  keys : ∀ k ∈ rules.keys, ∃ interface : Int32,
    interface.toInt = k.toNat ∧ carriedBy d.messages interface ≠ []
  told : ∀ interface options, (carriedBy d.messages interface).getLast? = some options →
    ∃ k p, (k.toNat : Int) = interface.toInt ∧ rules.find? k = some p ∧ Told options p

/-- The rules are read, whatever the stack holds, and they are those of the dump. -/
def Dump.Snapped (d : Dump) : Prop :=
  ∀ env, ∃ rules, snapTasViaLinuxTc env d.received = some rules ∧ Faithful d rules

/-! ## When they are -/

/-- The schedule `told` is what the code makes of the schedule `read`. -/
structure Tells (told read : Attribute) : Prop where
  entries : List.Forall₂ (fun item item' =>
    field item' tcaTaprioSchedEntryIndex = field item tcaTaprioSchedEntryIndex ∧
    field item' tcaTaprioSchedEntryCmd = field item tcaTaprioSchedEntryCmd ∧
    field item' tcaTaprioSchedEntryGateMask % 256 = field item tcaTaprioSchedEntryGateMask ∧
    (readInterval read item').getD 0 = field item tcaTaprioSchedEntryInterval)
    (items told) (items read)
  baseTime : ∀ a, entry told tcaTaprioAttrSchedBaseTime = some a → 0 ≤ a.int 8 →
    ∃ b, entry read tcaTaprioAttrSchedBaseTime = some b ∧ 0 ≤ b.int 8 ∧
      b.int 8 / 1000000000 = a.int 8 / 1000000000 ∧ b.int 8 % 2 ^ 32 = a.int 8 % 1000000000

/--
The dumps that are read as they are.

A schedule is on interface 105 if there is one, and in the datagram that is received. With one
schedule in the dump, `told` is `read`.
-/
structure Dump.Fits (d : Dump) : Prop where
  readable : ∀ m ∈ d.received, ∀ options, m.carried = some options → Readable options
  interface : ∀ m ∈ d.messages, m.carried ≠ none → m.ifindex = 105
  schedule : (∃ m ∈ d.received, m.taprio ≠ none) ∨ (∃ m ∈ d.messages, m.carried ≠ none) →
    ∃ told read, (d.messages.filterMap Qdisc.carried).getLast? = some told ∧
      (d.received.filterMap Qdisc.carried).getLast? = some read ∧ Tells told read

/-! ## Base times -/

theorem groupTime_seconds (b : Int) :
    ((groupTime b).seconds.toNat : Int) = b.tdiv 1000000000 % 2 ^ 64 := by
  have h : (groupTime b).seconds.toNat = (b.tdiv 1000000000 % 2 ^ 64).toNat % 2 ^ 64 := by
    simp only [groupTime, UInt64.ofInt, UInt64.toNat_ofNat']
  omega

theorem groupTime_nanoseconds (b : Int) :
    ((groupTime b).nanoseconds.toNat : Int) = b % 2 ^ 32 := by
  have h : (groupTime b).nanoseconds.toNat = (b % 2 ^ 32).toNat % 2 ^ 32 := by
    simp only [groupTime, UInt32.ofInt, UInt32.toNat_ofNat']
  omega

/-- A negative count never splits into a base time that is not. -/
theorem groupTime_splits_iff {a b : Int} (ha : 0 ≤ a) (ha' : a < 2 ^ 63) (hb : -2 ^ 63 ≤ b)
    (hb' : b < 2 ^ 63) :
    (groupTime b).Splits a ↔
      0 ≤ b ∧ b / 1000000000 = a / 1000000000 ∧ b % 2 ^ 32 = a % 1000000000 := by
  have hs := groupTime_seconds b
  have hn := groupTime_nanoseconds b
  unfold PTPTimeGrouping.Splits
  by_cases hneg : b < 0
  · have hdiv : b.tdiv 1000000000 = -(-b / 1000000000) := by
      rw [← Int.tdiv_eq_ediv_of_nonneg (by omega), Int.neg_tdiv, neg_neg]
    rw [hdiv] at hs
    constructor
    · rintro ⟨hlt, hsum⟩
      exfalso
      by_cases hsmall : -b < 1000000000
      · have hwrap : b % 2 ^ 32 = b + 2 ^ 32 := by omega
        omega
      · have hlow : 1 ≤ -b / 1000000000 := by omega
        have hhigh : -b / 1000000000 ≤ 9223372037 := by omega
        have hwrap : -(-b / 1000000000) % 2 ^ 64 = 2 ^ 64 - -b / 1000000000 := by omega
        omega
    · rintro ⟨hpos, -⟩
      exact absurd hneg (not_lt.mpr hpos)
  · rw [Int.tdiv_eq_ediv_of_nonneg (by omega)] at hs
    omega

/-! ## Elements -/

theorem field_lt (item : Attribute) (type : UInt16) : field item type < 2 ^ 32 := by
  unfold field
  cases entry item type with
  | none => simp
  | some a =>
    rw [Option.map_some, Option.getD_some]
    exact lt_of_lt_of_eq (a.uint_lt 4) (by norm_num)

theorem getD_readInterval_lt (options item : Attribute) :
    (readInterval options item).getD 0 < 2 ^ 32 := by
  unfold readInterval
  cases entry item tcaTaprioSchedEntryInterval with
  | none => simp
  | some _ => exact field_lt options tcaTaprioSchedEntryInterval

theorem shows_itemRead_iff {options item item' : Attribute} :
    Shows item (itemRead options item') ↔
      field item' tcaTaprioSchedEntryIndex = field item tcaTaprioSchedEntryIndex ∧
      field item' tcaTaprioSchedEntryCmd = field item tcaTaprioSchedEntryCmd ∧
      field item' tcaTaprioSchedEntryGateMask % 256 = field item tcaTaprioSchedEntryGateMask ∧
      (readInterval options item').getD 0 = field item tcaTaprioSchedEntryInterval := by
  have hindex := UInt32.toNat_ofNat_of_lt' (field_lt item' tcaTaprioSchedEntryIndex)
  have hcommand := UInt32.toNat_ofNat_of_lt' (field_lt item' tcaTaprioSchedEntryCmd)
  have hinterval := UInt32.toNat_ofNat_of_lt' (getD_readInterval_lt options item')
  have hmask : (UInt8.ofNat (field item' tcaTaprioSchedEntryGateMask)).toNat =
      field item' tcaTaprioSchedEntryGateMask % 256 := UInt8.toNat_ofNat'
  constructor
  · intro h
    refine ⟨hindex.symm.trans h.index, hcommand.symm.trans h.command,
      hmask.symm.trans h.gateMask, hinterval.symm.trans ?_⟩
    exact Option.some.inj h.interval
  · rintro ⟨h1, h2, h3, h4⟩
    exact {
      index := hindex.trans h1
      command := hcommand.trans h2
      gateMask := hmask.trans h3
      interval := congrArg some (hinterval.trans h4) }

/-! ## Schedules -/

section Parameters

variable (env : Locals) (options priomap : Attribute)

theorem adminControlList_optionsRead :
    (optionsRead env options priomap).adminControlList =
      some ((items options).map (itemRead options)) := rfl

theorem adminBaseTime_optionsRead :
    (optionsRead env options priomap).adminBaseTime =
      some (groupTime (readTime options tcaTaprioAttrSchedBaseTime env.baseTime.toInt)) := rfl

end Parameters

theorem told_of_tells {told read : Attribute} (h : Tells told read) (env : Locals)
    (priomap : Attribute) : Told told (optionsRead env read priomap) where
  entries := by
    refine ⟨(items read).map (itemRead read), rfl, rfl, ?_⟩
    rw [List.forall₂_map_right_iff]
    exact h.entries.imp fun _ _ => shows_itemRead_iff.mpr
  baseTime a ha hpos := by
    obtain ⟨b, hb, hsplits⟩ := h.baseTime a ha hpos
    refine ⟨_, adminBaseTime_optionsRead env read priomap,
      adminBaseTime_optionsRead env read priomap, ?_⟩
    rw [readTime_of_some hb]
    exact (groupTime_splits_iff hpos a.int_lt b.le_int b.int_lt).mpr hsplits

/-- Where no base time is dumped, the variable may hold a number that is none. -/
theorem tells_of_told {told read priomap : Attribute} {env : Locals} (henv : env.baseTime = -1)
    (h : Told told (optionsRead env read priomap)) : Tells told read where
  entries := by
    obtain ⟨l, hl, -, hshows⟩ := h.entries
    rw [adminControlList_optionsRead] at hl
    obtain rfl := Option.some.inj hl
    rw [List.forall₂_map_right_iff] at hshows
    exact hshows.imp fun _ _ => shows_itemRead_iff.mp
  baseTime a ha hpos := by
    obtain ⟨t, ht, -, hsplits⟩ := h.baseTime a ha hpos
    rw [adminBaseTime_optionsRead] at ht
    obtain rfl := Option.some.inj ht
    cases hread : entry read tcaTaprioAttrSchedBaseTime with
    | some b =>
      rw [readTime_of_some hread] at hsplits
      exact ⟨b, rfl, (groupTime_splits_iff hpos a.int_lt b.le_int b.int_lt).mp hsplits⟩
    | none =>
      have hminus : (-1 : Int64).toInt = -1 := by decide
      rw [readTime_of_none hread, henv, hminus,
        groupTime_splits_iff hpos a.int_lt (by decide) (by decide)] at hsplits
      exact absurd hsplits.1 (by decide)

/-- An entry without an interval is read right, and another one from the attribute around it. -/
theorem getD_readInterval_eq_iff {options item : Attribute} :
    (readInterval options item).getD 0 = field item tcaTaprioSchedEntryInterval ↔
      ((entry item tcaTaprioSchedEntryInterval).isSome →
        field options tcaTaprioSchedEntryInterval = field item tcaTaprioSchedEntryInterval) := by
  unfold readInterval
  cases hinterval : entry item tcaTaprioSchedEntryInterval with
  | none => simp [field, hinterval]
  | some a =>
    have hread : ((entry options tcaTaprioSchedEntryInterval).map (Attribute.uint 4)).getD 0 =
        field options tcaTaprioSchedEntryInterval := rfl
    rw [hread]
    simp only [Option.isSome_some, forall_const]

/-- What is asked of a schedule that is read itself. -/
theorem tells_self_iff {options : Attribute} :
    Tells options options ↔
      (∀ item ∈ items options, field item tcaTaprioSchedEntryGateMask < 256 ∧
        ((entry item tcaTaprioSchedEntryInterval).isSome →
          field options tcaTaprioSchedEntryInterval = field item tcaTaprioSchedEntryInterval)) ∧
      ∀ a, entry options tcaTaprioAttrSchedBaseTime = some a → 0 ≤ a.int 8 →
        a.int 8 % 2 ^ 32 = a.int 8 % 1000000000 := by
  have hmask (n : Nat) : n % 256 = n ↔ n < 256 := by omega
  constructor
  · intro h
    refine ⟨?_, ?_⟩
    · intro item hitem
      obtain ⟨-, -, hgate, hread⟩ := (List.forall₂_same.mp h.entries) item hitem
      exact ⟨(hmask _).mp hgate, getD_readInterval_eq_iff.mp hread⟩
    · intro a ha hpos
      obtain ⟨b, hb, -, -, hnanoseconds⟩ := h.baseTime a ha hpos
      obtain rfl := Option.some.inj (ha.symm.trans hb)
      exact hnanoseconds
  · rintro ⟨hitems, hbase⟩
    refine ⟨List.forall₂_same.mpr ?_, ?_⟩
    · intro item hitem
      obtain ⟨hgate, hread⟩ := hitems item hitem
      exact ⟨rfl, rfl, (hmask _).mpr hgate, getD_readInterval_eq_iff.mpr hread⟩
    · intro a ha hpos
      exact ⟨a, ha, hpos, rfl, hbase a ha hpos⟩

/-! ## The dump -/

section Dump

variable {d : Dump}

theorem Dump.framed_received (d : Dump) : ∀ m ∈ d.received, m.type = rtmNewqdisc → m.Framed :=
  fun m hm => d.framed m (List.mem_append_left _ hm)

theorem carriedBy_eq {ms : List Qdisc} {interface : Int32}
    (h : ∀ m ∈ ms, m.carried ≠ none → m.ifindex = interface) :
    carriedBy ms interface = ms.filterMap Qdisc.carried := by
  induction ms with
  | nil => rfl
  | cons m rest ih =>
    obtain ⟨hm, hrest⟩ := List.forall_mem_cons.mp h
    have hih := ih hrest
    unfold carriedBy at hih ⊢
    cases hcarried : m.carried with
    | none =>
      rw [List.filterMap_cons_none hcarried, ← hih, List.filter_cons]
      split
      · rw [List.filterMap_cons_none hcarried]
      · rfl
    | some options =>
      have hindex : m.ifindex = interface := hm (by simp [hcarried])
      rw [List.filterMap_cons_some hcarried, ← hih, List.filter_cons_of_pos (by simpa using hindex),
        List.filterMap_cons_some hcarried]

theorem mem_carriedBy {ms : List Qdisc} {interface : Int32} {options : Attribute} :
    options ∈ carriedBy ms interface ↔
      ∃ m ∈ ms, m.ifindex = interface ∧ m.carried = some options := by
  simp [carriedBy, and_assoc]

theorem carriedBy_ne_nil_iff {ms : List Qdisc} {interface : Int32} :
    carriedBy ms interface ≠ [] ↔ ∃ m ∈ ms, m.ifindex = interface ∧ m.carried ≠ none := by
  constructor
  · intro h
    obtain ⟨options, hoptions⟩ := List.exists_mem_of_ne_nil _ h
    obtain ⟨m, hm, hindex, hcarried⟩ := mem_carriedBy.mp hoptions
    exact ⟨m, hm, hindex, by simp [hcarried]⟩
  · rintro ⟨m, hm, hindex, hcarried⟩
    obtain ⟨options, hoptions⟩ := Option.ne_none_iff_exists'.mp hcarried
    exact List.ne_nil_of_mem (mem_carriedBy.mpr ⟨m, hm, hindex, hoptions⟩)

/-- There is at most one entry. -/
theorem Effect.key_eq {env : Nat → Locals} {ms : List Qdisc} {rules : Rules}
    (h : Effect env ms ∅ rules) {k : UInt8} {p : SchedParameters} (hk : rules.find? k = some p) :
    k = 105 := by
  by_contra hne
  rw [h.other k hne, OrdMap.find?_empty] at hk
  cases hk

/-- The entry of a dump whose rules are right is the last schedule that is received. -/
theorem Effect.read_of_told {env : Nat → Locals} {ms : List Qdisc} {rules : Rules}
    (h : Effect env ms ∅ rules) {p : SchedParameters} (hp : rules.find? 105 = some p)
    {told : Attribute} (htold : Told told p) :
    ∃ read, (ms.filterMap Qdisc.carried).getLast? = some read ∧
      ∃ n priomap, p = optionsRead (env n) read priomap := by
  cases hlast : (ms.filterMap Qdisc.carried).getLast? with
  | some read =>
    obtain ⟨n, priomap, hfind⟩ := h.last read hlast
    exact ⟨read, rfl, n, priomap, Option.some.inj (hp.symm.trans hfind)⟩
  | none =>
    -- without a schedule there is no entry, or one without a control list
    exfalso
    have hnone := List.filterMap_eq_nil_iff.mp (List.getLast?_eq_none_iff.mp hlast)
    obtain ⟨l, hl, -⟩ := htold.entries
    rcases h.blank hnone with hempty | ⟨-, hblank⟩
    · rw [hp, OrdMap.find?_empty] at hempty
      cases hempty
    · obtain rfl := Option.some.inj (hp.symm.trans hblank)
      cases hl

theorem fits_of_snapped (h : d.Snapped) : d.Fits := by
  obtain ⟨rules, hrun, hfaithful⟩ := h (fun _ => ⟨-1, 0, 0, ⟨0, 0⟩⟩)
  have heffect := snapQdiscs_effect d.framed_received hrun
  -- every schedule of the dump has an entry, and the only key is 105
  have hentry : ∀ interface, carriedBy d.messages interface ≠ [] →
      interface = 105 ∧ ∃ told p, (carriedBy d.messages interface).getLast? = some told ∧
        rules.find? 105 = some p ∧ Told told p := by
    intro interface hne
    have hlast := List.getLast?_eq_some_getLast hne
    obtain ⟨k, p, hk, hp, htold⟩ := hfaithful.told interface _ hlast
    obtain rfl := heffect.key_eq hp
    exact ⟨Int32.toInt_inj.mp hk.symm, _, p, hlast, hp, htold⟩
  have hinterface : ∀ m ∈ d.messages, m.carried ≠ none → m.ifindex = 105 :=
    fun m hm hcarried => (hentry m.ifindex (carriedBy_ne_nil_iff.mpr ⟨m, hm, rfl, hcarried⟩)).1
  refine ⟨(snapQdiscs_isSome_iff _ d.framed_received 0 ∅).mp ⟨rules, hrun⟩, hinterface, ?_⟩
  intro hany
  have hne : carriedBy d.messages 105 ≠ [] := by
    rcases hany with htaprio | ⟨m, hm, hcarried⟩
    · obtain ⟨p, hp⟩ := heffect.present (Or.inl htaprio)
      obtain ⟨interface, -, hne⟩ := hfaithful.keys 105 (OrdMap.mem_keys.mpr ⟨p, hp⟩)
      obtain ⟨rfl, -⟩ := hentry interface hne
      exact hne
    · exact carriedBy_ne_nil_iff.mpr ⟨m, hm, hinterface m hm hcarried, hcarried⟩
  obtain ⟨-, told, p, hlast, hp, htold⟩ := hentry 105 hne
  obtain ⟨read, hread, n, priomap, rfl⟩ := heffect.read_of_told hp htold
  rw [carriedBy_eq hinterface] at hlast
  exact ⟨told, read, hlast, hread, tells_of_told rfl htold⟩

theorem snapped_of_fits (h : d.Fits) : d.Snapped := by
  intro env
  obtain ⟨rules, hrun⟩ := (snapQdiscs_isSome_iff env d.framed_received 0 ∅).mpr h.readable
  have heffect := snapQdiscs_effect d.framed_received hrun
  refine ⟨rules, hrun, ?_⟩
  by_cases hany : (∃ m ∈ d.received, m.taprio ≠ none) ∨ (∃ m ∈ d.messages, m.carried ≠ none)
  · obtain ⟨told, read, hlast, hread, htells⟩ := h.schedule hany
    obtain ⟨n, priomap, hfind⟩ := heffect.last read hread
    rw [← carriedBy_eq h.interface] at hlast
    refine ⟨?_, ?_⟩
    · intro k hk
      obtain ⟨p, hp⟩ := OrdMap.mem_keys.mp hk
      obtain rfl := heffect.key_eq hp
      refine ⟨105, rfl, ?_⟩
      intro hnil
      rw [hnil] at hlast
      cases hlast
    · intro interface options hoptions
      obtain ⟨m, hm, hindex, hcarried⟩ := mem_carriedBy.mp (List.mem_of_getLast? hoptions)
      have h105 : interface = 105 := by
        rw [← hindex]
        exact h.interface m hm (by simp [hcarried])
      subst h105
      obtain rfl := Option.some.inj (hlast.symm.trans hoptions)
      exact ⟨105, _, rfl, hfind, told_of_tells htells (env n) priomap⟩
  · obtain ⟨htaprio, hcarried⟩ := not_or.mp hany
    have hidle : rules = ∅ :=
      heffect.idle fun m hm => by_contra fun hne => htaprio ⟨m, hm, hne⟩
    refine ⟨?_, ?_⟩
    · intro k hk
      rw [hidle, OrdMap.keys_empty] at hk
      cases hk
    · intro interface options hoptions
      obtain ⟨m, hm, -, hsome⟩ := mem_carriedBy.mp (List.mem_of_getLast? hoptions)
      exact absurd ⟨m, hm, by simp [hsome]⟩ hcarried

/-- The rules are those of the dump if and only if the dump is of the one shape that is read. -/
theorem snapped_iff_fits (d : Dump) : d.Snapped ↔ d.Fits :=
  ⟨fits_of_snapped, snapped_of_fits⟩

end Dump

/-- A taprio on the interface 2: one entry that opens the gates of mask 1 for 300 microseconds, from
the second 1. -/
def oneTaprio : Dump where
  received := [⟨rtmNewqdisc, 2, [
    .leaf tcaKind [116, 97, 112, 114, 105, 111, 0],
    .mk tcaOptions 0 (fun _ => 0) [
      .leaf tcaTaprioAttrPriomap [1],
      .leaf tcaTaprioAttrSchedBaseTime (toBytesLE 8 1000000000),
      .mk tcaTaprioAttrSchedEntryList 0 (fun _ => 0) [
        .mk 1 0 (fun _ => 0) [
          .leaf tcaTaprioSchedEntryIndex (toBytesLE 4 0),
          .leaf tcaTaprioSchedEntryCmd (toBytesLE 4 0),
          .leaf tcaTaprioSchedEntryGateMask (toBytesLE 4 1),
          .leaf tcaTaprioSchedEntryInterval (toBytesLE 4 300000)]]]]⟩]
  further := []
  framed := by
    intro m hm _
    rw [List.append_nil, List.mem_singleton] at hm
    rw [hm]
    exact Qdisc.framed_pair _ _ rfl

/-- The interval of the entry is read through a null pointer. -/
theorem taprio_snap_reads_null : ¬ oneTaprio.Snapped := by
  intro h
  obtain ⟨rules, hrun, -⟩ := h (fun _ => ⟨0, 0, 0, ⟨0, 0⟩⟩)
  have hnone : snapTasViaLinuxTc (fun _ => ⟨0, 0, 0, ⟨0, 0⟩⟩) oneTaprio.received = none := rfl
  rw [hnone] at hrun
  cases hrun

end Rankd.Host

import Rankd.Infra.Attribute
import Rankd.Infra.OrdMap

/-!
# The schedules of a host

`Latency::snap_tas_via_linux_tc()`: what the answer of the kernel to `RTM_GETQDISC` leaves in the
map of the time-aware shaping rules. The frames of the messages and of the attributes are well
formed, and `parse_rtattr_flags` is the lookup by type. Nothing is said of what is read and not
stored (the priority map, the queues, the clock, the flags).

A read through a null pointer and a read behind the end of a message are `none`.

* `snapQdisc_eq`: what one message does
* `snapQdiscs_isSome_iff`, `snapQdiscs_last`: when the loop goes through, and what is stored then
-/

namespace Rankd.Host

open Infra

/-! ## Constants and records -/

def rtmNewqdisc : UInt16 := 36
def tcaKind : UInt16 := 1
def tcaOptions : UInt16 := 2
def nlaFNested : UInt16 := 0x8000
def tcaTaprioAttrPriomap : UInt16 := 1
def tcaTaprioAttrSchedEntryList : UInt16 := 2
def tcaTaprioAttrSchedBaseTime : UInt16 := 3
def tcaTaprioAttrSchedCycleTime : UInt16 := 8
def tcaTaprioAttrSchedCycleTimeExtension : UInt16 := 9
def tcaTaprioSchedEntryIndex : UInt16 := 1
def tcaTaprioSchedEntryCmd : UInt16 := 2
def tcaTaprioSchedEntryGateMask : UInt16 := 3
def tcaTaprioSchedEntryInterval : UInt16 := 4

structure RationalGrouping where
  numerator : UInt32
  denominator : UInt32
  deriving DecidableEq

structure PTPTimeGrouping where
  seconds : UInt64
  nanoseconds : UInt32
  deriving DecidableEq

/-- The operation is the number behind the enumeration. -/
structure SchedGateControlEntriesEntry where
  index : UInt32
  operationName : UInt32
  timeIntervalValue : Option UInt32
  gateStatesValue : UInt8
  deriving DecidableEq

/-- The fields that are ever set. -/
structure SchedParameters where
  gateEnabled : Option Bool := some false
  adminGateStates : Option UInt8 := some 255
  operGateStates : Option UInt8 := none
  adminControlList : Option (List SchedGateControlEntriesEntry) := none
  operControlList : Option (List SchedGateControlEntriesEntry) := none
  adminCycleTime : Option RationalGrouping := none
  operCycleTime : Option RationalGrouping := none
  adminCycleTimeExtension : Option UInt32 := none
  operCycleTimeExtension : Option UInt32 := none
  adminBaseTime : Option PTPTimeGrouping := none
  operBaseTime : Option PTPTimeGrouping := none
  configChange : Option Bool := none
  currentTime : Option PTPTimeGrouping := none
  configPending : Option Bool := none
  deriving DecidableEq

abbrev Rules := OrdMap UInt8 SchedParameters

/-- `struct tcmsg` and its attributes. -/
structure Qdisc where
  type : UInt16
  ifindex : Int32
  attributes : List Attribute

/-- What variables hold that nothing was assigned to, and the time of the clock. -/
structure Locals where
  baseTime : Int64
  cycleTime : Int64
  cycleTimeExtension : Int64
  currentTime : PTPTimeGrouping

/-! ## The schedule -/

/-- The entry of a type in the table of a nested attribute. -/
def entry (a : Attribute) (type : UInt16) : Option Attribute :=
  Attribute.lookup nlaFNested a.nested type

def field (item : Attribute) (type : UInt16) : Nat :=
  ((entry item type).map (Attribute.uint 4)).getD 0

/-- The interval is looked for in the table of the entry and read from the table around it. -/
def readInterval (options item : Attribute) : Option Nat :=
  match entry item tcaTaprioSchedEntryInterval with
  | none => some 0
  | some _ => (entry options tcaTaprioSchedEntryInterval).map (Attribute.uint 4)

def readItem (options item : Attribute) : Option SchedGateControlEntriesEntry := do
  let interval ← readInterval options item
  some {
    index := UInt32.ofNat (field item tcaTaprioSchedEntryIndex)
    operationName := UInt32.ofNat (field item tcaTaprioSchedEntryCmd)
    timeIntervalValue := some (UInt32.ofNat interval)
    gateStatesValue := UInt8.ofNat (field item tcaTaprioSchedEntryGateMask) }

def readSchedule (options : Attribute) :
    List Attribute → Option (List SchedGateControlEntriesEntry)
  | [] => some []
  | item :: rest => do
    let e ← readItem options item
    let schedule ← readSchedule options rest
    some (e :: schedule)

/-- The attributes of the entry list. -/
def items (options : Attribute) : List Attribute :=
  ((entry options tcaTaprioAttrSchedEntryList).map Attribute.nested).getD []

def readTime (options : Attribute) (type : UInt16) (unassigned : Int) : Int :=
  ((entry options type).map (Attribute.int 8)).getD unassigned

theorem readTime_of_some {options a : Attribute} {type : UInt16} (h : entry options type = some a)
    (unassigned : Int) : readTime options type unassigned = a.int 8 := by
  rw [readTime, h, Option.map_some, Option.getD_some]

theorem readTime_of_none {options : Attribute} {type : UInt16} (h : entry options type = none)
    (unassigned : Int) : readTime options type unassigned = unassigned := by
  rw [readTime, h, Option.map_none, Option.getD_none]

/-- The nanoseconds are the whole count, cut to 32 bits. -/
def groupTime (nanoseconds : Int) : PTPTimeGrouping where
  seconds := UInt64.ofInt (nanoseconds.tdiv 1000000000)
  nanoseconds := UInt32.ofInt nanoseconds

def schedParameters (env : Locals) (options priomap : Attribute)
    (controlList : List SchedGateControlEntriesEntry) : SchedParameters :=
  let gateStates := UInt8.ofNat (255 >>> priomap.uint 1)
  let cycleTime : RationalGrouping :=
    ⟨UInt32.ofInt (readTime options tcaTaprioAttrSchedCycleTime env.cycleTime.toInt), 1⟩
  let cycleTimeExtension :=
    UInt32.ofInt (readTime options tcaTaprioAttrSchedCycleTimeExtension
      env.cycleTimeExtension.toInt)
  let baseTime := groupTime (readTime options tcaTaprioAttrSchedBaseTime env.baseTime.toInt)
  {
    gateEnabled := some true
    adminGateStates := some gateStates
    operGateStates := some gateStates
    adminControlList := some controlList
    operControlList := some controlList
    adminCycleTime := some cycleTime
    operCycleTime := some cycleTime
    adminCycleTimeExtension := some cycleTimeExtension
    operCycleTimeExtension := some cycleTimeExtension
    adminBaseTime := some baseTime
    operBaseTime := some baseTime
    configChange := some false
    currentTime := some env.currentTime
    configPending := some false }

/-! ## The messages -/

/-- `strcmp` with `"taprio"`. -/
def isTaprio (kind : Attribute) : Bool := kind.bytes 7 = [116, 97, 112, 114, 105, 111, 0]

/-- The member `tcm_ifindex` of what is at `RTA_DATA`, which is the name of the qdisc. -/
def interfaceIndex (kind : Attribute) : UInt8 := UInt8.ofNat (kind.uintAt 4 4)

def snapOptions (env : Locals) (options : Attribute) (interfaceIndex : UInt8) (rules : Rules) :
    Option Rules :=
  match entry options tcaTaprioAttrPriomap with
  | none => some rules
  | some priomap => do
    let schedule ← readSchedule options (items options)
    some (rules.assign interfaceIndex (schedParameters env options priomap schedule))

def snapAttributes (env : Locals) : List Attribute → Rules → Option Rules
  | [], rules => some rules
  | a :: rest, rules =>
    if a.type = tcaKind ∧ isTaprio a = true then
      let rules := rules.insertNew (interfaceIndex a) {}
      match rest with
      | [] => none
      | options :: rest => do
        let rules ← snapOptions env options (interfaceIndex a) rules
        snapAttributes env rest rules
    else snapAttributes env rest rules

def snapQdisc (env : Locals) (m : Qdisc) (rules : Rules) : Option Rules :=
  if m.type = rtmNewqdisc then snapAttributes env m.attributes rules else some rules

def snapQdiscs (env : Nat → Locals) : Nat → List Qdisc → Rules → Option Rules
  | _, [], rules => some rules
  | n, m :: rest, rules => do
    let rules ← snapQdisc (env n) m rules
    snapQdiscs env (n + 1) rest rules

/-- One datagram is received, and no other one is asked for. -/
def snapTasViaLinuxTc (env : Nat → Locals) (received : List Qdisc) : Option Rules :=
  snapQdiscs env 0 received ∅

/-! ## What the dump says -/

/-- The kernel writes the kind of a qdisc once, and the options of a taprio directly behind it. -/
def Qdisc.Framed (m : Qdisc) : Prop :=
  ∀ before kind behind, m.attributes = before ++ kind :: behind → kind.type = tcaKind →
    isTaprio kind = true → (∀ a ∈ before ++ behind, a.type ≠ tcaKind) ∧
      ∃ options rest, behind = options :: rest ∧ options.type = tcaOptions ∧
        ∀ a ∈ before, a.type ≠ tcaOptions

theorem Qdisc.framed_pair (type : UInt16) (ifindex : Int32) {kind options : Attribute}
    (hoptions : options.type = tcaOptions) : (Qdisc.mk type ifindex [kind, options]).Framed := by
  intro before kind' behind hsplit hkind' _
  match before, hsplit with
  | [], hsplit =>
    obtain ⟨rfl, rfl⟩ := List.cons.inj hsplit
    refine ⟨?_, options, [], rfl, hoptions, by simp⟩
    intro a ha
    rw [List.mem_singleton.mp ha, hoptions]
    decide
  | [a], hsplit =>
    obtain ⟨rfl, -⟩ := List.cons.inj (List.cons.inj hsplit).2
    rw [hoptions] at hkind'
    exact absurd hkind' (by decide)
  | _ :: _ :: rest, hsplit => simp at hsplit

/-- The options of a taprio qdisc. -/
def Qdisc.taprio (m : Qdisc) : Option Attribute :=
  if m.type = rtmNewqdisc then
    match Attribute.lookup 0 m.attributes tcaKind with
    | none => none
    | some kind => if isTaprio kind then Attribute.lookup 0 m.attributes tcaOptions else none
  else none

/-- The options of a taprio qdisc with a priority map. -/
def Qdisc.carried (m : Qdisc) : Option Attribute :=
  m.taprio.filter fun options => (entry options tcaTaprioAttrPriomap).isSome

/-- The first byte of the index is the fifth letter of the name. -/
theorem interfaceIndex_eq {kind : Attribute} (h : isTaprio kind = true) :
    interfaceIndex kind = 105 := by
  have hbytes : kind.bytes 7 = [116, 97, 112, 114, 105, 111, 0] := of_decide_eq_true h
  have hfour : kind.data 4 = 105 := by
    have hget := congrArg (·[4]?) hbytes
    simpa [Attribute.bytes] using hget
  have hindex : kind.uintAt 4 4 =
      (kind.data 4).toNat + 256 * ((kind.data 5).toNat + 256 * ((kind.data 6).toNat +
        256 * (kind.data 7).toNat)) := by
    simp [Attribute.uintAt, ofBytesLE, ofBytesBE, List.range_succ]
    ring
  have hletter : (105 : UInt8).toNat = 105 := rfl
  rw [interfaceIndex, hindex, hfour, hletter]
  apply UInt8.toNat_inj.mp
  rw [UInt8.toNat_ofNat', hletter]
  omega

theorem lookup_zero (l : List Attribute) (type : UInt16) :
    Attribute.lookup 0 l type = l.find? (·.type = type) := by
  simp [Attribute.lookup]

theorem Qdisc.taprio_eq_none {m : Qdisc}
    (h : ∀ a ∈ m.attributes, a.type = tcaKind → isTaprio a = false) : m.taprio = none := by
  unfold Qdisc.taprio
  split
  · cases hlookup : Attribute.lookup 0 m.attributes tcaKind with
    | none => rfl
    | some kind =>
      rw [lookup_zero] at hlookup
      have hkind : kind.type = tcaKind := by simpa using List.find?_some hlookup
      simp [h kind (List.mem_of_find?_eq_some hlookup) hkind]
  · rfl

/-- The options of a taprio are the attribute behind its kind. -/
theorem Qdisc.taprio_eq_some {m : Qdisc} (htype : m.type = rtmNewqdisc)
    {before rest : List Attribute} {kind options : Attribute}
    (hsplit : m.attributes = before ++ kind :: options :: rest) (hkind : kind.type = tcaKind)
    (htaprio : isTaprio kind = true) (hoptions : options.type = tcaOptions)
    (hbefore : ∀ a ∈ before, a.type ≠ tcaKind ∧ a.type ≠ tcaOptions) :
    m.taprio = some options := by
  have hne : ¬ kind.type = tcaOptions := by
    rw [hkind]
    decide
  have hlookup : Attribute.lookup 0 m.attributes tcaKind = some kind := by
    rw [lookup_zero, hsplit, List.find?_append, List.find?_eq_none.mpr]
    · simp [hkind]
    · intro a ha
      simp [(hbefore a ha).1]
  have hlookup' : Attribute.lookup 0 m.attributes tcaOptions = some options := by
    rw [lookup_zero, hsplit, List.find?_append, List.find?_eq_none.mpr]
    · simp [hne, hoptions]
    · intro a ha
      simp [(hbefore a ha).2]
  simp [Qdisc.taprio, htype, hlookup, hlookup', htaprio]

theorem snapAttributes_append (env : Locals) {l : List Attribute} (rest : List Attribute)
    (rules : Rules) (h : ∀ a ∈ l, a.type = tcaKind → isTaprio a = false) :
    snapAttributes env (l ++ rest) rules = snapAttributes env rest rules := by
  induction l with
  | nil => rfl
  | cons a l ih =>
    obtain ⟨ha, hl⟩ := List.forall_mem_cons.mp h
    have hnot : ¬ (a.type = tcaKind ∧ isTaprio a = true) := by
      rintro ⟨hkind, htaprio⟩
      rw [ha hkind] at htaprio
      cases htaprio
    rw [List.cons_append, snapAttributes, if_neg hnot, ih hl]

theorem snapAttributes_of_not (env : Locals) {l : List Attribute} (rules : Rules)
    (h : ∀ a ∈ l, a.type = tcaKind → isTaprio a = false) :
    snapAttributes env l rules = some rules := by
  have happend := snapAttributes_append env [] rules h
  rwa [List.append_nil] at happend

/-- What one message does. The key is always the letter `i`. -/
theorem snapQdisc_eq (env : Locals) {m : Qdisc} (hm : m.type = rtmNewqdisc → m.Framed)
    (rules : Rules) :
    snapQdisc env m rules =
      match m.taprio with
      | none => some rules
      | some options => snapOptions env options 105 (rules.insertNew 105 {}) := by
  by_cases htype : m.type = rtmNewqdisc
  · rw [snapQdisc, if_pos htype]
    by_cases hex : ∃ kind ∈ m.attributes, kind.type = tcaKind ∧ isTaprio kind = true
    · obtain ⟨kind, hmem, hkind, htaprio⟩ := hex
      obtain ⟨before, behind, hsplit⟩ := List.append_of_mem hmem
      obtain ⟨hnokind, options, rest, rfl, hoptions, hbefore⟩ :=
        hm htype before kind behind hsplit hkind htaprio
      have hbefore' : ∀ a ∈ before, a.type ≠ tcaKind ∧ a.type ≠ tcaOptions :=
        fun a ha => ⟨hnokind a (List.mem_append_left _ ha), hbefore a ha⟩
      have hrest : ∀ a ∈ rest, a.type = tcaKind → isTaprio a = false :=
        fun a ha hak => absurd hak
          (hnokind a (List.mem_append_right _ (List.mem_cons_of_mem _ ha)))
      rw [Qdisc.taprio_eq_some htype hsplit hkind htaprio hoptions hbefore', hsplit,
        snapAttributes_append env _ rules (fun a ha hak => absurd hak (hbefore' a ha).1),
        snapAttributes, if_pos ⟨hkind, htaprio⟩, interfaceIndex_eq htaprio]
      simp only [snapAttributes_of_not env _ hrest, Option.bind_eq_bind, Option.bind_fun_some]
    · have hnone : ∀ a ∈ m.attributes, a.type = tcaKind → isTaprio a = false := by
        intro a ha hak
        rw [← Bool.not_eq_true]
        exact fun htaprio => hex ⟨a, ha, hak, htaprio⟩
      rw [Qdisc.taprio_eq_none hnone, snapAttributes_of_not env rules hnone]
  · have htap : m.taprio = none := by simp [Qdisc.taprio, htype]
    rw [htap, snapQdisc, if_neg htype]

/-! ## Schedules that can be read -/

/-- Where an entry has an interval, the table around it has an attribute of this number. -/
def Readable (options : Attribute) : Prop :=
  ∀ item ∈ items options, (entry item tcaTaprioSchedEntryInterval).isSome →
    (entry options tcaTaprioSchedEntryInterval).isSome

/-- The element that an entry becomes. -/
def itemRead (options item : Attribute) : SchedGateControlEntriesEntry where
  index := UInt32.ofNat (field item tcaTaprioSchedEntryIndex)
  operationName := UInt32.ofNat (field item tcaTaprioSchedEntryCmd)
  timeIntervalValue := some (UInt32.ofNat ((readInterval options item).getD 0))
  gateStatesValue := UInt8.ofNat (field item tcaTaprioSchedEntryGateMask)

theorem readInterval_isSome_iff {options item : Attribute} :
    (readInterval options item).isSome ↔ ((entry item tcaTaprioSchedEntryInterval).isSome →
      (entry options tcaTaprioSchedEntryInterval).isSome) := by
  unfold readInterval
  cases entry item tcaTaprioSchedEntryInterval <;> simp

theorem readSchedule_eq_some {options : Attribute} {l : List Attribute}
    {schedule : List SchedGateControlEntriesEntry} :
    readSchedule options l = some schedule ↔
      (∀ item ∈ l, (readInterval options item).isSome) ∧
        schedule = l.map (itemRead options) := by
  induction l generalizing schedule with
  | nil =>
    simp only [readSchedule, Option.some.injEq, List.map_nil, List.not_mem_nil, false_implies,
      implies_true, true_and]
    exact eq_comm
  | cons item rest ih =>
    rw [readSchedule, readItem]
    cases hinterval : readInterval options item with
    | none => simp [hinterval]
    | some interval =>
      have hitem : itemRead options item =
          ⟨UInt32.ofNat (field item tcaTaprioSchedEntryIndex),
            UInt32.ofNat (field item tcaTaprioSchedEntryCmd), some (UInt32.ofNat interval),
            UInt8.ofNat (field item tcaTaprioSchedEntryGateMask)⟩ := by
        rw [itemRead, hinterval, Option.getD_some]
      simp only [Option.bind_eq_bind, Option.bind_some, Option.bind_eq_some_iff, ih,
        List.forall_mem_cons, hinterval, Option.isSome_some, true_and, List.map_cons, ← hitem]
      constructor
      · rintro ⟨schedule', ⟨hrest, rfl⟩, hcons⟩
        exact ⟨hrest, (Option.some.inj hcons).symm⟩
      · rintro ⟨hrest, rfl⟩
        exact ⟨_, ⟨hrest, rfl⟩, rfl⟩

theorem readSchedule_items {options : Attribute}
    {schedule : List SchedGateControlEntriesEntry} :
    readSchedule options (items options) = some schedule ↔
      Readable options ∧ schedule = (items options).map (itemRead options) := by
  rw [readSchedule_eq_some]
  simp only [readInterval_isSome_iff]
  rfl

/-- The parameters that the options of a qdisc become. -/
def optionsRead (env : Locals) (options priomap : Attribute) : SchedParameters :=
  schedParameters env options priomap ((items options).map (itemRead options))

/-! ## One message -/

section Message

variable {env : Locals} {m : Qdisc} {rules rules' : Rules}

theorem carried_eq_some {options : Attribute} :
    m.carried = some options ↔ m.taprio = some options ∧
      ∃ priomap, entry options tcaTaprioAttrPriomap = some priomap := by
  rw [Qdisc.carried, Option.filter_eq_some_iff, Option.isSome_iff_exists]

theorem snapOptions_eq_some {options : Attribute} {key : UInt8} :
    snapOptions env options key rules = some rules' ↔
      (entry options tcaTaprioAttrPriomap = none ∧ rules' = rules) ∨
      ∃ priomap, entry options tcaTaprioAttrPriomap = some priomap ∧ Readable options ∧
        rules' = rules.assign key (optionsRead env options priomap) := by
  unfold snapOptions
  cases entry options tcaTaprioAttrPriomap with
  | none =>
    simp only [Option.some.injEq, reduceCtorEq, false_and, exists_false, or_false, true_and]
    exact eq_comm
  | some priomap =>
    simp only [Option.bind_eq_bind, Option.bind_eq_some_iff, readSchedule_items, reduceCtorEq,
      false_and, false_or, Option.some.injEq]
    constructor
    · rintro ⟨schedule, ⟨hreadable, rfl⟩, rfl⟩
      exact ⟨priomap, rfl, hreadable, rfl⟩
    · rintro ⟨priomap', rfl, hreadable, rfl⟩
      exact ⟨_, ⟨hreadable, rfl⟩, rfl⟩

/-- Everything a message can do. -/
theorem snapQdisc_eq_some (hm : m.type = rtmNewqdisc → m.Framed) :
    snapQdisc env m rules = some rules' ↔
      (m.taprio = none ∧ rules' = rules) ∨
      (m.taprio ≠ none ∧ m.carried = none ∧ rules' = rules.insertNew 105 {}) ∨
      (∃ options priomap, m.carried = some options ∧
        entry options tcaTaprioAttrPriomap = some priomap ∧ Readable options ∧
        rules' = (rules.insertNew 105 {}).assign 105 (optionsRead env options priomap)) := by
  rw [snapQdisc_eq env hm, Qdisc.carried]
  cases m.taprio with
  | none =>
    simp only [Option.some.injEq, Option.filter_none, ne_eq, not_true, false_and, reduceCtorEq,
      exists_false, or_false, true_and]
    exact eq_comm
  | some options =>
    dsimp only
    rw [snapOptions_eq_some]
    cases hpriomap : entry options tcaTaprioAttrPriomap with
    | none => simp [hpriomap]
    | some priomap =>
      simp only [hpriomap, Option.filter_some, Option.isSome_some, if_true, reduceCtorEq,
        false_and, and_false, false_or, ne_eq, Option.some.injEq]
      constructor
      · rintro ⟨priomap', hpriomap', h⟩
        exact ⟨options, priomap', rfl, hpriomap'.symm ▸ hpriomap, h⟩
      · rintro ⟨options', priomap', rfl, hpriomap', h⟩
        exact ⟨priomap', Option.some.inj (hpriomap.symm.trans hpriomap'), h⟩

theorem snapQdisc_isSome_iff (env : Locals) (rules : Rules) (hm : m.type = rtmNewqdisc → m.Framed) :
    (∃ rules', snapQdisc env m rules = some rules') ↔
      ∀ options, m.carried = some options → Readable options := by
  constructor
  · rintro ⟨rules', h⟩ options hcarried
    rcases (snapQdisc_eq_some hm).mp h with ⟨hnone, -⟩ | ⟨-, hnone, -⟩ |
      ⟨options', priomap, hcarried', -, hreadable, -⟩
    · rw [Qdisc.carried, hnone] at hcarried
      cases hcarried
    · rw [hnone] at hcarried
      cases hcarried
    · rw [hcarried'] at hcarried
      exact Option.some.inj hcarried ▸ hreadable
  · intro h
    by_cases htaprio : m.taprio = none
    · exact ⟨_, (snapQdisc_eq_some hm).mpr (Or.inl ⟨htaprio, rfl⟩)⟩
    cases hcarried : m.carried with
    | none => exact ⟨_, (snapQdisc_eq_some hm).mpr (Or.inr (Or.inl ⟨htaprio, hcarried, rfl⟩))⟩
    | some options =>
      obtain ⟨-, priomap, hpriomap⟩ := carried_eq_some.mp hcarried
      exact ⟨_, (snapQdisc_eq_some hm).mpr (Or.inr (Or.inr
        ⟨options, priomap, hcarried, hpriomap, h options hcarried, rfl⟩))⟩

end Message

/-! ## All messages -/

/-- What a list of messages does to the rules, where it is read to its end. -/
structure Effect (env : Nat → Locals) (ms : List Qdisc) (rules rules' : Rules) : Prop where
  other : ∀ k, k ≠ 105 → rules'.find? k = rules.find? k
  idle : (∀ m ∈ ms, m.taprio = none) → rules' = rules
  present : ((∃ m ∈ ms, m.taprio ≠ none) ∨ ∃ p, rules.find? 105 = some p) →
    ∃ p, rules'.find? 105 = some p
  blank : (∀ m ∈ ms, m.carried = none) → rules'.find? 105 = rules.find? 105 ∨
    (rules.find? 105 = none ∧ rules'.find? 105 = some {})
  last : ∀ options, (ms.filterMap Qdisc.carried).getLast? = some options →
    ∃ n priomap, rules'.find? 105 = some (optionsRead (env n) options priomap)

section Messages

variable {env : Nat → Locals}

theorem snapQdiscs_isSome_iff (env : Nat → Locals) {ms : List Qdisc}
    (hms : ∀ m ∈ ms, m.type = rtmNewqdisc → m.Framed)
    (n : Nat) (rules : Rules) :
    (∃ rules', snapQdiscs env n ms rules = some rules') ↔
      ∀ m ∈ ms, ∀ options, m.carried = some options → Readable options := by
  induction ms generalizing n rules with
  | nil => simp [snapQdiscs]
  | cons m rest ih =>
    obtain ⟨hm, hrest⟩ := List.forall_mem_cons.mp hms
    rw [List.forall_mem_cons, ← snapQdisc_isSome_iff (env n) rules hm]
    simp only [snapQdiscs, Option.bind_eq_bind, Option.bind_eq_some_iff]
    constructor
    · rintro ⟨rules', mid, hfirst, hthen⟩
      exact ⟨⟨mid, hfirst⟩, (ih hrest (n + 1) mid).mp ⟨rules', hthen⟩⟩
    · rintro ⟨⟨mid, hfirst⟩, hreadable⟩
      obtain ⟨rules', hthen⟩ := (ih hrest (n + 1) mid).mpr hreadable
      exact ⟨rules', mid, hfirst, hthen⟩

/-- The effect of one message: the three cases of `snapQdisc_eq_some`. -/
theorem snapQdisc_effect {m : Qdisc} (hm : m.type = rtmNewqdisc → m.Framed) {n : Nat}
    {rules rules' : Rules} (h : snapQdisc (env n) m rules = some rules') :
    Effect env [m] rules rules' := by
  rcases (snapQdisc_eq_some hm).mp h with ⟨htaprio, rfl⟩ | ⟨htaprio, hcarried, rfl⟩ |
    ⟨options, priomap, hcarried, -, -, rfl⟩
  · have hcarried : m.carried = none := by simp [Qdisc.carried, htaprio]
    exact {
      other := fun _ _ => rfl
      idle := fun _ => rfl
      present := by simp [htaprio]
      blank := fun _ => Or.inl rfl
      last := by simp [hcarried] }
  · exact {
      other := fun k hk => by rw [OrdMap.find?_insertNew, if_neg hk]
      idle := fun hidle => absurd (hidle m (List.mem_singleton.mpr rfl)) htaprio
      present := fun _ => ⟨_, by rw [OrdMap.find?_insertNew, if_pos rfl]⟩
      blank := fun _ => by
        rw [OrdMap.find?_insertNew, if_pos rfl]
        cases rules.find? 105 with
        | none => exact Or.inr ⟨rfl, rfl⟩
        | some p => exact Or.inl rfl
      last := by simp [hcarried] }
  · have htaprio : m.taprio ≠ none := by
      rw [(carried_eq_some.mp hcarried).1]
      exact Option.some_ne_none options
    exact {
      other := fun k hk => by
        rw [OrdMap.find?_assign, if_neg hk, OrdMap.find?_insertNew, if_neg hk]
      idle := fun hidle => absurd (hidle m (List.mem_singleton.mpr rfl)) htaprio
      present := fun _ => ⟨_, by rw [OrdMap.find?_assign, if_pos rfl]⟩
      blank := fun hnone => by
        rw [hnone m (List.mem_singleton.mpr rfl)] at hcarried
        cases hcarried
      last := fun options' hlast => by
        obtain rfl : options = options' := by simpa [hcarried] using hlast
        exact ⟨n, priomap, by rw [OrdMap.find?_assign, if_pos rfl]⟩ }

theorem Effect.cons {m : Qdisc} {rest : List Qdisc} {rules mid rules' : Rules}
    (hfirst : Effect env [m] rules mid) (hthen : Effect env rest mid rules') :
    Effect env (m :: rest) rules rules' where
  other k hk := (hthen.other k hk).trans (hfirst.other k hk)
  idle hidle := by
    obtain ⟨hm, hrest⟩ := List.forall_mem_cons.mp hidle
    rw [hthen.idle hrest, hfirst.idle (List.forall_mem_singleton.mpr hm)]
  present h := by
    apply hthen.present
    rcases h with ⟨x, hx, htaprio⟩ | h
    · rcases List.mem_cons.mp hx with rfl | hx
      · exact Or.inr (hfirst.present (Or.inl ⟨x, List.mem_singleton.mpr rfl, htaprio⟩))
      · exact Or.inl ⟨x, hx, htaprio⟩
    · exact Or.inr (hfirst.present (Or.inr h))
  blank hnone := by
    obtain ⟨hm, hrest⟩ := List.forall_mem_cons.mp hnone
    rcases hfirst.blank (List.forall_mem_singleton.mpr hm) with hsame | ⟨hempty, hnew⟩
    · rw [← hsame]
      exact hthen.blank hrest
    · rcases hthen.blank hrest with hsame | ⟨hmid, -⟩
      · exact Or.inr ⟨hempty, hsame.trans hnew⟩
      · rw [hnew] at hmid
        cases hmid
  last options hlast := by
    cases hcarried : rest.filterMap Qdisc.carried with
    | nil =>
      -- the last schedule is the one of `m`, and it is kept
      have hnone : ∀ x ∈ rest, x.carried = none := List.filterMap_eq_nil_iff.mp hcarried
      have hlast' : ([m].filterMap Qdisc.carried).getLast? = some options := by
        rw [← List.singleton_append, List.filterMap_append, hcarried, List.append_nil] at hlast
        exact hlast
      obtain ⟨n, priomap, hfind⟩ := hfirst.last options hlast'
      rcases hthen.blank hnone with hsame | ⟨hmid, -⟩
      · exact ⟨n, priomap, hsame.trans hfind⟩
      · rw [hfind] at hmid
        cases hmid
    | cons o os =>
      refine hthen.last options ?_
      rw [← List.singleton_append, List.filterMap_append, hcarried,
        List.getLast?_append_of_ne_nil _ (List.cons_ne_nil o os)] at hlast
      rw [hcarried, hlast]

theorem snapQdiscs_effect {ms : List Qdisc} (hms : ∀ m ∈ ms, m.type = rtmNewqdisc → m.Framed)
    {n : Nat} {rules rules' : Rules} (h : snapQdiscs env n ms rules = some rules') :
    Effect env ms rules rules' := by
  induction ms generalizing n rules with
  | nil =>
    obtain rfl := Option.some.inj h
    exact {
      other := fun _ _ => rfl
      idle := fun _ => rfl
      present := by simp
      blank := fun _ => Or.inl rfl
      last := by simp }
  | cons m rest ih =>
    obtain ⟨hm, hrest⟩ := List.forall_mem_cons.mp hms
    simp only [snapQdiscs, Option.bind_eq_bind, Option.bind_eq_some_iff] at h
    obtain ⟨mid, hfirst, hthen⟩ := h
    exact (snapQdisc_effect hm hfirst).cons (ih hrest hthen)

end Messages

end Rankd.Host

import Rankd.Properties.Hops

/-!
# Payloads that are not requirements

What `unmarshal` does with the payload of an EAR or MAR that comes from anyone.

* `validateItems_invalidArgument_iff` — the loop over the items refuses the first that is an object
  but no requirement in its place
* `payload_contained_iff` — the payloads that are either read or refused with
  `std::invalid_argument`, the only exception that a handler catches
-/

namespace Rankd

open Infra

/-! ## Items -/

/-- The order of an item is the given place. -/
def Json.InPlace (i : Nat) (item : Json) : Prop :=
  ∃ order number, item.findMember "order" = .ok (some order) ∧ order.getUint = .ok number ∧
    number.toInt = i

/-- The requirement of an item is an object that begins with the given member. -/
def Json.Requires (item : Json) (first : String × Json) : Prop :=
  ∃ others, item.findMember "requirement" = .ok (some (.object (first :: others)))

/-- A requirement of a known kind in its place. -/
def Json.AcceptedAt (i : Nat) (item : Json) : Prop :=
  item.InPlace i ∧ ∃ first, item.Requires first ∧ typify first.1 ≠ .unknown

/-- An object that is no requirement in its place, as far as the loop looks at it. -/
inductive Json.RefusedAt (i : Nat) (item : Json) : Prop
  | missing (h : item.findMember "order" = .ok none ∨ item.findMember "requirement" = .ok none)
  | place {order requirement : Json} {number : BitVec 32}
    (ho : item.findMember "order" = .ok (some order))
    (hr : item.findMember "requirement" = .ok (some requirement))
    (hn : order.getUint = .ok number) (hi : number.toInt ≠ i)
  | kind {first : String × Json} (hi : item.InPlace i) (hr : item.Requires first)
    (hkind : typify first.1 = .unknown)

/-- The number of cores is a number of 32 bits, if the item asks for cores. -/
def Json.Counted (item : Json) : Prop :=
  ∀ first, item.Requires first → first.1 = "cpu_cores" → ∃ cores, first.2.getUint = .ok cores

section Items

variable {valid : Bool} {i : Nat} {item : Json} {items rest : List Json}

/-- Both members are looked up in an object, or none. -/
theorem Json.findMember_cases (item : Json) :
    (∃ order requirement, item.findMember "order" = .ok order ∧
      item.findMember "requirement" = .ok requirement) ∨
    item.findMember "order" = .error .other := by
  cases item with
  | object members => exact Or.inl ⟨_, _, rfl, rfl⟩
  | null | bool | uint | double | string | array => exact Or.inr rfl

theorem Json.getUint_error {json : Json} {e : UnmarshalError} (h : json.getUint = .error e) :
    e = .other := by
  unfold Json.getUint at h
  split at h
  · split at h <;> cases h
    rfl
  · cases h
    rfl

theorem Json.memberBegin_error {json : Json} {e : UnmarshalError}
    (h : json.memberBegin = .error e) : e = .other := by
  unfold Json.memberBegin at h
  split at h <;> cases h
  rfl

theorem Json.memberBegin_cons (first : String × Json) (others : List (String × Json)) :
    (Json.object (first :: others)).memberBegin = .ok first := rfl

/-- How the loop begins with an item of which it finds both members. -/
theorem validateItems_found {order requirement : Json}
    (ho : item.findMember "order" = .ok (some order))
    (hr : item.findMember "requirement" = .ok (some requirement)) :
    validateItems valid i (item :: rest) = (do
      let number ← order.getUint
      if number.toInt = i then
        let first ← requirement.memberBegin
        if typify first.1 = .unknown then .error .invalidArgument
        else if valid then validateItems valid (i + 1) rest
        else .error .other
      else .error .invalidArgument) := by
  rw [validateItems, ho, ok_bind, hr, ok_bind]

theorem validateItems_accepted (h : item.AcceptedAt i) : validateItems valid i (item :: rest) =
    if valid then validateItems valid (i + 1) rest else .error .other := by
  obtain ⟨⟨order, number, ho, hn, hi⟩, first, ⟨others, hr⟩, hkind⟩ := h
  rw [validateItems_found ho hr, hn, ok_bind, if_pos hi, Json.memberBegin_cons, ok_bind,
    if_neg hkind]

theorem validateItems_refused (h : item.RefusedAt i) :
    validateItems valid i (item :: rest) = .error .invalidArgument := by
  cases h with
  | missing h =>
    rcases item.findMember_cases with ⟨order, requirement, ho, hr⟩ | herror
    · rw [validateItems, ho, ok_bind, hr, ok_bind]
      rw [ho, hr] at h
      rcases h with h | h <;> cases h
      · rfl
      · cases order <;> rfl
    · cases item with
      | object members => cases herror
      | null | bool | uint | double | string | array => rcases h with h | h <;> cases h
  | place ho hr hn hi => rw [validateItems_found ho hr, hn, ok_bind, if_neg hi]
  | kind hi hr hkind =>
    obtain ⟨order, number, ho, hn, hi⟩ := hi
    obtain ⟨others, hr⟩ := hr
    rw [validateItems_found ho hr, hn, ok_bind, if_pos hi, Json.memberBegin_cons, ok_bind,
      if_pos hkind]

/-- An item of any other shape ends in something else. -/
theorem validateItems_other (ha : ¬item.AcceptedAt i) (hr : ¬item.RefusedAt i) :
    validateItems valid i (item :: rest) = .error .other := by
  rcases item.findMember_cases with ⟨order, requirement, hfo, hfr⟩ | herror
  swap
  · rw [validateItems, herror]
    rfl
  rcases order with _ | order
  · exact absurd (.missing (Or.inl hfo)) hr
  rcases requirement with _ | requirement
  · exact absurd (.missing (Or.inr hfr)) hr
  rw [validateItems_found hfo hfr]
  rcases hn : order.getUint with e | number
  · rw [Json.getUint_error hn]
    rfl
  rw [ok_bind]
  by_cases hi : number.toInt = i
  swap
  · exact absurd (.place hfo hfr hn hi) hr
  rw [if_pos hi]
  rcases hf : requirement.memberBegin with e | first
  · rw [Json.memberBegin_error hf]
    rfl
  -- an object with members is of a known kind or of none
  obtain ⟨others, rfl⟩ := Json.memberBegin_ok hf
  have hplace : item.InPlace i := ⟨order, number, hfo, hn, hi⟩
  have hrequires : item.Requires first := ⟨others, hfr⟩
  by_cases hkind : typify first.1 = .unknown
  · exact absurd (.kind hplace hrequires hkind) hr
  · exact absurd ⟨hplace, first, hrequires, hkind⟩ ha

/-- All items are requirements in their places, counted from the given one. -/
def AllAccepted (i : Nat) (items : List Json) : Prop :=
  ∀ (k : Nat) (item : Json), items[k]? = some item → item.AcceptedAt (i + k)

theorem allAccepted_nil : AllAccepted i [] := by
  intro k item h
  simp at h

theorem allAccepted_cons :
    AllAccepted i (item :: rest) ↔ item.AcceptedAt i ∧ AllAccepted (i + 1) rest := by
  constructor
  · intro h
    refine ⟨h 0 item rfl, fun k other hk => ?_⟩
    rw [Nat.add_assoc, Nat.add_comm 1 k]
    exact h (k + 1) other hk
  · rintro ⟨hfirst, hrest⟩ k other hk
    cases k with
    | zero =>
      cases hk
      exact hfirst
    | succ k =>
      have h := hrest k other hk
      rwa [Nat.add_assoc, Nat.add_comm 1 k] at h

/-- The loop passes items that are all accepted, if libyang accepts the document. -/
theorem validateItems_ok_iff : validateItems valid i items = .ok () ↔
    AllAccepted i items ∧ (items = [] ∨ valid = true) := by
  induction items generalizing i with
  | nil => exact iff_of_true rfl ⟨allAccepted_nil, Or.inl rfl⟩
  | cons item rest ih =>
    rw [allAccepted_cons]
    by_cases ha : item.AcceptedAt i
    · rw [validateItems_accepted ha]
      cases valid with
      | false => simp
      | true => simp [ih, ha]
    · refine iff_of_false ?_ fun h => ha h.1.1
      by_cases hr : item.RefusedAt i
      · rw [validateItems_refused hr]
        nofun
      · rw [validateItems_other ha hr]
        nofun

/-- The first item that is not accepted is refused. -/
structure RefusedIn (valid : Bool) (i : Nat) (items before : List Json) (item : Json) : Prop where
  split : ∃ after, items = before ++ item :: after
  accepted : AllAccepted i before
  refused : item.RefusedAt (i + before.length)
  valid : before = [] ∨ valid = true

/-- **When the loop over the items throws `std::invalid_argument`.** -/
theorem validateItems_invalidArgument_iff : validateItems valid i items = .error .invalidArgument ↔
    ∃ before item, RefusedIn valid i items before item := by
  induction items generalizing i with
  | nil =>
    refine iff_of_false nofun ?_
    rintro ⟨before, item, ⟨after, hsplit⟩, -, -, -⟩
    simp at hsplit
  | cons first rest ih =>
    constructor
    · intro h
      by_cases hr : first.RefusedAt i
      · exact ⟨[], first, ⟨rest, rfl⟩, allAccepted_nil, hr, Or.inl rfl⟩
      by_cases ha : first.AcceptedAt i
      swap
      · rw [validateItems_other ha hr] at h
        cases h
      rw [validateItems_accepted ha] at h
      by_cases hvalid : valid = true
      swap
      · rw [if_neg hvalid] at h
        cases h
      rw [if_pos hvalid] at h
      obtain ⟨before, item, ⟨after, rfl⟩, haccepted, hrefused, -⟩ := ih.mp h
      refine ⟨first :: before, item, ⟨after, rfl⟩, allAccepted_cons.mpr ⟨ha, haccepted⟩, ?_,
        Or.inr hvalid⟩
      rwa [List.length_cons, Nat.add_comm before.length, ← Nat.add_assoc]
    · rintro ⟨before, item, ⟨after, hsplit⟩, haccepted, hrefused, hvalid⟩
      cases before with
      | nil =>
        cases hsplit
        exact validateItems_refused hrefused
      | cons head before =>
        cases hsplit
        obtain ⟨hfirst, hbefore⟩ := allAccepted_cons.mp haccepted
        rcases hvalid with h | hvalid
        · cases h
        rw [List.length_cons, Nat.add_comm before.length, ← Nat.add_assoc] at hrefused
        rw [validateItems_accepted hfirst, if_pos hvalid]
        exact ih.mpr ⟨before, item, ⟨after, rfl⟩, hbefore, hrefused, Or.inr hvalid⟩

/-- The transformation of items that are accepted stumbles only over a number of cores. -/
theorem addRequirements_accepted {c : RequestingCapabilities} (h : AllAccepted i items) :
    (∃ c', addRequirements items c = .ok c') ∧ (∀ item ∈ items, item.Counted) ∨
      addRequirements items c = .error .other ∧ ¬∀ item ∈ items, item.Counted := by
  induction items generalizing i c with
  | nil => exact Or.inl ⟨⟨c, rfl⟩, nofun⟩
  | cons item rest ih =>
    obtain ⟨⟨⟨order, number, ho, hn, -⟩, ⟨name, value⟩, ⟨others, hr⟩, hkind⟩, hrest⟩ :=
      allAccepted_cons.mp h
    have hfirst : ∀ first, item.Requires first → first = (name, value) := by
      rintro first ⟨others', hr'⟩
      rw [hr] at hr'
      cases hr'
      rfl
    rw [addRequirements, Json.member_of_findMember hr, ok_bind, Json.memberBegin_cons, ok_bind]
    simp only [fnvHash_typify hkind, List.forall_mem_cons]
    by_cases hname : name = "cpu_cores"
    · have hmember : (Json.object ((name, value) :: others)).member "cpu_cores" = .ok value := by
        simp [Json.member, Json.findMember, hname]
      rw [if_pos hname, hmember, ok_bind]
      rcases hc : value.getUint with e | cores
      · rw [Json.getUint_error hc]
        refine Or.inr ⟨rfl, fun hall => ?_⟩
        obtain ⟨cores, hcores⟩ := hall.1 (name, value) ⟨others, hr⟩ hname
        rw [hc] at hcores
        cases hcores
      · have hcounted : item.Counted := by
          intro first hrequires _
          rw [hfirst first hrequires]
          exact ⟨cores, hc⟩
        rw [ok_bind, Json.member_of_findMember ho, ok_bind, hn, ok_bind, and_iff_right hcounted]
        exact ih hrest
    · have hcounted : item.Counted := by
        intro first hrequires hcpu
        rw [hfirst first hrequires] at hcpu
        exact absurd hcpu hname
      rw [if_neg hname, and_iff_right hcounted]
      exact ih hrest

end Items

/-! ## Documents -/

/--
Documents that are read or refused: objects with any other members than a list of requirements, and
lists that are refused at an item or whose items can all be read. `valid` is the verdict of libyang.
-/
inductive Json.Contained (valid : Bool) : Json → Prop
  | members {members : List (String × Json)} (h : members.length ≠ 1) :
    Contained valid (.object members)
  | key {key : String} {value : Json} (h : key ≠ requirementsKey) :
    Contained valid (.object [(key, value)])
  | unlisted {value : Json} {items : Option Json} (h : value.findMember "items" = .ok items)
    (hitems : ∀ list, items ≠ some (.array list)) :
    Contained valid (.object [(requirementsKey, value)])
  | refused {value item : Json} {items before : List Json}
    (h : value.findMember "items" = .ok (some (.array items)))
    (hr : RefusedIn valid 0 items before item) :
    Contained valid (.object [(requirementsKey, value)])
  | read {value : Json} {items : List Json}
    (h : value.findMember "items" = .ok (some (.array items)))
    (ha : AllAccepted 0 items) (hvalid : items = [] ∨ valid = true)
    (hc : ∀ item ∈ items, item.Counted) : Contained valid (.object [(requirementsKey, value)])

section Documents

variable {lib : Libraries} {data : Bytes}

/-- A result, or `std::invalid_argument`. -/
def ReadOrRefused (r : Except UnmarshalError RequestingCapabilities) : Prop :=
  (∃ c, r = .ok c) ∨ r = .error .invalidArgument

theorem not_readOrRefused_other : ¬ReadOrRefused (.error .other) := by
  rintro (⟨c, h⟩ | h) <;> cases h

/-- What comes of a document whose only member is a list of requirements. -/
theorem unmarshal_listed {value : Json} {items : List Json} (hdata : data ≠ [])
    (hdocument : deserializeJson lib data = .object [(requirementsKey, value)])
    (h : value.findMember "items" = .ok (some (.array items))) : unmarshal lib data =
      (do validateItems (lib.validate (deserializeJson lib data)) 0 items
          addRequirements items ⟨[], []⟩) := by
  have hempty : ¬data.isEmpty = true := mt List.isEmpty_iff.mp hdata
  have hmember : (Json.object [(requirementsKey, value)]).member requirementsKey = .ok value := by
    simp [Json.member, Json.findMember]
  rw [unmarshal, if_neg hempty, hdocument]
  simp only [validateYang, if_true, h, ok_bind, transformToRequirements, hmember,
    Json.member_of_findMember h, Json.getArray]

/-- Lists are contained if they are refused at an item, or read to their end. -/
theorem readOrRefused_listed {value : Json} {items : List Json} (hdata : data ≠ [])
    (hdocument : deserializeJson lib data = .object [(requirementsKey, value)])
    (h : value.findMember "items" = .ok (some (.array items))) :
    ReadOrRefused (unmarshal lib data) ↔
      (∃ before item, RefusedIn (lib.validate (deserializeJson lib data)) 0 items before item) ∨
      AllAccepted 0 items ∧ (items = [] ∨ lib.validate (deserializeJson lib data) = true) ∧
        ∀ item ∈ items, item.Counted := by
  rw [unmarshal_listed hdata hdocument h, ← validateItems_invalidArgument_iff, ← and_assoc,
    ← validateItems_ok_iff]
  rcases hv : validateItems (lib.validate (deserializeJson lib data)) 0 items with e | _
  · cases e with
    | invalidArgument => exact iff_of_true (Or.inr rfl) (Or.inl rfl)
    | other =>
      refine iff_of_false not_readOrRefused_other ?_
      rintro (h | ⟨h, -⟩) <;> cases h
  · have haccepted := (validateItems_ok_iff.mp hv).1
    rcases addRequirements_accepted (c := ⟨[], []⟩) haccepted with
      ⟨⟨c, hc⟩, hcounted⟩ | ⟨hother, hcounted⟩
    · exact iff_of_true (Or.inl ⟨c, hc⟩) (Or.inr ⟨rfl, hcounted⟩)
    · refine iff_of_false (hother ▸ not_readOrRefused_other) ?_
      rintro (h | ⟨-, h⟩)
      · cases h
      · exact hcounted h

/--
**Payloads are contained** exactly if they are empty or hold a document that is read or refused: the
other shapes end in a failed assertion or in an exception that a handler does not catch.
-/
theorem payload_contained_iff (lib : Libraries) (data : Bytes) :
    ReadOrRefused (unmarshal lib data) ↔
      data = [] ∨
      (deserializeJson lib data).Contained (lib.validate (deserializeJson lib data)) := by
  by_cases hdata : data = []
  · exact iff_of_true (Or.inl ⟨⟨[], []⟩, by rw [hdata]; rfl⟩) (Or.inl hdata)
  have hempty : ¬data.isEmpty = true := mt List.isEmpty_iff.mp hdata
  rw [or_iff_right hdata]
  rcases hd : deserializeJson lib data with _ | _ | _ | _ | _ | _ | members
  -- the document is no object
  iterate 6
    refine iff_of_false ?_ nofun
    rw [unmarshal, if_neg hempty, hd]
    exact not_readOrRefused_other
  -- only an object with a single member is looked into
  rcases members with _ | ⟨⟨key, value⟩, _ | ⟨second, rest⟩⟩
  · refine iff_of_true (Or.inr ?_) (.members (by simp))
    rw [unmarshal, if_neg hempty, hd]
    rfl
  swap
  · refine iff_of_true (Or.inr ?_) (.members (by simp))
    rw [unmarshal, if_neg hempty, hd]
    rfl
  by_cases hkey : key = requirementsKey
  swap
  · refine iff_of_true (Or.inr ?_) (.key hkey)
    rw [unmarshal, if_neg hempty, hd]
    simp only [validateYang, if_neg hkey]
    rfl
  subst hkey
  rcases hitems : value.findMember "items" with e | items
  · -- the list of requirements is no object
    have hother : e = .other := by
      cases value <;> cases hitems <;> rfl
    refine iff_of_false ?_ ?_
    · rw [unmarshal, if_neg hempty, hd]
      simp only [validateYang, if_true, hitems, hother]
      exact not_readOrRefused_other
    · intro h
      cases h with
      | members h => exact h rfl
      | key h => exact h rfl
      | unlisted h | refused h | read h =>
        rw [hitems] at h
        cases h
  -- and only if its items are a list
  by_cases hlist : ∃ list, items = some (.array list)
  swap
  · refine iff_of_true (Or.inr ?_) (.unlisted hitems fun list h => hlist ⟨list, h⟩)
    rw [unmarshal, if_neg hempty, hd]
    simp only [validateYang, if_true, hitems, ok_bind]
    split
    next list => exact absurd ⟨list, rfl⟩ hlist
    next => rfl
  obtain ⟨list, rfl⟩ := hlist
  rw [readOrRefused_listed hdata hd hitems, ← hd]
  constructor
  · rintro (⟨before, item, hrefused⟩ | ⟨haccepted, hvalid, hcounted⟩)
    · rw [hd] at hrefused ⊢
      exact .refused hitems hrefused
    · rw [hd] at hvalid ⊢
      exact .read hitems haccepted hvalid hcounted
  · rw [hd]
    intro h
    cases h with
    | members h => exact absurd rfl h
    | key h => exact absurd rfl h
    | unlisted h hnone =>
      rw [hitems] at h
      cases h
      exact absurd rfl (hnone list)
    | refused h hrefused =>
      rw [hitems] at h
      cases h
      exact Or.inl ⟨_, _, hrefused⟩
    | read h haccepted hvalid hcounted =>
      rw [hitems] at h
      cases h
      exact Or.inr ⟨haccepted, hvalid, hcounted⟩

/-- The byte 0xFF is no CBOR item, and is read as the document `null`. -/
theorem payload_uncontained : ¬ReadOrRefused (unmarshal .sample [0xFF]) :=
  not_readOrRefused_other

end Documents

end Rankd

import Rankd.Node.Requirements

/-!
# Requirements from hop to hop

A node that relays a request unmarshals its payload and sends the requirements on in a payload of
its own. Only the `cpu_cores` items of a payload become requirements, under places of eight bits,
and the next node accepts a payload only if the orders of its items are 0, 1, 2 and so on. So a
payload is relayed unchanged if and only if the places that are taken have no gap
(`relayed_unchanged_iff`); any item of another kind before the last `cpu_cores` item leaves one.
-/

namespace Rankd

open Infra

/-! ## The requirements of a payload -/

/-- The number of cores that an item asks for. -/
def Json.cpuCores? (item : Json) : Option UInt32 :=
  match item.findMember "requirement" with
  | .ok (some (.object ((name, value) :: _))) =>
    if name = "cpu_cores" then
      match value.getUint with
      | .ok cores => some ⟨cores⟩
      | .error _ => none
    else none
  | _ => none

/-- The `cpu_cores` items of a list with their positions, the first of which is given. -/
def cpuRequests : Nat → List Json → List (Nat × UInt32)
  | _, [] => []
  | i, item :: rest =>
    match item.cpuCores? with
    | some cores => (i, cores) :: cpuRequests (i + 1) rest
    | none => cpuRequests (i + 1) rest

/-- The items of a request. -/
def Json.requestItems : Json → List Json
  | .object [(_, value)] =>
    match value.findMember "items" with
    | .ok (some (.array items)) => items
    | _ => []
  | _ => []

/-- The `cpu_cores` items of a payload. -/
def payloadRequests (lib : Libraries) (data : Bytes) : List (Nat × UInt32) :=
  if data.isEmpty then [] else cpuRequests 0 (deserializeJson lib data).requestItems

/-- The requirements that are made of `cpu_cores` items. -/
def collect (requests : List (Nat × UInt32)) (c : RequestingCapabilities) :
    RequestingCapabilities :=
  requests.foldl (fun c e => c.addItem (.compCpu, some e.2) (UInt8.ofNat e.1)) c

section Unmarshal

variable {lib : Libraries} {data : Bytes} {c c' : RequestingCapabilities}

theorem Json.member_of_findMember {json value : Json} {key : String}
    (h : json.findMember key = .ok (some value)) : json.member key = .ok value := by
  rw [Json.member, h]

/-- The kinds that are accepted are told apart by their hashes. -/
theorem fnvHash_typify {name : String} (h : typify name ≠ .unknown) :
    fnvHash name = CapabilityItemType.compCpu.value ↔ name = "cpu_cores" := by
  unfold typify at h
  constructor
  · intro hhash
    split_ifs at h with hcpu hmemory hinterface
    · exact hcpu
    · subst hmemory
      exact absurd hhash (by decide +kernel)
    · subst hinterface
      exact absurd hhash (by decide +kernel)
    · exact absurd rfl h
  · rintro rfl
    rfl

/-- An order that is as expected, in eight bits. -/
theorem setWidth_of_toInt {order : BitVec 32} {i : Nat} (h : order.toInt = i) :
    (⟨order.setWidth 8⟩ : UInt8) = UInt8.ofNat i := by
  have hnat : order.toNat = i := by
    have hcases := BitVec.toInt_eq_toNat_cond order
    split_ifs at hcases
    · omega
    · have hlt := order.isLt
      omega
  rw [UInt8.ofNat, ← hnat]
  congr 1

theorem Json.memberBegin_ok {json : Json} {first : String × Json}
    (h : json.memberBegin = .ok first) : ∃ others, json = .object (first :: others) := by
  unfold Json.memberBegin at h
  split at h
  · cases h
    exact ⟨_, rfl⟩
  · cases h

/-- An item that is accepted. -/
theorem validateItems_cons {valid : Bool} {i : Nat} {item : Json} {rest : List Json}
    (hv : validateItems valid i (item :: rest) = .ok ()) :
    ∃ order number first others, item.findMember "order" = .ok (some order) ∧
      item.findMember "requirement" = .ok (some (.object (first :: others))) ∧
      order.getUint = .ok number ∧ number.toInt = i ∧ typify first.1 ≠ .unknown ∧
      validateItems valid (i + 1) rest = .ok () := by
  rw [validateItems] at hv
  rcases ho : item.findMember "order" with _ | order
  · rw [ho] at hv
    cases hv
  rcases hr : item.findMember "requirement" with _ | requirement
  · rw [ho, hr] at hv
    cases hv
  rcases order with _ | order
  · rw [ho, hr] at hv
    cases hv
  rcases requirement with _ | requirement
  · rw [ho, hr] at hv
    cases hv
  rw [ho, hr] at hv
  simp only [ok_bind] at hv
  rcases hn : order.getUint with _ | number
  · rw [hn] at hv
    cases hv
  rw [hn] at hv
  simp only [ok_bind] at hv
  by_cases hi : number.toInt = i
  swap
  · rw [if_neg hi] at hv
    cases hv
  rw [if_pos hi] at hv
  rcases hf : requirement.memberBegin with _ | first
  · rw [hf] at hv
    cases hv
  rw [hf] at hv
  simp only [ok_bind] at hv
  split_ifs at hv with hkind
  obtain ⟨others, rfl⟩ := Json.memberBegin_ok hf
  exact ⟨order, number, first, others, rfl, rfl, hn, hi, hkind, hv⟩

/-- **What the loops over the items do**, for items that are accepted. -/
theorem addRequirements_collect {valid : Bool} {i : Nat} {items : List Json}
    (hv : validateItems valid i items = .ok ()) (hrun : addRequirements items c = .ok c') :
    c' = collect (cpuRequests i items) c := by
  induction items generalizing i c with
  | nil =>
    cases hrun
    rfl
  | cons item rest ih =>
    obtain ⟨order, number, ⟨name, value⟩, others, ho, hr, hn, hi, hkind, hrest⟩ :=
      validateItems_cons hv
    rw [addRequirements, Json.member_of_findMember hr, ok_bind] at hrun
    simp only [Json.memberBegin, ok_bind, fnvHash_typify hkind] at hrun
    by_cases hname : name = "cpu_cores"
    · have hmember : (Json.object ((name, value) :: others)).member "cpu_cores" = .ok value := by
        simp [Json.member, Json.findMember, hname]
      rw [if_pos hname, hmember, ok_bind] at hrun
      rcases hc : value.getUint with _ | cores
      · rw [hc] at hrun
        cases hrun
      · rw [hc, ok_bind, Json.member_of_findMember ho, ok_bind, hn, ok_bind,
          setWidth_of_toInt hi] at hrun
        have hcores : item.cpuCores? = some ⟨cores⟩ := by
          simp only [Json.cpuCores?, hr, hname, if_true, hc]
        rw [cpuRequests, hcores]
        exact ih hrest hrun
    · have hcores : item.cpuCores? = none := by
        simp only [Json.cpuCores?, hr, hname, if_false]
      rw [if_neg hname] at hrun
      rw [cpuRequests, hcores]
      exact ih hrest hrun

/-- A document that is accepted. -/
theorem validateYang_ok {document : Json} (hv : validateYang lib document = .ok ()) :
    ∃ value items, document = .object [(requirementsKey, value)] ∧
      value.findMember "items" = .ok (some (.array items)) ∧
      validateItems (lib.validate document) 0 items = .ok () := by
  unfold validateYang at hv
  split at hv
  · rename_i key value
    split_ifs at hv with hkey
    rcases hitems : value.findMember "items" with _ | _ | items
    · rw [hitems] at hv
      cases hv
    · rw [hitems] at hv
      cases hv
    rw [hitems, ok_bind] at hv
    cases items with
    | array items => exact ⟨value, items, by rw [hkey], hitems, hv⟩
    | null | bool | uint | double | string | object => cases hv
  · cases hv
  · cases hv

/-- The items of a document, as the two functions that read them find them. -/
theorem transformToRequirements_items {value : Json} {items : List Json}
    (hitems : value.findMember "items" = .ok (some (.array items))) :
    (Json.object [(requirementsKey, value)]).requestItems = items ∧
      transformToRequirements (.object [(requirementsKey, value)]) =
        addRequirements items ⟨[], []⟩ := by
  have hmember : (Json.object [(requirementsKey, value)]).member requirementsKey = .ok value := by
    simp [Json.member, Json.findMember]
  constructor
  · simp only [Json.requestItems, hitems]
  · rw [transformToRequirements, hmember, ok_bind, Json.member_of_findMember hitems, ok_bind]
    rfl

/-- **What a node makes of a payload that it accepts.** -/
theorem unmarshal_collect (h : unmarshal lib data = .ok c) :
    c = collect (payloadRequests lib data) ⟨[], []⟩ := by
  unfold unmarshal at h
  unfold payloadRequests
  split_ifs at h ⊢ with hempty
  · cases h
    rfl
  dsimp only at h
  rcases hv : validateYang lib (deserializeJson lib data) with _ | _
  · rw [hv] at h
    cases h
  rw [hv, ok_bind] at h
  obtain ⟨value, items, hd, hitems, hvalid⟩ := validateYang_ok hv
  obtain ⟨hrequest, htransform⟩ := transformToRequirements_items hitems
  rw [hd, htransform] at h
  rw [hd, hrequest]
  exact addRequirements_collect hvalid h

end Unmarshal

/-! ## The requirements in order -/

section Insert

variable {κ α : Type} {rank : κ → Nat} {k : κ} {a : α} {l : List (κ × α)}

theorem mem_mapInsert {e : κ × α} (h : e ∈ mapInsert rank k a l) : e = (k, a) ∨ e ∈ l := by
  induction l with
  | nil => exact Or.inl (List.mem_singleton.mp h)
  | cons f rest ih =>
    rw [mapInsert] at h
    split_ifs at h
    · exact List.mem_cons.mp h
    · exact Or.inr h
    · rcases List.mem_cons.mp h with rfl | h
      · exact Or.inr List.mem_cons_self
      · exact (ih h).imp_right (List.mem_cons_of_mem f)

theorem sorted_mapInsert (hl : l.Pairwise fun e f => rank e.1 < rank f.1) :
    (mapInsert rank k a l).Pairwise fun e f => rank e.1 < rank f.1 := by
  induction l with
  | nil => exact List.pairwise_singleton _ _
  | cons f rest ih =>
    obtain ⟨hhead, htail⟩ := List.pairwise_cons.mp hl
    rw [mapInsert]
    split_ifs with hlt heq
    · refine List.pairwise_cons.mpr ⟨?_, hl⟩
      intro e he
      rcases List.mem_cons.mp he with rfl | he
      · exact hlt
      · exact lt_trans hlt (hhead e he)
    · exact hl
    · refine List.pairwise_cons.mpr ⟨?_, ih htail⟩
      intro e he
      rcases mem_mapInsert he with rfl | he
      · show rank f.1 < rank k
        omega
      · exact hhead e he

/-- An entry that is there stays. -/
theorem find?_mapInsert (hl : l.Pairwise fun e f => rank e.1 < rank f.1) (r : Nat) :
    (mapInsert rank k a l).find? (rank ·.1 = r) =
      (l.find? (rank ·.1 = r)).or (if rank k = r then some (k, a) else none) := by
  induction l with
  | nil =>
    by_cases hr : rank k = r
    · simp [mapInsert, hr]
    · simp [mapInsert, hr]
  | cons f rest ih =>
    obtain ⟨hhead, htail⟩ := List.pairwise_cons.mp hl
    have ih := ih htail
    by_cases hr : rank k = r
    · rw [if_pos hr] at ih ⊢
      by_cases hlt : rank k < rank f.1
      · -- Everything in the list comes after the new key.
        have hnone : (f :: rest).find? (rank ·.1 = r) = none := by
          rw [List.find?_eq_none]
          intro e he
          rw [decide_eq_true_eq]
          rcases List.mem_cons.mp he with rfl | he
          · omega
          · have := hhead e he
            omega
        rw [mapInsert, if_pos hlt, hnone, List.find?_cons_of_pos (by simpa using hr)]
        rfl
      · by_cases heq : rank k = rank f.1
        · have hf : rank f.1 = r := heq.symm.trans hr
          rw [mapInsert, if_neg hlt, if_pos heq, List.find?_cons_of_pos (by simpa using hf)]
          rfl
        · have hf : rank f.1 ≠ r := by omega
          rw [mapInsert, if_neg hlt, if_neg heq, List.find?_cons_of_neg (by simpa using hf),
            List.find?_cons_of_neg (by simpa using hf), ih]
    · rw [if_neg hr, Option.or_none] at ih ⊢
      rw [mapInsert]
      split_ifs
      · rw [List.find?_cons_of_neg (by simpa using hr)]
      · rfl
      · rw [List.find?_cons, List.find?_cons, ih]

/-- A key that comes after all others goes to the end. -/
theorem mapInsert_of_lt (h : ∀ e ∈ l, rank e.1 < rank k) : mapInsert rank k a l = l ++
    [(k, a)] := by
  induction l with
  | nil => rfl
  | cons f rest ih =>
    have hf := h f List.mem_cons_self
    rw [mapInsert, if_neg (by omega), if_neg (by omega),
      ih fun e he => h e (List.mem_cons_of_mem f he), List.cons_append]

end Insert

/-- Requirements for `COMP_CPU` only, by place. -/
def RequestingCapabilities.ofPlaces (first : Option UInt32) (places : List (UInt8 × UInt32)) :
    RequestingCapabilities where
  items := (first.map fun cores => (.compCpu, some cores)).toList
  orderedItems := places.map fun e => (e.1, .compCpu, some e.2)

theorem mapInsert_map {κ α β : Type} {rank : κ → Nat} {k : κ} {a : α} (f : α → β)
    (l : List (κ × α)) : mapInsert rank k (f a) (l.map fun e => (e.1, f e.2)) =
      (mapInsert rank k a l).map fun e => (e.1, f e.2) := by
  induction l with
  | nil => rfl
  | cons e rest ih =>
    rw [List.map_cons, mapInsert, mapInsert]
    split_ifs
    · rfl
    · rfl
    · rw [ih, List.map_cons]

theorem RequestingCapabilities.addItem_ofPlaces {first : Option UInt32}
    {places : List (UInt8 × UInt32)} {cores : UInt32} {place : UInt8} :
    (ofPlaces first places).addItem (.compCpu, some cores) place =
      ofPlaces (first.or (some cores)) (mapInsert UInt8.toNat place cores places) := by
  have hitems : mapInsert (fun type => type.value.toNat) CapabilityItemType.compCpu (some cores)
      (ofPlaces first places).items =
        (ofPlaces (first.or (some cores)) (mapInsert UInt8.toNat place cores places)).items := by
    cases first with
    | none => rfl
    | some c => simp [ofPlaces, mapInsert]
  have hordered : mapInsert UInt8.toNat place (CapabilityItemType.compCpu, (some cores : Any))
      (ofPlaces first places).orderedItems =
        (ofPlaces (first.or (some cores))
        (mapInsert UInt8.toNat place cores places)).orderedItems :=
    mapInsert_map (fun c => (CapabilityItemType.compCpu, (some c : Any))) places
  unfold addItem
  rw [hitems, hordered]

/-- The places that `cpu_cores` items take. -/
def placesOf (requests : List (Nat × UInt32)) (places : List (UInt8 × UInt32)) :
    List (UInt8 × UInt32) :=
  requests.foldl (fun l e => mapInsert UInt8.toNat (UInt8.ofNat e.1) e.2 l) places

theorem collect_ofPlaces {requests : List (Nat × UInt32)} {first : Option UInt32}
    {places : List (UInt8 × UInt32)} :
    collect requests (.ofPlaces first places) =
      .ofPlaces (first.or (requests.head?.map (·.2))) (placesOf requests places) := by
  induction requests generalizing first places with
  | nil => simp [collect, placesOf]
  | cons e rest ih =>
    show collect rest ((RequestingCapabilities.ofPlaces first places).addItem (.compCpu, some e.2)
      (UInt8.ofNat e.1)) = _
    rw [RequestingCapabilities.addItem_ofPlaces, ih]
    cases first <;> rfl

theorem sorted_placesOf (requests : List (Nat × UInt32)) {places : List (UInt8 × UInt32)}
    (h : places.Pairwise fun e f => e.1.toNat < f.1.toNat) :
    (placesOf requests places).Pairwise fun e f => e.1.toNat < f.1.toNat := by
  induction requests generalizing places with
  | nil => exact h
  | cons e rest ih => exact ih (sorted_mapInsert h)

/-- Of the items with one place, the first is kept. -/
theorem find?_placesOf (requests : List (Nat × UInt32)) {places : List (UInt8 × UInt32)}
    (h : places.Pairwise fun e f => e.1.toNat < f.1.toNat) (m : Nat) :
    (placesOf requests places).find? (·.1.toNat = m) =
      (places.find? (·.1.toNat = m)).or
        ((requests.find? (·.1 % 256 = m)).map fun e => (UInt8.ofNat e.1, e.2)) := by
  induction requests generalizing places with
  | nil => simp [placesOf]
  | cons e rest ih =>
    show (placesOf rest (mapInsert UInt8.toNat (UInt8.ofNat e.1) e.2 places)).find? _ = _
    rw [ih (sorted_mapInsert h), find?_mapInsert h, Option.or_assoc]
    congr 1
    have hplace : (UInt8.ofNat e.1).toNat = e.1 % 256 := UInt8.toNat_ofNat'
    rw [hplace]
    by_cases he : e.1 % 256 = m
    · simp [he]
    · simp [he]

/-! ## A hop -/

/-- The item of a document for a requirement. -/
def cpuJson (e : UInt8 × UInt32) : Json :=
  .object [("order", .uint e.1.toUInt64),
    ("requirement", .object [("cpu_cores", .uint e.2.toUInt64)])]

def cpuDocument (places : List (UInt8 × UInt32)) : Json :=
  .object [(requirementsKey, .object [("items", .array (places.map cpuJson))])]

section Hop

variable {first : Option UInt32} {places : List (UInt8 × UInt32)}

theorem transformToJson_ofPlaces :
    transformToJson (.ofPlaces first places) = some (cpuDocument places) := by
  have hmap :
    (places.map fun e => (e.1, CapabilityItemType.compCpu, (some e.2 : Any))).mapM itemToJson =
      some (places.map cpuJson) := by
    induction places with
    | nil => rfl
    | cons e rest ih =>
      rw [List.map_cons, List.mapM_cons, ih]
      rfl
  unfold transformToJson RequestingCapabilities.ofPlaces
  rw [hmap]
  rfl

/-- CBOR keeps the documents of a node. -/
theorem loadCborToDecode_cpuDocument :
    loadCborToDecode (cborStreamDecode (cpuDocument places)) = cpuDocument places := by
  have hitem : ∀ e, loadCborToDecode (cborStreamDecode (cpuJson e)) = cpuJson e := by
    intro e
    simp only [cpuJson, cborStreamDecode, streamMembers, loadCborToDecode, loadPairs]
    rw [show cString "order" = "order" by decide +kernel,
      show cString "requirement" = "requirement" by decide +kernel,
      show cString "cpu_cores" = "cpu_cores" by decide +kernel]
  have hitems : loadItems (streamItems (places.map cpuJson)) = places.map cpuJson := by
    induction places with
    | nil => rfl
    | cons e rest ih => rw [List.map_cons, streamItems, loadItems, hitem, ih]
  simp only [cpuDocument, cborStreamDecode, streamMembers, loadCborToDecode, loadPairs, hitems]
  rw [show cString requirementsKey = requirementsKey by decide +kernel,
    show cString "items" = "items" by decide +kernel]

theorem getUint_toUInt64 (n : UInt32) : (Json.uint n.toUInt64).getUint = .ok n.toBitVec := by
  have hlt := n.toNat_lt
  simp only [Json.getUint, UInt32.toNat_toUInt64, if_pos hlt]
  congr 1
  exact BitVec.eq_of_toNat_eq (by simp)

theorem getUint_place (n : UInt8) :
    (Json.uint n.toUInt64).getUint = .ok (BitVec.ofNat 32 n.toNat) := by
  have hlt := n.toNat_lt
  simp only [Json.getUint, UInt8.toNat_toUInt64]
  rw [if_pos (by omega)]

/-- **The next node checks that the places have no gap.** -/
theorem validateItems_cpuJson {i : Nat} : validateItems true i (places.map cpuJson) =
    if places.map (·.1.toNat) = List.range' i places.length then .ok ()
    else .error .invalidArgument := by
  induction places generalizing i with
  | nil => rfl
  | cons e rest ih =>
    have horder : (cpuJson e).findMember "order" = .ok (some (.uint e.1.toUInt64)) := rfl
    have hreq : (cpuJson e).findMember "requirement" =
        .ok (some (.object [("cpu_cores", .uint e.2.toUInt64)])) := rfl
    have hint : (BitVec.ofNat 32 e.1.toNat).toInt = e.1.toNat := by
      have hlt := e.1.toNat_lt
      rw [BitVec.toInt_eq_toNat_of_lt]
      · rw [BitVec.toNat_ofNat, Nat.mod_eq_of_lt (by omega)]
      · rw [BitVec.toNat_ofNat, Nat.mod_eq_of_lt (by omega)]
        omega
    have hkind : ¬typify "cpu_cores" = .unknown := by decide
    rw [List.map_cons, validateItems, horder, hreq]
    simp only [ok_bind, getUint_place, hint, Json.memberBegin, if_neg hkind, if_true]
    rw [List.map_cons, List.length_cons, List.range'_succ, ih]
    by_cases hi : e.1.toNat = i
    · simp [hi]
    · have hi' : ¬((e.1.toNat : Int) = i) := by exact_mod_cast hi
      simp [hi, hi']

theorem addRequirements_cpuJson {c : RequestingCapabilities} :
    addRequirements (places.map cpuJson) c =
      .ok (places.foldl (fun c e => c.addItem (.compCpu, some e.2) e.1) c) := by
  induction places generalizing c with
  | nil => rfl
  | cons e rest ih =>
    have hreq : (cpuJson e).member "requirement" =
        .ok (.object [("cpu_cores", .uint e.2.toUInt64)]) := rfl
    have hcores : (Json.object [("cpu_cores", .uint e.2.toUInt64)]).member "cpu_cores" =
        .ok (.uint e.2.toUInt64) := rfl
    have horder : (cpuJson e).member "order" = .ok (.uint e.1.toUInt64) := rfl
    have hplace : (⟨(BitVec.ofNat 32 e.1.toNat).setWidth 8⟩ : UInt8) = e.1 := by
      have hlt := e.1.toNat_lt
      refine UInt8.toNat_inj.mp ?_
      show ((BitVec.ofNat 32 e.1.toNat).setWidth 8).toNat = _
      rw [BitVec.toNat_setWidth, BitVec.toNat_ofNat, Nat.mod_eq_of_lt (by omega),
        Nat.mod_eq_of_lt (by omega)]
    have hhash : fnvHash "cpu_cores" = CapabilityItemType.compCpu.value := rfl
    rw [List.map_cons, addRequirements, hreq, ok_bind]
    simp only [Json.memberBegin, ok_bind]
    rw [if_pos hhash, hcores, ok_bind, getUint_toUInt64, ok_bind, horder, ok_bind, getUint_place,
      ok_bind, hplace, ih]
    rfl

/-- Places in order are taken as they come. -/
theorem foldl_addItem_sorted (h : places.Pairwise fun e f => e.1.toNat < f.1.toNat) :
    places.foldl (fun c e => c.addItem (.compCpu, some e.2) e.1)
        (RequestingCapabilities.ofPlaces none []) =
      .ofPlaces (places.head?.map (·.2)) places := by
  induction places using List.reverseRecOn with
  | nil => rfl
  | append_singleton rest e ih =>
    obtain ⟨hrest, -, hlast⟩ := List.pairwise_append.mp h
    rw [List.foldl_append, ih hrest]
    show (RequestingCapabilities.ofPlaces _ rest).addItem (.compCpu, some e.2) e.1 = _
    rw [RequestingCapabilities.addItem_ofPlaces,
      mapInsert_of_lt fun f hf => hlast f hf e List.mem_cons_self]
    cases rest <;> rfl

theorem length_places_le (h : places.Pairwise fun e f => e.1.toNat < f.1.toNat) :
    places.length ≤ 256 := by
  have hnodup : (places.map (·.1.toNat)).Nodup := by
    rw [List.Nodup, List.pairwise_map]
    exact h.imp ne_of_lt
  have hsub : places.map (·.1.toNat) ⊆ List.range 256 := by
    intro m hm
    obtain ⟨e, -, rfl⟩ := List.mem_map.mp hm
    exact List.mem_range.mpr e.1.toNat_lt
  have hlen := (hnodup.subperm hsub).length_le
  rwa [List.length_map, List.length_range] at hlen

/-- What a node relies on: libcbor reads back what it wrote, and libyang accepts. -/
structure Libraries.Lawful (lib : Libraries) : Prop where
  load : ∀ places : List (UInt8 × UInt32), places.length ≤ 256 →
    lib.cborLoad (serializeJson lib (cpuDocument places)) =
      some (cborStreamDecode (cpuDocument places))
  nonempty : ∀ item, lib.cborSerialize item ≠ []
  validate : ∀ json, lib.validate json = true

/-- **One hop.** -/
theorem unmarshal_forwarded {lib : Libraries} (hlib : lib.Lawful) (first : Option UInt32)
    (h : places.Pairwise fun e f => e.1.toNat < f.1.toNat) :
    ∃ payload, forwardedPayload lib (.ofPlaces first places) = some payload ∧
      unmarshal lib payload =
        if places.map (·.1.toNat) = List.range' 0 places.length then
          .ok (.ofPlaces (places.head?.map (·.2)) places)
        else .error .invalidArgument := by
  refine ⟨serializeJson lib (cpuDocument places), ?_, ?_⟩
  · rw [forwardedPayload, transformToJson_ofPlaces]
    rfl
  · have hne : (serializeJson lib (cpuDocument places)).isEmpty = false := by
      rw [List.isEmpty_eq_false_iff]
      exact hlib.nonempty _
    have hdocument : deserializeJson lib (serializeJson lib (cpuDocument places)) =
        cpuDocument places := by
      rw [deserializeJson, hlib.load places (length_places_le h)]
      exact loadCborToDecode_cpuDocument
    have hvalid : validateYang lib (cpuDocument places) =
        validateItems (lib.validate (cpuDocument places)) 0 (places.map cpuJson) := rfl
    have htransform : transformToRequirements (cpuDocument places) =
        .ok (.ofPlaces (places.head?.map (·.2)) places) := by
      rw [← foldl_addItem_sorted h, ← addRequirements_cpuJson]
      rfl
    unfold unmarshal
    rw [hne, if_neg (by simp), hdocument]
    dsimp only
    rw [hvalid, hlib.validate, validateItems_cpuJson, htransform]
    split_ifs <;> rfl

end Hop

/-! ## Any number of hops -/

/-- The requirements at the node that is `k` hops on. -/
def requirementsAfter (lib : Libraries) (data : Bytes) :
    Nat → Except UnmarshalError RequestingCapabilities
  | 0 => unmarshal lib data
  | k + 1 => do
    let c ← requirementsAfter lib data k
    match forwardedPayload lib c with
    | some payload => unmarshal lib payload
    | none => .error .other

/--
The positions of the `cpu_cores` items, in eight bits, are 0 to some number without a gap. The first
one asks for as many cores as the first one with position 0, which is the same one in a payload of
at most 256 items.
-/
structure Gapless (requests : List (Nat × UInt32)) : Prop where
  positions : ∃ l, ∀ m, (∃ e ∈ requests, e.1 % 256 = m) ↔ m < l
  first : (requests.find? (·.1 % 256 = 0)).map (·.2) = requests.head?.map (·.2)

theorem eq_range_of_mem_iff {l : Nat} {ms : List Nat} (hs : ms.Pairwise (· < ·))
    (hm : ∀ m, m ∈ ms ↔ m < l) : ms = List.range' 0 ms.length := by
  have hrange : ms = List.range l := by
    refine hs.eq_of_mem_iff List.pairwise_lt_range ?_
    intro m
    rw [hm, List.mem_range]
  conv_rhs => rw [hrange, List.length_range]
  rw [hrange, List.range_eq_range']

section Hops

variable {lib : Libraries} {data : Bytes} {c : RequestingCapabilities}
  {requests : List (Nat × UInt32)}

theorem mem_placesOf {m : Nat} : m ∈ (placesOf requests []).map (·.1.toNat) ↔
    ∃ e ∈ requests, e.1 % 256 = m := by
  have hfind := find?_placesOf requests List.Pairwise.nil m
  rw [List.find?_nil, Option.none_or] at hfind
  have hsome := congrArg Option.isSome hfind
  rw [Option.isSome_map, Bool.eq_iff_iff, List.find?_isSome, List.find?_isSome] at hsome
  simp only [decide_eq_true_eq] at hsome
  rw [List.mem_map]
  exact hsome

/-- A payload without gaps is one that the next node reads in the same way. -/
theorem gapless_iff : Gapless requests ↔
    (placesOf requests []).map (·.1.toNat) = List.range' 0 (placesOf requests []).length ∧
      (placesOf requests []).head?.map (·.2) = requests.head?.map (·.2) := by
  have hsorted := sorted_placesOf requests List.Pairwise.nil
  have hfind := find?_placesOf requests List.Pairwise.nil 0
  rw [List.find?_nil, Option.none_or] at hfind
  -- Without a gap the first place is 0.
  have hhead : (placesOf requests []).map (·.1.toNat) =
      List.range' 0 (placesOf requests []).length →
      (placesOf requests []).head?.map (·.2) = (requests.find? (·.1 % 256 = 0)).map (·.2) := by
    intro hrange
    have hvalue := congrArg (Option.map (·.2)) hfind
    rw [Option.map_map] at hvalue
    refine Eq.trans ?_ hvalue
    rcases hp : placesOf requests [] with _ | ⟨e, rest⟩
    · rfl
    · rw [hp, List.map_cons, List.length_cons, List.range'_succ, List.cons.injEq] at hrange
      rw [List.find?_cons_of_pos (by simpa using hrange.1)]
      rfl
  constructor
  · rintro ⟨⟨l, hl⟩, hfirst⟩
    have hrange := eq_range_of_mem_iff (List.pairwise_map.mpr hsorted)
      fun m => mem_placesOf.trans (hl m)
    rw [List.length_map] at hrange
    exact ⟨hrange, (hhead hrange).trans hfirst⟩
  · rintro ⟨hrange, hfirst⟩
    refine ⟨⟨(placesOf requests []).length, ?_⟩, (hhead hrange).symm.trans hfirst⟩
    intro m
    rw [← mem_placesOf, hrange, List.mem_range'_1]
    omega

theorem RequestingCapabilities.ofPlaces_first {first first' : Option UInt32}
    {places : List (UInt8 × UInt32)} :
    RequestingCapabilities.ofPlaces first places = .ofPlaces first' places ↔ first = first' := by
  constructor
  · intro h
    have hitems := congrArg RequestingCapabilities.items h
    cases first <;> cases first' <;> simp_all [ofPlaces]
  · rintro rfl
    rfl

/--
**A payload is relayed unchanged, over any number of hops, if and only if its `cpu_cores`
items leave no gap.**
-/
theorem relayed_unchanged_iff (hlib : lib.Lawful) (hc : unmarshal lib data = .ok c) :
    (∀ k, requirementsAfter lib data k = .ok c) ↔ Gapless (payloadRequests lib data) := by
  have hplaces : c = .ofPlaces ((payloadRequests lib data).head?.map (·.2))
      (placesOf (payloadRequests lib data) []) := by
    refine (unmarshal_collect hc).trans ?_
    rw [show (⟨[], []⟩ : RequestingCapabilities) = .ofPlaces none [] from rfl, collect_ofPlaces,
      Option.none_or]
  have hsorted := sorted_placesOf (payloadRequests lib data) List.Pairwise.nil
  obtain ⟨payload, hpayload, hnext⟩ := unmarshal_forwarded hlib
    ((payloadRequests lib data).head?.map (·.2)) hsorted
  rw [← hplaces] at hpayload
  -- The next node gets the same requirements exactly when there is no gap.
  have hhop : unmarshal lib payload = .ok c ↔ Gapless (payloadRequests lib data) := by
    rw [gapless_iff, hnext]
    split_ifs with hrange
    · rw [Except.ok.injEq, hplaces, RequestingCapabilities.ofPlaces_first]
      exact ⟨fun h => ⟨hrange, h⟩, fun h => h.2⟩
    · exact ⟨fun h => (nomatch h), fun h => absurd h.1 hrange⟩
  have hstep : ∀ k, requirementsAfter lib data k = .ok c →
      requirementsAfter lib data (k + 1) = unmarshal lib payload := by
    intro k hk
    rw [requirementsAfter, hk, ok_bind, hpayload]
  constructor
  · intro hall
    rw [← hhop, ← hstep 0 (hall 0)]
    exact hall 1
  · intro hgapless k
    induction k with
    | zero => exact hc
    | succ k ih =>
      rw [hstep k ih]
      exact hhop.mpr hgapless

end Hops

/-! ## libcbor, for evaluation

The encoding of CBOR for the items that the callbacks build, and a decoder for documents with the
three kinds of requirements.
-/

/-- The head of an item: its type and a length, in as few bytes as possible. -/
def cborHead (major n : Nat) : Bytes :=
  if n < 24 then [UInt8.ofNat (32 * major + n)]
  else if n < 2 ^ 8 then UInt8.ofNat (32 * major + 24) :: toBytesBE 1 n
  else if n < 2 ^ 16 then UInt8.ofNat (32 * major + 25) :: toBytesBE 2 n
  else if n < 2 ^ 32 then UInt8.ofNat (32 * major + 26) :: toBytesBE 4 n
  else UInt8.ofNat (32 * major + 27) :: toBytesBE 8 n

def cborText (text : String) : Bytes :=
  cborHead 3 text.toUTF8.data.toList.length ++ text.toUTF8.data.toList

mutual

def cborBytes : CborItem → Bytes
  | .uint value => 0x1B :: toBytesBE 8 value.toNat
  | .negint value => 0x3B :: toBytesBE 8 value.toNat
  | .bytestring => [0x40]
  | .string _ text => cborText text
  | .array items => cborHead 4 items.length ++ cborItemsBytes items
  | .map pairs => cborHead 5 pairs.length ++ cborPairsBytes pairs
  | .tag => [0xC0]
  | .bool value => [if value then 0xF5 else 0xF4]
  | .null => [0xF6]
  | .control => [0xF7]
  | .float bits => 0xFB :: toBytesBE 8 bits.toNat

def cborItemsBytes : List CborItem → Bytes
  | [] => []
  | item :: rest => cborBytes item ++ cborItemsBytes rest

def cborPairsBytes : List (CborItem × CborItem) → Bytes
  | [] => []
  | (key, value) :: rest => cborBytes key ++ cborBytes value ++ cborPairsBytes rest

end

/-- The length of an array of less than 2^16 elements. -/
def readArrayHead : Bytes → Option (Nat × Bytes)
  | [] => none
  | b :: rest =>
    if 0x80 ≤ b.toNat ∧ b.toNat < 0x98 then some (b.toNat - 0x80, rest)
    else if b = 0x98 then some (ofBytesBE (rest.take 1), rest.drop 1)
    else if b = 0x99 then some (ofBytesBE (rest.take 2), rest.drop 2)
    else none

/-- Up to the value of the order, and from there to the name of the requirement. -/
def orderHead : Bytes := cborHead 5 2 ++ cborText "order" ++ [0x1B]

def requirementHead : Bytes := cborText "requirement" ++ cborHead 5 1

def readName (bytes : Bytes) : List String → Option (String × Bytes)
  | [] => none
  | name :: names =>
    match bytes.dropPrefix? (cborText name ++ [0x1B]) with
    | some rest => some (name, rest)
    | none => readName bytes names

def readItems : Nat → Bytes → Option (List CborItem)
  | 0, bytes => if bytes.isEmpty then some [] else none
  | n + 1, bytes => do
    let afterHead ← bytes.dropPrefix? orderHead
    let afterOrder ← (afterHead.drop 8).dropPrefix? requirementHead
    let name ← readName afterOrder ["cpu_cores", "memory", "interface"]
    let rest ← readItems n (name.2.drop 8)
    return .map [(.string true "order", .uint (UInt64.ofNat (ofBytesBE (afterHead.take 8)))),
      (.string true "requirement", .map [(.string true name.1,
        .uint (UInt64.ofNat (ofBytesBE (name.2.take 8))))])] :: rest

def documentHead : Bytes :=
  cborHead 5 1 ++ cborText requirementsKey ++ cborHead 5 1 ++ cborText "items"

def readDocument (bytes : Bytes) : Option CborItem := do
  let afterHead ← bytes.dropPrefix? documentHead
  let length ← readArrayHead afterHead
  let items ← readItems length.1 length.2
  return .map [(.string true requirementsKey, .map [(.string true "items", .array items)])]

def Libraries.sample : Libraries where
  cborLoad := readDocument
  cborSerialize := cborBytes
  validate := fun _ => true

theorem dropPrefix?_append (p s : Bytes) : (p ++ s).dropPrefix? p = some s := by
  rw [List.dropPrefix?_eq_some_iff]
  exact ⟨p, rfl, by simp⟩

theorem ofBytesBE_take (w n : Nat) (h : n < 256 ^ w) (rest : Bytes) :
    ofBytesBE ((toBytesBE w n ++ rest).take w) = n := by
  rw [List.take_append_of_le_length (by simp), List.take_of_length_le (by simp),
    ofBytesBE_toBytesBE h]

theorem drop_toBytesBE (w n : Nat) (rest : Bytes) : (toBytesBE w n ++ rest).drop w = rest := by
  rw [List.drop_append_of_le_length (by simp), List.drop_of_length_le (by simp), List.nil_append]

theorem readArrayHead_cborHead {n : Nat} (hn : n < 2 ^ 16) (rest : Bytes) :
    readArrayHead (cborHead 4 n ++ rest) = some (n, rest) := by
  unfold cborHead
  split_ifs with h1 h2
  · have hb : (UInt8.ofNat (32 * 4 + n)).toNat = 128 + n := by
      rw [UInt8.toNat_ofNat', Nat.mod_eq_of_lt (by omega)]
    rw [List.singleton_append, readArrayHead, hb, if_pos (by omega), Nat.add_sub_cancel_left]
  · rw [List.cons_append, readArrayHead, if_neg (by decide +kernel), if_pos (by decide +kernel),
      ofBytesBE_take 1 n (by omega), drop_toBytesBE]
  · rw [List.cons_append, readArrayHead, if_neg (by decide +kernel), if_neg (by decide +kernel),
      if_pos (by decide +kernel), ofBytesBE_take 2 n (by omega), drop_toBytesBE]

/-- The bytes of one item of a node's document. -/
theorem cborBytes_cpuJson (e : UInt8 × UInt32) (rest : Bytes) :
    cborBytes (cborStreamDecode (cpuJson e)) ++ rest = orderHead ++ (toBytesBE 8 e.1.toNat ++
      (requirementHead ++
      ((cborText "cpu_cores" ++ [0x1B]) ++ (toBytesBE 8 e.2.toNat ++ rest)))) := by
  simp only [cpuJson, cborStreamDecode, streamMembers, cborBytes, cborPairsBytes, orderHead,
    requirementHead, List.append_assoc, List.length_cons, List.length_nil, List.cons_append,
    List.nil_append, List.append_nil, UInt8.toNat_toUInt64, UInt32.toNat_toUInt64]

theorem readItems_cpuJson (places : List (UInt8 × UInt32)) :
    readItems places.length (cborItemsBytes (streamItems (places.map cpuJson))) =
      some (streamItems (places.map cpuJson)) := by
  induction places with
  | nil => rfl
  | cons e rest ih =>
    have h1 := e.1.toNat_lt
    have h2 := e.2.toNat_lt
    rw [List.map_cons, streamItems, cborItemsBytes, cborBytes_cpuJson, List.length_cons, readItems,
      dropPrefix?_append]
    simp only [Option.bind_eq_bind, Option.bind_some, drop_toBytesBE, dropPrefix?_append, readName]
    rw [ih, ofBytesBE_take 8 _ (by omega), ofBytesBE_take 8 _ (by omega),
      show UInt64.ofNat e.1.toNat = e.1.toUInt64 from UInt64.toNat_inj.mp (by simp),
      show UInt64.ofNat e.2.toNat = e.2.toUInt64 from UInt64.toNat_inj.mp (by simp)]
    rfl

theorem Libraries.sample_lawful : Libraries.sample.Lawful where
  load places h := by
    have hbytes : serializeJson .sample (cpuDocument places) = documentHead ++
        (cborHead 4 places.length ++ cborItemsBytes (streamItems (places.map cpuJson))) := by
      have hlen : (streamItems (places.map cpuJson)).length = places.length := by
        induction places with
        | nil => rfl
        | cons e rest ih =>
          rw [List.map_cons, streamItems, List.length_cons, List.length_cons,
            ih (Nat.le_of_succ_le h)]
      simp only [serializeJson, sample, cpuDocument, cborStreamDecode, streamMembers, cborBytes,
        cborPairsBytes, documentHead, List.append_assoc, List.length_cons, List.length_nil,
        List.append_nil, hlen]
    show readDocument _ = _
    rw [hbytes, readDocument, dropPrefix?_append]
    simp only [Option.bind_eq_bind, Option.bind_some]
    rw [readArrayHead_cborHead (by omega)]
    simp only [Option.bind_some, readItems_cpuJson]
    rfl
  nonempty item := by
    have hhead : ∀ major n, cborHead major n ≠ [] := by
      intro major n
      unfold cborHead
      split_ifs <;> nofun
    cases item with
    | string definite text =>
      intro h
      exact hhead _ _ (List.append_eq_nil_iff.mp h).1
    | array items =>
      intro h
      exact hhead _ _ (List.append_eq_nil_iff.mp h).1
    | map pairs =>
      intro h
      exact hhead _ _ (List.append_eq_nil_iff.mp h).1
    | uint | negint | bytestring | tag | bool | null | control | float => nofun
  validate _ := rfl

/-- A payload that asks for two cores. -/
def sampleCores : Bytes := serializeJson .sample (cpuDocument [(0, 2)])

/-- A payload that asks for memory first, and then for two cores. -/
def sampleMemoryAndCores : Bytes :=
  serializeJson .sample (.object [(requirementsKey, .object [("items", .array
    [.object [("order", .uint 0), ("requirement", .object [("memory", .uint 1)])],
      cpuJson (1, 2)])])])

/-- Two cores are still two cores, however far away. -/
theorem relayed_unchanged_cores :
    unmarshal .sample sampleCores = .ok (.ofPlaces (some 2) [(0, 2)]) ∧
      ((∀ k, requirementsAfter .sample sampleCores k = .ok (.ofPlaces (some 2) [(0, 2)])) ↔
        Gapless (payloadRequests .sample sampleCores)) := by
  have hok : unmarshal .sample sampleCores = .ok (.ofPlaces (some 2) [(0, 2)]) := by
    decide +kernel
  exact ⟨hok, relayed_unchanged_iff Libraries.sample_lawful hok⟩

/-- With an item of another kind before it, the next node refuses the request. -/
theorem relayed_unchanged_memory : ¬∀ (lib : Libraries) (data : Bytes) (c : RequestingCapabilities),
    lib.Lawful → unmarshal lib data = .ok c → ∀ k, requirementsAfter lib data k = .ok c := by
  intro hall
  have hok : unmarshal .sample sampleMemoryAndCores = .ok (.ofPlaces (some 2) [(1, 2)]) := by
    decide +kernel
  have hnext : requirementsAfter .sample sampleMemoryAndCores 1 = .error .invalidArgument := by
    decide +kernel
  have hkept := hall .sample sampleMemoryAndCores _ Libraries.sample_lawful hok 1
  rw [hnext] at hkept
  cases hkept

end Rankd

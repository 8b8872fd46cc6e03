import CloudId.Library.FirstOffer
import CloudId.Library.Reconciler

/-! The DHCP routes to the metadata service. A pass asks mkube for the networks and each of their
MicroDNS servers for its pools, and adds the route where it finds none. The requests for a pool
may fail without the pass knowing, and a pool that has a route to the service is left with it. -/
namespace CloudId
open FirstOffer Reconciler

def metadataIp : String := "169.254.169.254/32"

def managedBy : String := "cloudid"

/-! ## The networks of mkube -/

structure NetworkMeta where
  name : String
  deriving DecidableEq

structure NetworkDns where
  endpoint : String
  deriving DecidableEq

structure NetworkDhcp where
  enabled : Bool := false
  deriving DecidableEq

structure NetworkSpec where
  netType : String
  gateway : String
  dns : Option NetworkDns := none
  dhcp : Option NetworkDhcp := none
  deriving DecidableEq

structure Network where
  metadata : NetworkMeta
  spec : NetworkSpec
  deriving DecidableEq

/-- A data network with DHCP enabled, which has its DNS server at an endpoint. -/
def Network.HandledAt (net : Network) (endpoint : String) : Prop :=
  net.spec.netType = "data" ∧ net.spec.dhcp = some { enabled := true } ∧
    net.spec.dns = some { endpoint }

/-- A data network with DHCP enabled and a DNS endpoint. -/
def Network.Handled (net : Network) : Prop :=
  net.spec.netType = "data" ∧ net.spec.dhcp = some { enabled := true } ∧ net.spec.dns.isSome = true

instance : DecidablePred Network.Handled := fun net =>
  inferInstanceAs (Decidable (net.spec.netType = "data" ∧
    net.spec.dhcp = some { enabled := true } ∧ net.spec.dns.isSome = true))

/-! ## MicroDNS -/

/-- The body of a request for a route, and what the server keeps of it. -/
structure RouteRequest where
  destination : String
  gateway : String
  managedBy : String
  deriving DecidableEq

/-- What is read of a route of the answer. -/
structure RouteEntry where
  destination : String
  deriving DecidableEq

def RouteRequest.entry (route : RouteRequest) : RouteEntry := { destination := route.destination }

/-- A DHCP pool of the server at an endpoint. -/
structure PoolKey where
  endpoint : String
  id : String
  deriving DecidableEq

/-- The pools that the server at each endpoint lists, and the routes of each pool. -/
structure MicroDns where
  pools : String → List String
  routes : PoolKey → List RouteRequest

/-- The server takes a route unless it has one with the same destination and gateway. -/
def MicroDns.post (servers : MicroDns) (key : PoolKey) (req : RouteRequest) : MicroDns :=
  if (servers.routes key).any fun route =>
      route.destination == req.destination && route.gateway == req.gateway then servers
  else { servers with routes := Function.update servers.routes key (servers.routes key ++ [req]) }

/-- How the requests for a pool end: whether its routes are answered, and how a new one ends. -/
structure PoolEnds where
  routes : Bool
  post : ChangeEnd

/-- How the requests for a network end: whether its pools are answered, and the requests for
each of them by its position. -/
structure NetworkEnds where
  pools : Bool
  pool : Nat → PoolEnds

/-! ## The pass -/

/-- `list_pools`. -/
def listPools (servers : MicroDns) (dnsUrl : String) (answered : Bool) : Option (List String) :=
  if answered then some (servers.pools dnsUrl) else none

/-- `check_route`: whether the pool has a route to the metadata address. -/
def checkRoute (servers : MicroDns) (dnsUrl poolId : String) (answered : Bool) : Option Bool :=
  if answered then
    some (((servers.routes ⟨dnsUrl, poolId⟩).map RouteRequest.entry).any
      fun route => route.destination == metadataIp)
  else none

/-- `add_route`: the servers after the request, and whether it is known to have succeeded. -/
def addRoute (servers : MicroDns) (dnsUrl poolId gateway : String) (ended : ChangeEnd) :
    MicroDns × Bool :=
  ended.apply (fun servers => servers.post ⟨dnsUrl, poolId⟩
    { destination := metadataIp, gateway, managedBy }) servers

/-- The body of the loop over the pools. -/
def ensurePool (servers : MicroDns) (dnsEndpoint gateway poolId : String) (ends : PoolEnds) :
    MicroDns :=
  match checkRoute servers dnsEndpoint poolId ends.routes with
  | some true => servers
  -- Whether the route was added only decides what is logged.
  | some false => (addRoute servers dnsEndpoint poolId gateway ends.post).1
  | none => servers

def ensurePools (dnsEndpoint gateway : String) (ends : Nat → PoolEnds) :
    Nat → List String → MicroDns → MicroDns
  | _, [], servers => servers
  | position, poolId :: rest, servers =>
    ensurePools dnsEndpoint gateway ends (position + 1) rest
      (ensurePool servers dnsEndpoint gateway poolId (ends position))

/-- `ensure_route`. -/
def ensureRoute (servers : MicroDns) (dnsEndpoint gateway : String) (ends : NetworkEnds) :
    MicroDns :=
  match listPools servers dnsEndpoint ends.pools with
  | none => servers
  | some pools =>
    if pools = [] then servers else ensurePools dnsEndpoint gateway ends.pool 0 pools servers

/-- The loop over the networks. -/
def configureNetworks (ends : Nat → NetworkEnds) :
    Nat → List Network → Nat → MicroDns → Nat × MicroDns
  | _, [], count, servers => (count, servers)
  | position, net :: rest, count, servers =>
    let dhcpEnabled := (net.spec.dhcp.map NetworkDhcp.enabled).getD false
    if net.spec.netType ≠ "data" ∨ dhcpEnabled = false then
      configureNetworks ends (position + 1) rest count servers
    else
      match net.spec.dns with
      | none => configureNetworks ends (position + 1) rest count servers
      | some dns =>
        configureNetworks ends (position + 1) rest (count + 1)
          (ensureRoute servers dns.endpoint net.spec.gateway (ends position))

/-- `discover_and_configure`: the networks are absent when the request for them fails. -/
def discoverAndConfigure (networks : Option (List Network)) (ends : Nat → NetworkEnds)
    (servers : MicroDns) : Option Nat × MicroDns :=
  match networks with
  | none => (none, servers)
  | some items =>
    let (count, after) := configureNetworks ends 0 items 0 servers
    (some count, after)

/-! ## Routes as offers -/

/-- The pool has a route to the metadata address, whatever its gateway. -/
def hasDestination (routes : List RouteRequest) : Bool :=
  routes.any fun route => route.destination == metadataIp

/-- The pool has a route to the metadata address via a gateway. -/
def HasRouteVia (gateway : String) (routes : List RouteRequest) : Prop :=
  ∃ route ∈ routes, route.destination = metadataIp ∧ route.gateway = gateway

/-- A pool takes the first route to the metadata address that reaches it. -/
def routeSlot : Slot (List RouteRequest) String where
  taken := hasDestination
  take := fun gateway routes => routes ++ [⟨metadataIp, gateway, managedBy⟩]
  taken_take := by
    intro gateway routes
    simp [hasDestination]

/-- The routes of the pool are answered, and a new one takes effect. -/
def PoolEnds.through (ends : PoolEnds) : Bool := ends.routes && decide (ends.post ≠ .refused)

def poolOffers (endpoint gateway : String) (ends : Nat → PoolEnds) :
    Nat → List String → List (Offer PoolKey String)
  | _, [] => []
  | position, poolId :: rest =>
    { key := ⟨endpoint, poolId⟩, value := gateway, arrives := (ends position).through } ::
      poolOffers endpoint gateway ends (position + 1) rest

def networkOffers (pools : String → List String) (ends : NetworkEnds) (net : Network) :
    List (Offer PoolKey String) :=
  match net.spec.dns with
  | none => []
  | some dns =>
    if net.Handled ∧ ends.pools = true then
      poolOffers dns.endpoint net.spec.gateway ends.pool 0 (pools dns.endpoint)
    else []

/-- The gateways that a pass offers to the pools, in its order. -/
def routeOffers (pools : String → List String) (ends : Nat → NetworkEnds) :
    Nat → List Network → List (Offer PoolKey String)
  | _, [] => []
  | position, net :: rest =>
    networkOffers pools (ends position) net ++ routeOffers pools ends (position + 1) rest

/-- The servers with the offers made to their pools. -/
def MicroDns.afterOffers (servers : MicroDns) (offers : List (Offer PoolKey String)) : MicroDns :=
  { servers with routes := offers.foldl (step routeSlot) servers.routes }

@[simp] theorem after_offers_pools (servers : MicroDns) (offers : List (Offer PoolKey String)) :
    (servers.afterOffers offers).pools = servers.pools := rfl

@[simp] theorem after_offers_routes (servers : MicroDns) (offers : List (Offer PoolKey String))
    (key : PoolKey) : (servers.afterOffers offers).routes key =
      offers.foldl (step routeSlot) servers.routes key := rfl

@[simp] theorem after_no_offers (servers : MicroDns) : servers.afterOffers [] = servers := rfl

theorem after_offers_append (servers : MicroDns) (early late : List (Offer PoolKey String)) :
    servers.afterOffers (early ++ late) = (servers.afterOffers early).afterOffers late := by
  simp only [MicroDns.afterOffers, List.foldl_append]

theorem check_route_answered (servers : MicroDns) (dnsUrl poolId : String) :
    checkRoute servers dnsUrl poolId true =
      some (hasDestination (servers.routes ⟨dnsUrl, poolId⟩)) := by
  rw [checkRoute, if_pos rfl, List.any_map]
  rfl

/-- A pool without a route to the address has no duplicate of the new one. -/
theorem post_of_open {servers : MicroDns} {key : PoolKey}
    (opened : hasDestination (servers.routes key) = false) (gateway : String) :
    servers.post key ⟨metadataIp, gateway, managedBy⟩ =
      servers.afterOffers [{ key, value := gateway, arrives := true }] := by
  have unmatched : ((servers.routes key).any fun route =>
      route.destination == metadataIp && route.gateway == gateway) = false := by
    rw [List.any_eq_false]
    intro route listed both
    have other := List.any_eq_false.mp opened route listed
    exact other (Bool.and_eq_true_iff.mp both).1
  have takes : (true && !routeSlot.taken (servers.routes key)) = true := by
    rw [Bool.true_and, Bool.not_eq_true']
    exact opened
  rw [MicroDns.post, unmatched, if_neg (by decide), MicroDns.afterOffers, List.foldl_cons,
    List.foldl_nil, step, if_pos takes]
  rfl

theorem add_route_of_open {servers : MicroDns} {dnsUrl poolId : String}
    (opened : hasDestination (servers.routes ⟨dnsUrl, poolId⟩) = false) (gateway : String)
    (ended : ChangeEnd) : (addRoute servers dnsUrl poolId gateway ended).1 = servers.afterOffers
      [{ key := ⟨dnsUrl, poolId⟩, value := gateway, arrives := decide (ended ≠ .refused) }] := by
  cases ended with
  | answered => exact post_of_open opened gateway
  | refused => rfl
  | lost => exact post_of_open opened gateway

/-- The requests for a pool are one offer to it. -/
theorem ensure_pool_eq (servers : MicroDns) (dnsEndpoint gateway poolId : String)
    (ends : PoolEnds) : ensurePool servers dnsEndpoint gateway poolId ends = servers.afterOffers
      [{ key := ⟨dnsEndpoint, poolId⟩, value := gateway, arrives := ends.through }] := by
  obtain ⟨answered, ended⟩ := ends
  rw [ensurePool]
  cases answered with
  | false => rfl
  | true =>
    rw [check_route_answered]
    cases taken : hasDestination (servers.routes ⟨dnsEndpoint, poolId⟩) with
    | true =>
      rw [MicroDns.afterOffers, foldl_of_all_taken]
      exact List.forall_mem_singleton.mpr taken
    | false => exact add_route_of_open taken gateway ended

theorem ensure_pools_eq (dnsEndpoint gateway : String) (ends : Nat → PoolEnds) (position : Nat)
    (pools : List String) (servers : MicroDns) :
    ensurePools dnsEndpoint gateway ends position pools servers =
      servers.afterOffers (poolOffers dnsEndpoint gateway ends position pools) := by
  induction pools generalizing position servers with
  | nil => rfl
  | cons poolId rest later =>
    rw [ensurePools, later, ensure_pool_eq, poolOffers, ← after_offers_append,
      List.singleton_append]

theorem ensure_route_eq (servers : MicroDns) (dnsEndpoint gateway : String) (ends : NetworkEnds) :
    ensureRoute servers dnsEndpoint gateway ends = servers.afterOffers (if ends.pools = true then
      poolOffers dnsEndpoint gateway ends.pool 0 (servers.pools dnsEndpoint) else []) := by
  rw [ensureRoute, listPools]
  cases ends.pools with
  | false => rfl
  | true =>
    rw [if_pos rfl, if_pos rfl]
    dsimp only
    split
    · rename_i nothing
      rw [nothing]
      rfl
    · exact ensure_pools_eq _ _ _ _ _ _

theorem dhcp_enabled_iff (dhcp : Option NetworkDhcp) :
    (dhcp.map NetworkDhcp.enabled).getD false = true ↔ dhcp = some { enabled := true } := by
  rcases dhcp with _ | ⟨_ | _⟩ <;> decide

/-- A pass counts the networks it handles and makes its offers. -/
theorem configure_networks_eq (ends : Nat → NetworkEnds) (position : Nat) (items : List Network)
    (count : Nat) (servers : MicroDns) :
    configureNetworks ends position items count servers =
      (count + items.countP fun net => decide net.Handled,
        servers.afterOffers (routeOffers servers.pools ends position items)) := by
  induction items generalizing position count servers with
  | nil => rfl
  | cons net rest later =>
    rw [configureNetworks, routeOffers, networkOffers, List.countP_cons, after_offers_append]
    split
    · rename_i skipped
      have other : ¬ net.Handled := by
        rintro ⟨data, enabled, -⟩
        rcases skipped with kind | disabled
        · exact kind data
        · rw [(dhcp_enabled_iff _).mpr enabled] at disabled
          cases disabled
      cases net.spec.dns with
      | none => simp [other, later]
      | some dns => simp [other, later]
    · rename_i kept
      rw [not_or, not_not, Bool.not_eq_false, dhcp_enabled_iff] at kept
      cases dns : net.spec.dns with
      | none =>
        have other : ¬ net.Handled := fun handled => by simp [Network.Handled, dns] at handled
        simp [other, later]
      | some endpoint =>
        have handled : net.Handled := ⟨kept.1, kept.2, by rw [dns]; rfl⟩
        dsimp only
        rw [later, ensure_route_eq]
        simp [handled]
        omega

theorem discover_and_configure_some (items : List Network) (ends : Nat → NetworkEnds)
    (servers : MicroDns) : discoverAndConfigure (some items) ends servers =
      (some (items.countP fun net => decide net.Handled),
        servers.afterOffers (routeOffers servers.pools ends 0 items)) := by
  rw [discoverAndConfigure]
  dsimp only
  rw [configure_networks_eq, Nat.zero_add]

theorem mem_pool_offers {endpoint gateway : String} {ends : Nat → PoolEnds} {position : Nat}
    {pools : List String} {offer : Offer PoolKey String}
    (listed : offer ∈ poolOffers endpoint gateway ends position pools) :
    offer.value = gateway ∧ ∃ poolId ∈ pools, offer.key = ⟨endpoint, poolId⟩ := by
  induction pools generalizing position with
  | nil => cases listed
  | cons poolId rest later =>
    rcases List.mem_cons.mp listed with rfl | listed
    · exact ⟨rfl, poolId, List.mem_cons_self, rfl⟩
    · obtain ⟨value, other, there, same⟩ := later listed
      exact ⟨value, other, List.mem_cons_of_mem _ there, same⟩

/-- Offers are of the gateways of the networks that are handled, to their pools. -/
theorem mem_route_offers {pools : String → List String} {ends : Nat → NetworkEnds}
    {position : Nat} {items : List Network} {offer : Offer PoolKey String}
    (listed : offer ∈ routeOffers pools ends position items) :
    ∃ net ∈ items, ∃ endpoint, net.HandledAt endpoint ∧ offer.value = net.spec.gateway ∧
      ∃ poolId ∈ pools endpoint, offer.key = ⟨endpoint, poolId⟩ := by
  induction items generalizing position with
  | nil => cases listed
  | cons net rest later =>
    rw [routeOffers, List.mem_append] at listed
    rcases listed with own | listed
    · rw [networkOffers] at own
      cases dns : net.spec.dns with
      | none =>
        rw [dns] at own
        cases own
      | some found =>
        rw [dns] at own
        dsimp only at own
        split at own
        · rename_i handled
          exact ⟨net, List.mem_cons_self, found.endpoint, ⟨handled.1.1, handled.1.2.1, dns⟩,
            mem_pool_offers own⟩
        · cases own
    · obtain ⟨other, there, rest⟩ := later listed
      exact ⟨other, List.mem_cons_of_mem _ there, rest⟩

theorem pool_offers_reach (endpoint gateway : String) {poolId : String} {ends : Nat → PoolEnds}
    (through : ∀ position, (ends position).through = true) {pools : List String}
    (listed : poolId ∈ pools) (position : Nat) :
    ∃ offer ∈ poolOffers endpoint gateway ends position pools,
      offer.Reaches ⟨endpoint, poolId⟩ := by
  induction pools generalizing position with
  | nil => cases listed
  | cons other rest later =>
    rw [poolOffers]
    rcases List.mem_cons.mp listed with rfl | listed
    · exact ⟨_, List.mem_cons_self, through position, rfl⟩
    · obtain ⟨offer, there, reaches⟩ := later listed (position + 1)
      exact ⟨offer, List.mem_cons_of_mem _ there, reaches⟩

/-- Where all requests get through, each pool of a network that is handled has an offer. -/
theorem route_offers_reach {pools : String → List String} {ends : Nat → NetworkEnds}
    (answered : ∀ position, (ends position).pools = true)
    (through : ∀ position poolPosition, ((ends position).pool poolPosition).through = true)
    {items : List Network} {net : Network} (listed : net ∈ items) {endpoint poolId : String}
    (handled : net.HandledAt endpoint) (pool : poolId ∈ pools endpoint) (position : Nat) :
    ∃ offer ∈ routeOffers pools ends position items, offer.Reaches ⟨endpoint, poolId⟩ := by
  induction items generalizing position with
  | nil => cases listed
  | cons other rest later =>
    rw [routeOffers]
    rcases List.mem_cons.mp listed with rfl | listed
    · obtain ⟨data, enabled, dns⟩ := handled
      obtain ⟨offer, there, reaches⟩ := pool_offers_reach endpoint net.spec.gateway
        (through position) pool 0
      refine ⟨offer, List.mem_append_left _ ?_, reaches⟩
      rw [networkOffers, dns]
      dsimp only
      rw [if_pos ⟨⟨data, enabled, by rw [dns]; rfl⟩, answered position⟩]
      exact there
    · obtain ⟨offer, there, reaches⟩ := later listed (position + 1)
      exact ⟨offer, List.mem_append_right _ there, reaches⟩

/-! ## What a successful pass means -/

/-- Every pool of each network that a pass handles has the route via the network's gateway. -/
def RoutesRight (items : List Network) (servers : MicroDns) : Prop :=
  ∀ net ∈ items, ∀ endpoint, net.HandledAt endpoint → ∀ poolId ∈ servers.pools endpoint,
    HasRouteVia net.spec.gateway (servers.routes ⟨endpoint, poolId⟩)

/-- If the pass returns a count, that many networks were handled, the routes are right, and a
further pass, however its requests end, adds nothing. -/
def PassMeansRight (networks : Option (List Network)) (ends : Nat → NetworkEnds)
    (servers : MicroDns) : Prop :=
  ∀ count, (discoverAndConfigure networks ends servers).1 = some count →
    ∃ items, networks = some items ∧
      count = (items.filter fun net => decide net.Handled).length ∧
      RoutesRight items (discoverAndConfigure networks ends servers).2 ∧
      ∀ ends', (discoverAndConfigure networks ends'
          (discoverAndConfigure networks ends servers).2).2 =
        (discoverAndConfigure networks ends servers).2

/-- Each pool of a network that is handled has the route via the network's gateway, or it has no
route to the address and this gateway is the first to reach it. -/
def GatewaysReach (items : List Network) (ends : Nat → NetworkEnds) (servers : MicroDns) : Prop :=
  ∀ net ∈ items, ∀ endpoint, net.HandledAt endpoint → ∀ poolId ∈ servers.pools endpoint,
    HasRouteVia net.spec.gateway (servers.routes ⟨endpoint, poolId⟩) ∨
      hasDestination (servers.routes ⟨endpoint, poolId⟩) = false ∧
        first (routeOffers servers.pools ends 0 items) ⟨endpoint, poolId⟩ = some net.spec.gateway

theorem HasRouteVia.has_destination {gateway : String} {routes : List RouteRequest}
    (found : HasRouteVia gateway routes) : hasDestination routes = true := by
  obtain ⟨route, listed, destination, -⟩ := found
  exact List.any_eq_true.mpr ⟨route, listed, beq_iff_eq.mpr destination⟩

theorem has_route_via_append (gateway added : String) (routes : List RouteRequest) :
    HasRouteVia gateway (routes ++ [⟨metadataIp, added, managedBy⟩]) ↔
      HasRouteVia gateway routes ∨ added = gateway := by
  simp [HasRouteVia, or_and_right, exists_or]

/-- Which routes a pass leaves in a pool. -/
theorem has_route_via_after_iff (gateway : String) (servers : MicroDns)
    (offers : List (Offer PoolKey String)) (key : PoolKey) :
    HasRouteVia gateway ((servers.afterOffers offers).routes key) ↔
      HasRouteVia gateway (servers.routes key) ∨
        hasDestination (servers.routes key) = false ∧ first offers key = some gateway := by
  rw [after_offers_routes]
  cases taken : hasDestination (servers.routes key) with
  | true =>
    rw [foldl_of_taken routeSlot taken]
    simp
  | false =>
    rw [foldl_of_open routeSlot taken]
    cases first offers key with
    | none => simp
    | some added =>
      have appended := has_route_via_append gateway added (servers.routes key)
      simpa [routeSlot] using appended

/-- **A pass with right routes is the last one to change them.** -/
theorem pass_of_right {items : List Network} {servers : MicroDns}
    (right : RoutesRight items servers) (ends : Nat → NetworkEnds) :
    (discoverAndConfigure (some items) ends servers).2 = servers := by
  rw [discover_and_configure_some]
  have taken : ∀ offer ∈ routeOffers servers.pools ends 0 items,
      routeSlot.taken (servers.routes offer.key) = true := by
    intro offer listed
    obtain ⟨net, there, endpoint, handled, -, poolId, pool, same⟩ := mem_route_offers listed
    rw [same]
    exact (right net there endpoint handled poolId pool).has_destination
  dsimp only
  rw [MicroDns.afterOffers, foldl_of_all_taken routeSlot taken]

/-- **A first pass without failures makes the routes right,** where networks that share a server
share a gateway. -/
theorem right_after_first_pass {items : List Network} {ends : Nat → NetworkEnds}
    {servers : MicroDns} (opened : ∀ key, hasDestination (servers.routes key) = false)
    (answered : ∀ position, (ends position).pools = true)
    (through : ∀ position poolPosition, ((ends position).pool poolPosition).through = true)
    (agree : ∀ net ∈ items, ∀ other ∈ items, ∀ endpoint, net.HandledAt endpoint →
      other.HandledAt endpoint → other.spec.gateway = net.spec.gateway) :
    RoutesRight items (discoverAndConfigure (some items) ends servers).2 := by
  intro net listed endpoint handled poolId pool
  rw [discover_and_configure_some] at pool ⊢
  refine (has_route_via_after_iff _ _ _ _).mpr (.inr ⟨opened _, ?_⟩)
  refine first_of_agree (route_offers_reach answered through listed handled pool 0) ?_
  intro offer there reaches
  obtain ⟨other, listed', endpoint', handled', value, poolId', pool', key⟩ := mem_route_offers there
  rw [reaches.2] at key
  cases key
  rw [value, agree net listed other listed' endpoint handled handled']

/-- **A successful pass means right routes exactly when the gateways reach the pools.** -/
theorem pass_means_right_iff (networks : Option (List Network)) (ends : Nat → NetworkEnds)
    (servers : MicroDns) : PassMeansRight networks ends servers ↔
      ∀ items, networks = some items → GatewaysReach items ends servers := by
  cases networks with
  | none =>
    constructor
    · intro _ items known
      cases known
    · intro _ count counted
      cases counted
  | some items =>
    have right_iff : RoutesRight items (discoverAndConfigure (some items) ends servers).2 ↔
        GatewaysReach items ends servers := by
      rw [discover_and_configure_some]
      simp only [RoutesRight, GatewaysReach, has_route_via_after_iff, after_offers_pools]
    constructor
    · intro means items' known
      obtain ⟨items'', known', -, right, -⟩ := means _ (by rw [discover_and_configure_some])
      cases known
      cases known'
      exact right_iff.mp right
    · intro reach count counted
      have right := right_iff.mpr (reach items rfl)
      rw [discover_and_configure_some] at counted
      refine ⟨items, rfl, ?_, right, fun ends' => pass_of_right right ends'⟩
      rw [← Option.some.inj counted, List.countP_eq_length_filter]

/-! ## A gateway that has changed -/

/-- A network whose gateway is not the one of the route in its pool. -/
def movedNetwork : Network :=
  { metadata := { name := "g10" }
    spec :=
      { netType := "data", gateway := "192.168.10.1"
        dns := some { endpoint := "http://192.168.10.252:8080" }
        dhcp := some { enabled := true } } }

def staleServers : MicroDns :=
  { pools := fun _ => ["pool1"], routes := fun _ => [⟨metadataIp, "192.168.10.254", managedBy⟩] }

def allAnswered : Nat → NetworkEnds := fun _ =>
  { pools := true, pool := fun _ => { routes := true, post := .answered } }

/-- Every request is answered and the pass is a success, but hosts keep the old gateway. -/
theorem stale_gateway_stays :
    (discoverAndConfigure (some [movedNetwork]) allAnswered staleServers).1 = some 1 ∧
      ¬ PassMeansRight (some [movedNetwork]) allAnswered staleServers := by
  refine ⟨by decide, fun means => ?_⟩
  obtain ⟨items, known, -, right, -⟩ := means 1 (by decide)
  cases known
  obtain ⟨route, listed, -, via⟩ := right movedNetwork List.mem_cons_self
    "http://192.168.10.252:8080" ⟨rfl, rfl, rfl⟩ "pool1" List.mem_cons_self
  have same : (discoverAndConfigure (some [movedNetwork]) allAnswered staleServers).2.routes
      ⟨"http://192.168.10.252:8080", "pool1"⟩ = [⟨metadataIp, "192.168.10.254", managedBy⟩] := by
    decide
  rw [same, List.mem_singleton] at listed
  rw [listed] at via
  exact absurd via (by decide)

/-! ## Start-up and the periodic check -/

/-- What a pass meets. -/
structure RoutePass where
  networks : Option (List Network)
  ends : Nat → NetworkEnds

def RoutePass.offers (pools : String → List String) (pass : RoutePass) :
    List (Offer PoolKey String) :=
  (pass.networks.map (routeOffers pools pass.ends 0)).getD []

/-- The loop of `start`, over the passes that it makes until one returns `Ok`. -/
def setUpRoutes : List RoutePass → MicroDns → Option Nat × MicroDns
  | [], servers => (none, servers)
  | pass :: rest, servers =>
    match discoverAndConfigure pass.networks pass.ends servers with
    | (some count, after) => (some count, after)
    | (none, after) => setUpRoutes rest after

/-- **The start-up ends with the first pass that gets the networks,** however its other requests
end. -/
theorem set_up_routes_eq (passes : List RoutePass) (servers : MicroDns) :
    setUpRoutes passes servers =
      ((passes.find? fun pass => pass.networks.isSome).map fun pass =>
        discoverAndConfigure pass.networks pass.ends servers).getD (none, servers) := by
  induction passes with
  | nil => rfl
  | cons pass passes later =>
    obtain ⟨networks, ends⟩ := pass
    unfold setUpRoutes
    cases networks with
    | none => exact later
    | some items =>
      simp only [discover_and_configure_some, List.find?_cons, Option.isSome_some, Option.map_some,
        Option.getD_some]

theorem route_pass_eq (servers : MicroDns) (pass : RoutePass) :
    (discoverAndConfigure pass.networks pass.ends servers).2 =
      servers.afterOffers (pass.offers servers.pools) := by
  obtain ⟨networks, ends⟩ := pass
  cases networks with
  | none => rfl
  | some items => rw [discover_and_configure_some]; rfl

theorem route_passes_eq (servers : MicroDns) (passes : List RoutePass) :
    passes.foldl (fun servers pass => (discoverAndConfigure pass.networks pass.ends servers).2)
        servers = servers.afterOffers (passes.flatMap (RoutePass.offers servers.pools)) := by
  induction passes generalizing servers with
  | nil => rfl
  | cons pass passes later =>
    rw [List.foldl_cons, later, route_pass_eq, after_offers_pools, List.flatMap_cons,
      after_offers_append]

/-- **Any number of passes leaves a pool its routes and adds one at most,** and none where there
is a route to the address. -/
theorem passes_add_one_route (servers : MicroDns) (passes : List RoutePass) (key : PoolKey) :
    ∃ added, (passes.foldl (fun servers pass =>
        (discoverAndConfigure pass.networks pass.ends servers).2) servers).routes key =
      servers.routes key ++ added ∧ added.length ≤ 1 ∧
      (hasDestination (servers.routes key) = true → added = []) := by
  rw [route_passes_eq, after_offers_routes]
  cases taken : hasDestination (servers.routes key) with
  | true =>
    rw [foldl_of_taken routeSlot taken]
    exact ⟨[], (List.append_nil _).symm, Nat.zero_le _, fun _ => rfl⟩
  | false =>
    rw [foldl_of_open routeSlot taken]
    cases first (passes.flatMap (RoutePass.offers servers.pools)) key with
    | none => exact ⟨[], (List.append_nil _).symm, Nat.zero_le _, fun _ => rfl⟩
    | some gateway => exact ⟨[⟨metadataIp, gateway, managedBy⟩], rfl, Nat.le_refl _, nofun⟩

end CloudId

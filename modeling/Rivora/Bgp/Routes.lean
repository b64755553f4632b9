import Rivora.Bgp.Peers
import Rivora.Dataplane.Statuses
import Rivora.Lib.FirstSeen

/-!
Which routes a node should advertise.

Every address with a healthy VIP gets a route of its own, and every configured aggregate that covers such
an address gets one as well. A route carries communities, and can be limited to some neighbours.
-/

namespace Rivora.Bgp

/-- An order in which the keys of a map can be visited. -/
structure Order (α : Type) where
  walk : List α → List α
  perm : ∀ keys, (walk keys).Perm keys

/-- The canonical text of an address; a text that is no address stays as it is. -/
def normAddr (addr : String) : String := (peerText addr).getD addr

/-- An aggregate: the block, and whether the routes of the addresses in it are left out. -/
structure Aggregate extends BGPAggregate where
  suppressSpecifics : Bool
  deriving DecidableEq, Repr

/-- The settings of the speaker. -/
structure Settings where
  asn : UInt32
  routerID : String
  ipv6NextHop : String
  peers : List Peer
  communities : List String
  localPref : Option UInt32
  aggregates : List Aggregate

/-- One route to advertise: its communities, and the neighbours it is limited to if it is. -/
structure Route where
  communities : List UInt32
  peers : Option (List String)
  deriving DecidableEq, Repr

/-- What routes are compared by. -/
def Route.sig (r : Route) : String :=
  let sig := ",".intercalate (r.communities.map fun c => toString c.toNat)
  match r.peers with
  | none => sig
  | some peers => sig ++ "|" ++ ",".intercalate peers

/-- The neighbours a route goes to when several VIPs share its address. -/
structure PeerScope where
  all : Bool
  named : List String
  deriving DecidableEq, Repr

/-- Nobody has named any neighbours yet. -/
def PeerScope.none : PeerScope := ⟨false, []⟩

/-- Add the neighbours one VIP names; a VIP that names none goes to all. -/
def PeerScope.add (scope : PeerScope) (peers : List String) : PeerScope :=
  if peers = [] then { scope with all := true }
  else { scope with named := peers.foldl (fun named p => named.insert (normAddr p)) scope.named }

/-- The neighbours in order, or nothing for all of them. -/
def PeerScope.list (scope : PeerScope) : Option (List String) :=
  if scope.all ∨ scope.named = [] then Option.none else some (scope.named.insertionSort (· ≤ ·))

/-- Lists of communities one behind the other, without repeats. -/
def mergeCommunities (lists : List (List UInt32)) : List UInt32 := FirstSeen.firsts id lists.flatten

/-- What the VIPs of one address ask for. -/
structure Asked where
  communities : List String
  peers : PeerScope
  deriving DecidableEq, Repr

/-- Whether a backend of a VIP is healthy. -/
def anyHealthy (backends : List BackendStatus) : Bool := backends.any BackendStatus.healthy

/-- What the VIPs of each address ask for, with one more VIP. -/
def noteStatus (vips : FMap Netip.Addr Asked) (st : Status) : FMap Netip.Addr Asked :=
  if !anyHealthy st.backends then vips
  else
    match Netip.parseAddr st.vipAddress with
    | none => vips
    | some addr =>
      let asked := (vips.get? addr).getD ⟨[], .none⟩
      vips.insert addr ⟨asked.communities ++ st.bgpCommunities, asked.peers.add st.bgpPeers⟩

/-- The routes of the aggregates so far, and the addresses that get no route of their own. -/
structure Gathered where
  desired : FMap Netip.Prefix Route
  suppressed : List Netip.Addr

/-- Take an aggregate into account. -/
def Gathered.aggregate (global : List UInt32) (vips : FMap Netip.Addr Asked) (g : Gathered) (a : Aggregate) :
    Except String Gathered :=
  match Netip.parsePrefix a.pfx with
  | none => .error ("netip.ParsePrefix(" ++ a.pfx.quote ++ ")")
  | some p =>
    let covered := vips.keys.filter fun addr => p.masked.contains addr
    if covered = [] then .ok g
    else do
      let specific ← parseCommunities a.communities
      return {
        desired := g.desired.insert p.masked
          ⟨mergeCommunities [global, specific], (PeerScope.none.add a.peers).list⟩
        suppressed := if a.suppressSpecifics then covered ++ g.suppressed else g.suppressed }

/-- The route of one address. -/
def hostRoute (global : List UInt32) (vips : FMap Netip.Addr Asked) (suppressed : List Netip.Addr)
    (desired : FMap Netip.Prefix Route) (addr : Netip.Addr) : Except String (FMap Netip.Prefix Route) :=
  if addr ∈ suppressed then .ok desired
  else do
    let asked := (vips.get? addr).getD ⟨[], .none⟩
    let specific ← parseCommunities asked.communities
    return desired.insert (Netip.hostPrefix addr) ⟨mergeCommunities [global, specific], asked.peers.list⟩

/-- Every route that should be advertised. -/
def Settings.desiredRoutes (cfg : Settings) (order : Order Netip.Addr) (statuses : List Status) :
    Except String (FMap Netip.Prefix Route) := do
  let global ← parseCommunities cfg.communities
  let vips := statuses.foldl noteStatus FMap.empty
  let gathered ← cfg.aggregates.foldlM (Gathered.aggregate global vips) ⟨FMap.empty, []⟩
  (order.walk vips.keys).foldlM (hostRoute global vips gathered.suppressed) gathered.desired

end Rivora.Bgp

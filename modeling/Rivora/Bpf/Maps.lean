import Rivora.Lib.FiniteMap
import Rivora.Net.Address

/-!
The kernel maps the control plane writes and the packet programs read.

The IPv4 and IPv6 siblings of an address-keyed map are one map here, whose keys carry the family.
An array map is a function of its index; reads beyond its capacity find nothing.
-/

namespace Rivora

/-- Capacity of the maps indexed by service ID. -/
def maxVIPs : Nat := 4096

/-- Capacity of the maps indexed by backend ID. -/
def maxBackends : Nat := 8192

/-- Slots of the shared lookup table. -/
def maglevM : Nat := 65537

/-- The key of an exact-port VIP; the port is in network byte order. -/
structure VipKey where
  addr : Addr
  port : UInt16
  proto : UInt8
  deriving DecidableEq, Repr

/-- The key of one block of a port range in a longest-prefix trie. -/
structure VipRangeKey where
  prefixLen : Nat
  addr : Addr
  proto : UInt8
  port : UInt16
  deriving DecidableEq, Repr

/-- The prefix length of a range key's fixed part: address, protocol and padding. -/
def rangePrefixBase : Addr → Nat
  | .v4 _ => 48
  | .v6 _ => 144

/-- How the ingress program hands a packet to a backend. -/
inductive ServiceMode where
  | dsr
  | nat
  | tunnelIPIP
  | tunnelGRE
  deriving DecidableEq, Repr, Inhabited

/-- What the lookup slot of a new flow is chosen from. -/
inductive ServiceAffinity where
  | none
  | clientIP
  deriving DecidableEq, Repr, Inhabited

/-- A service's forwarding parameters; the zero value is an unused entry. -/
structure ServiceConfig where
  backendCount : Nat
  maglevOffset : Nat
  maglevSize : Nat
  mode : ServiceMode
  affinity : ServiceAffinity
  /-- The service owns a port range, so the destination port is kept. -/
  range : Bool
  deriving DecidableEq, Repr, Inhabited

/-- The entry of an unused service ID. -/
def ServiceConfig.zero : ServiceConfig := ⟨0, 0, 0, .dsr, .none, false⟩

/-- A backend's address, port in network byte order, and hardware address. -/
structure BackendInfo where
  addr : Addr
  port : UInt16
  mac : Mac
  deriving DecidableEq, Repr

/-- What a backend may take: nothing, every flow, or established flows only. -/
inductive Health where
  | down
  | healthy
  | draining
  deriving DecidableEq, Repr, Inhabited

/-- A token bucket's parameters. -/
structure RLConfig where
  ratePerSec : UInt64
  burst : UInt64
  enabled : Bool
  deriving DecidableEq, Repr, Inhabited

/-- The value of an unset limit. -/
def RLConfig.zero : RLConfig := ⟨0, 0, false⟩

/-- The outer source addresses of the tunnel modes; zero means none. -/
structure TunnelConfig where
  src4 : UInt32
  src6 : IP
  deriving DecidableEq, Repr

/-- A flow in the request direction; ports are in network byte order. -/
structure ConnKey where
  saddr : Addr
  daddr : Addr
  sport : UInt16
  dport : UInt16
  proto : UInt8
  deriving DecidableEq, Repr

/-- A flow in the reply direction, as the backend sends it. -/
structure NATReverseKey where
  backendAddr : Addr
  clientAddr : Addr
  backendPort : UInt16
  clientPort : UInt16
  proto : UInt8
  deriving DecidableEq, Repr

/-- The VIP endpoint a reply leaves from. -/
structure NATReverseVal where
  vipAddr : Addr
  vipPort : UInt16
  deriving DecidableEq, Repr

/-- A fragmented datagram. -/
structure FragKey where
  saddr : Addr
  daddr : Addr
  id : UInt32
  proto : UInt8
  deriving DecidableEq, Repr

/-- Where a datagram's first fragment was sent. -/
structure FragVal where
  backendID : Nat
  serviceID : Nat
  deriving DecidableEq, Repr

/-- A token bucket. -/
structure RLBucket where
  tokens : UInt64
  lastRefillNs : UInt64
  deriving DecidableEq, Repr

/-- Packet counters, summed over the CPUs. -/
structure LBStats where
  packets : Nat
  bytes : Nat
  dropped : Nat
  deriving DecidableEq, Repr, Inhabited

/-- Why a packet of a matched VIP did not reach a backend. -/
inductive DropReason where
  | rateLimited
  | noBackend
  | unserved
  deriving DecidableEq, Repr

/-- The drops of a VIP by reason. -/
abbrev DropStats := DropReason → Nat

/-- The maps the packet programs write. -/
structure Flow where
  affinity : FMap ConnKey Nat
  frag : FMap FragKey FragVal
  natReverse : FMap NATReverseKey NATReverseVal
  fragRev : FMap FragKey Addr
  /-- Buckets of the node-wide limit, by CPU and source. -/
  rlBuckets : FMap (Nat × Addr) RLBucket
  /-- Buckets of the services' own limits, by CPU, service and source. -/
  svcRlBuckets : FMap (Nat × Nat × Addr) RLBucket
  stats : Nat → LBStats
  dropStats : Nat → DropStats

/-- Flow maps as they are created. -/
def Flow.empty : Flow where
  affinity := FMap.empty
  frag := FMap.empty
  natReverse := FMap.empty
  fragRev := FMap.empty
  rlBuckets := FMap.empty
  svcRlBuckets := FMap.empty
  stats := fun _ => ⟨0, 0, 0⟩
  dropStats := fun _ _ => 0

/-- Which half of the backend map, and which ID. -/
structure BackendKey where
  isV4 : Bool
  id : Nat
  deriving DecidableEq, Repr

/-- Every map, as one state. -/
structure Maps where
  vip : FMap VipKey Nat
  vipRange : FMap VipRangeKey Nat
  serviceConfig : Nat → ServiceConfig
  maglevTable : Nat → Nat
  backend : FMap BackendKey BackendInfo
  backendHealth : Nat → Health
  svcRlConfig : Nat → RLConfig
  rlConfig : RLConfig
  tunnelConfig : TunnelConfig
  ifaceMAC : FMap Nat Mac
  flow : Flow

/-- Maps as they are created, with the parameters written once at start-up. -/
def Maps.empty (rlConfig : RLConfig) (tunnelConfig : TunnelConfig) (ifaceMAC : FMap Nat Mac) :
    Maps where
  vip := FMap.empty
  vipRange := FMap.empty
  serviceConfig := fun _ => .zero
  maglevTable := fun _ => 0
  backend := FMap.empty
  backendHealth := fun _ => .down
  svcRlConfig := fun _ => .zero
  rlConfig := rlConfig
  tunnelConfig := tunnelConfig
  ifaceMAC := ifaceMAC
  flow := .empty

/-- One update or deletion the control plane asks the kernel for. -/
inductive MapWrite where
  | setVip (key : VipKey) (serviceID : Nat)
  | deleteVip (key : VipKey)
  | setVipRange (key : VipRangeKey) (serviceID : Nat)
  | deleteVipRange (key : VipRangeKey)
  | setServiceConfig (serviceID : Nat) (config : ServiceConfig)
  | setMaglev (slot backendID : Nat)
  | setBackend (key : BackendKey) (info : BackendInfo)
  | deleteBackend (key : BackendKey)
  | setHealth (backendID : Nat) (health : Health)
  | setSvcRl (serviceID : Nat) (config : RLConfig)
  | resetDropStats (serviceID : Nat)
  deriving DecidableEq

/-- An array map takes no index at or above its capacity. -/
def MapWrite.inBounds : MapWrite → Bool
  | .setServiceConfig sid _ | .setSvcRl sid _ | .resetDropStats sid => sid < maxVIPs
  | .setMaglev slot _ => slot < maglevM
  | .setHealth id _ => id < maxBackends
  | _ => true

/-- An array with one entry replaced. -/
def arraySet {α : Type} (a : Nat → α) (i : Nat) (v : α) : Nat → α :=
  fun j => if j = i then v else a j

/-- The maps after one write. -/
def MapWrite.apply (w : MapWrite) (m : Maps) : Maps :=
  match w with
  | .setVip key sid => { m with vip := m.vip.insert key sid }
  | .deleteVip key => { m with vip := m.vip.erase key }
  | .setVipRange key sid => { m with vipRange := m.vipRange.insert key sid }
  | .deleteVipRange key => { m with vipRange := m.vipRange.erase key }
  | .setServiceConfig sid config =>
    { m with serviceConfig := arraySet m.serviceConfig sid config }
  | .setMaglev slot id => { m with maglevTable := arraySet m.maglevTable slot id }
  | .setBackend key info => { m with backend := m.backend.insert key info }
  | .deleteBackend key => { m with backend := m.backend.erase key }
  | .setHealth id health => { m with backendHealth := arraySet m.backendHealth id health }
  | .setSvcRl sid config => { m with svcRlConfig := arraySet m.svcRlConfig sid config }
  | .resetDropStats sid =>
    { m with flow := { m.flow with dropStats := arraySet m.flow.dropStats sid fun _ => 0 } }

/-- The maps after a sequence of writes. -/
def replay (writes : List MapWrite) (m : Maps) : Maps :=
  writes.foldl (fun m w => w.apply m) m

@[simp] theorem replay_nil (m : Maps) : replay [] m = m := rfl

@[simp] theorem replay_cons (w : MapWrite) (ws : List MapWrite) (m : Maps) :
    replay (w :: ws) m = replay ws (w.apply m) := rfl

theorem replay_append (ws ws' : List MapWrite) (m : Maps) :
    replay (ws ++ ws') m = replay ws' (replay ws m) :=
  List.foldl_append

theorem replay_preserves {P : Maps → Prop} {ws : List MapWrite}
    (step : ∀ w ∈ ws, ∀ m, P m → P (w.apply m)) {m : Maps} (start : P m) : P (replay ws m) := by
  induction ws generalizing m with
  | nil => exact start
  | cons w rest ih =>
    rw [replay_cons]
    exact ih (fun v member => step v (List.mem_cons_of_mem w member))
      (step w List.mem_cons_self m start)

@[simp] theorem arraySet_same {α : Type} (a : Nat → α) (i : Nat) (v : α) : arraySet a i v i = v :=
  if_pos rfl

theorem arraySet_of_ne {α : Type} (a : Nat → α) {i j : Nat} (v : α) (other : j ≠ i) :
    arraySet a i v j = a j :=
  if_neg other

end Rivora

import Rivora.Bpf.Maps

/-! Helpers the packet programs share: the flow hashes, the token bucket, and map lookups. -/

namespace Rivora

/-- The two addresses of a packet, of one family. -/
inductive Endpoints where
  | v4 (saddr daddr : UInt32)
  | v6 (saddr daddr : IP)
  deriving DecidableEq, Repr

/-- The source address. -/
def Endpoints.saddr : Endpoints → Addr
  | .v4 s _ => .v4 s
  | .v6 s _ => .v6 s

/-- The destination address. -/
def Endpoints.daddr : Endpoints → Addr
  | .v4 _ d => .v4 d
  | .v6 _ d => .v6 d

/-- Whether a packet is IPv4. -/
def Endpoints.isV4 : Endpoints → Bool
  | .v4 _ _ => true
  | .v6 _ _ => false

/-- One round of the flow hash. -/
def hashRound (h word : UInt32) : UInt32 := (h ^^^ word) * 16777619

/-- The ports of a flow as one word. -/
def portsWord (sport dport : UInt16) : UInt32 := sport.toUInt32 <<< 16 ||| dport.toUInt32

/-- The `i`-th 32-bit word of an address, loaded little-endian. -/
def ipWord (ip : IP) (i : Fin 4) : UInt32 :=
  ip[4 * i.val].toUInt32 ||| ip[4 * i.val + 1].toUInt32 <<< 8 |||
    ip[4 * i.val + 2].toUInt32 <<< 16 ||| ip[4 * i.val + 3].toUInt32 <<< 24

/-- The hash of a whole flow; over IPv6 the words of the two addresses alternate. -/
def rivoraHash5 (ends : Endpoints) (sport dport : UInt16) (proto : UInt8) : UInt32 :=
  let addresses := match ends with
    | .v4 s d => hashRound (hashRound 2166136261 s) d
    | .v6 s d => (List.finRange 4).foldl
        (fun h i => hashRound (hashRound h (ipWord s i)) (ipWord d i)) 2166136261
  hashRound (hashRound addresses (portsWord sport dport)) proto.toUInt32

/-- A finalizer that spreads every bit over the word. -/
def rivoraFmix32 (h : UInt32) : UInt32 :=
  let h := (h ^^^ (h >>> 16)) * 0x85ebca6b
  let h := (h ^^^ (h >>> 13)) * 0xc2b2ae35
  h ^^^ (h >>> 16)

/-- The hash of a flow's source address alone. -/
def rivoraHashSrc (ends : Endpoints) : UInt32 :=
  rivoraFmix32 (match ends with
    | .v4 s _ => hashRound 2166136261 s
    | .v6 s _ => (List.finRange 4).foldl (fun h i => hashRound h (ipWord s i)) 2166136261)

/-- Time beyond which a bucket counts as refilled. -/
def rlMaxElapsedNs : UInt64 := 10000000000

/-- One step of a token bucket: refill it, take a token, and say whether it was empty. -/
def rlTake (cfg : RLConfig) (cur : Option RLBucket) (now : UInt64) : Bool × RLBucket :=
  -- A source seen for the first time starts with a full bucket.
  let tokens := (cur.map RLBucket.tokens).getD cfg.burst
  let last := (cur.map RLBucket.lastRefillNs).getD now
  let elapsed := if now > last then now - last else 0
  let elapsed := if elapsed > rlMaxElapsedNs then rlMaxElapsedNs else elapsed
  let tokens := tokens + elapsed * cfg.ratePerSec / 1000000000
  let tokens := if tokens > cfg.burst then cfg.burst else tokens
  let exceeded := decide (tokens < 1)
  (exceeded, ⟨if exceeded then tokens else tokens - 1, now⟩)

namespace Maps

/-- The parameters of a service, within the array. -/
def serviceConfig? (m : Maps) (sid : Nat) : Option ServiceConfig :=
  if sid < maxVIPs then some (m.serviceConfig sid) else none

/-- The own limit of a service, within the array. -/
def svcRlConfig? (m : Maps) (sid : Nat) : Option RLConfig :=
  if sid < maxVIPs then some (m.svcRlConfig sid) else none

/-- The backend ID in a slot, within the array. -/
def maglevTable? (m : Maps) (slot : Nat) : Option Nat :=
  if slot < maglevM then some (m.maglevTable slot) else none

/-- The health of a backend, within the array. -/
def backendHealth? (m : Maps) (id : Nat) : Option Health :=
  if id < maxBackends then some (m.backendHealth id) else none

/-- A backend may take established flows. -/
def alive (m : Maps) (id : Nat) : Bool := (m.backendHealth? id).any (· ≠ .down)

/-- The first `bits` bits of a port, the rest cleared; the port is in network byte order. -/
def maskPort (port : UInt16) (bits : Nat) : UInt16 :=
  htons (UInt16.ofNat ((htons port).toNat / 2 ^ (16 - bits) * 2 ^ (16 - bits)))

/-- The longest block of a trie that holds a port. -/
def rangeLookup (m : Maps) (addr : Addr) (port : UInt16) (proto : UInt8) : Option Nat :=
  (List.range 17).reverse.findSome? fun bits =>
    m.vipRange.get? ⟨rangePrefixBase addr + bits, addr, proto, maskPort port bits⟩

/-- The service an endpoint belongs to: an exact-port VIP, else a port range. -/
def service (m : Maps) (addr : Addr) (port : UInt16) (proto : UInt8) : Option Nat :=
  (m.vip.get? ⟨addr, port, proto⟩).or (m.rangeLookup addr port proto)

end Maps

namespace Flow

/-- Count a packet for the node or a backend, as delivered or dropped. -/
def bumpStats (f : Flow) (idx bytes : Nat) (dropped : Bool) : Flow :=
  if idx < 1 + maxBackends then
    let s := f.stats idx
    let s := if dropped then { s with dropped := s.dropped + 1 }
      else { s with packets := s.packets + 1, bytes := s.bytes + bytes }
    { f with stats := arraySet f.stats idx s }
  else f

/-- Count a packet that did not reach a backend of a service. -/
def bumpDrop (f : Flow) (sid : Nat) (reason : DropReason) : Flow :=
  if sid < maxVIPs then
    { f with dropStats := arraySet f.dropStats sid fun r =>
        if r = reason then f.dropStats sid r + 1 else f.dropStats sid r }
  else f

end Flow

end Rivora

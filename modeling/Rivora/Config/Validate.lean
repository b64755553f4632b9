import Mathlib.Data.List.Sort
import Rivora.ConfigLaws
import Rivora.Lib.FiniteMap
import Rivora.Lib.Guard
import Rivora.Net.Netip
import Rivora.Text

/-!
The configuration of a node and the check it passes before anything is programmed.

A text option that is one of a few values has no value here for a text outside them, except where that
text is refused by a check of its own.
-/

namespace Rivora

open Guard

/-- How the packet program is attached; `unset` is the empty text. -/
inductive XDPMode where
  | unset
  | generic
  | native
  | auto
  | other (text : String)
  deriving DecidableEq, Repr

/-- One of the three modes, or none. -/
def XDPMode.validate : XDPMode → Except String Unit
  | .other text => .error ("xdpMode " ++ text.quote ++ ": must be generic, native or auto")
  | _ => .ok ()

/-- The limit on new connections across all VIPs of a node. -/
structure RateLimit where
  enabled : Bool
  perSourcePacketsPerSecond : UInt64
  burst : UInt64
  deriving DecidableEq, Repr

/-- A neighbour of the BGP speaker. -/
structure BGPPeer where
  address : String
  asn : UInt32
  password : String
  passwordFile : String
  multihop : UInt32
  /-- The restart time in seconds, where graceful restart is configured. -/
  gracefulRestart : Option UInt32
  deriving DecidableEq, Repr

/-- A block that is advertised for the VIPs inside it. -/
structure BGPAggregate where
  pfx : String
  communities : List String
  peers : List String
  deriving DecidableEq, Repr

/-- The BGP speaker. -/
structure BGP where
  enabled : Bool
  asn : UInt32
  routerID : String
  ipv6NextHop : String
  peers : List BGPPeer
  communities : List String
  aggregates : List BGPAggregate
  peersFromResources : Bool
  deriving DecidableEq, Repr

/-- A VIP as a file lists it, with the port conveniences that loading expands. -/
structure VIPEntry where
  vip : VIP
  ports : List UInt16
  portRange : String
  deriving DecidableEq, Repr

/-- The settings of a node. -/
structure Config where
  interface : String
  xdpMode : XDPMode
  tunnelSource : String
  tunnelSource6 : String
  rateLimit : RateLimit
  bgp : BGP
  vips : List VIPEntry
  deriving DecidableEq, Repr

/-- The VIPs of a configuration. -/
def Config.specs (c : Config) : List VIP := c.vips.map VIPEntry.vip

section Communities

/-- The communities that have a name. -/
def wellKnownCommunities : FMap String UInt32 := FMap.ofList [
  ("no-export", 0xFFFFFF01), ("no-advertise", 0xFFFFFF02), ("no-export-subconfed", 0xFFFFFF03)]

/-- A community that does not parse. -/
def errCommunity (c : String) : String :=
  "community " ++ c.quote ++
    ": want asn:value (0-65535 each) or one of no-export, no-advertise, no-export-subconfed"

/-- One community: a name, or two numbers with a colon between them. -/
def parseCommunity (text : String) : Except String UInt32 :=
  let c := Text.trimSpace text.toList
  match wellKnownCommunities.get? (String.ofList (c.toList.map Text.lower)) with
  | some value => .ok value
  | none =>
    match Text.cut ':' c.toList with
    | none => .error (errCommunity c)
    | some (a, b) =>
      match Text.parseUint 65535 a, Text.parseUint 65535 b with
      | some hi, some lo => .ok (UInt32.ofNat (hi * 65536 + lo))
      | _, _ => .error (errCommunity c)

/-- Every community of a list. -/
def parseCommunities (texts : List String) : Except String (List UInt32) := texts.mapM parseCommunity

/-- A list of communities that parse, as a check. -/
def checkCommunities (site : String) (texts : List String) : Except String Unit :=
  match parseCommunities texts with
  | .error e => .error (site ++ e)
  | .ok _ => .ok ()

end Communities

section Peers

/-- An IPv4-mapped address as the IPv4 address it maps. -/
def Netip.Addr.unmap : Netip.Addr → Netip.Addr
  | .v6 bytes zone =>
    if bytes.toList.take 12 = v4InV6Prefix then .v4 #v[bytes.get 12, bytes.get 13, bytes.get 14, bytes.get 15]
    else .v6 bytes zone
  | a => a

/-- The text of a neighbour's address that all its spellings share. -/
def peerText (address : String) : Option String :=
  (Netip.parseAddr address).map fun addr => addr.unmap.text

/-- Addresses of neighbours: each once, in the spelling they share, in order. -/
def parsePeerAddrs (names : List String) : Except String (List String) :=
  match names.find? fun a => (peerText a).isNone with
  | some a => .error ("peer " ++ a.quote ++ ": not an IP address")
  | none => .ok ((names.filterMap peerText).eraseDups.insertionSort (· ≤ ·))

/-- Names of neighbours that are addresses and, where all neighbours are known, name one of them. -/
def BGP.checkPeerNames (b : BGP) (names : List String) : Except String Unit :=
  match parsePeerAddrs names with
  | .error e => .error e
  | .ok norm =>
    if !b.enabled || b.peersFromResources then .ok ()
    else
      let known := b.peers.filterMap fun p => peerText p.address
      forEach (fun n => refuseIf (n ∉ known) (n ++ " is not one of the configured BGP peers")) norm

/-- A neighbour's optional settings. -/
def BGPPeer.validateOptions (p : BGPPeer) (localASN : UInt32) : Except String Unit := do
  refuseIf (p.password ≠ "" ∧ p.passwordFile ≠ "") "set password or passwordFile, not both"
  refuseIf (80 < p.password.utf8ByteSize) "password is longer than the 80 bytes TCP MD5 allows"
  refuseIf (p.multihop ≠ 0 ∧ (p.multihop < 2 ∨ 255 < p.multihop))
    ("multihop " ++ toString p.multihop.toNat ++
      ": must be 2-255 (leave it unset for a directly connected peer)")
  refuseIf (p.multihop ≠ 0 ∧ p.asn = localASN)
    ("multihop applies to eBGP; this peer is in the same AS (" ++ toString p.asn.toNat ++ ")")
  forEach (fun time => refuseIf (4095 < time)
    ("gracefulRestart.restartTime " ++ toString time.toNat ++ ": at most 4095 seconds"))
    p.gracefulRestart.toList

/-- One neighbour on its own. -/
def BGPPeer.validate (p : BGPPeer) (localASN : UInt32) : Except String Unit := do
  refuseIf (parseIP p.address = none) ("bgp peer " ++ p.address.quote ++ ": invalid address")
  refuseIf (p.asn = 0) ("bgp peer " ++ p.address ++ ": asn must be > 0")
  (p.validateOptions localASN).mapError fun e => "bgp peer " ++ p.address ++ ": " ++ e

end Peers

/-- One aggregate. -/
def BGP.checkAggregate (b : BGP) (a : BGPAggregate) : Except String Unit := do
  refuseIf (Netip.parsePrefix a.pfx = none)
    ("bgp aggregate " ++ a.pfx.quote ++ ": not a valid prefix: ")
  (b.checkPeerNames a.peers).mapError fun e => "bgp aggregate " ++ a.pfx ++ ": peers: " ++ e
  checkCommunities ("bgp aggregate " ++ a.pfx ++ ": ") a.communities

/-- The speaker, where it is enabled. -/
def BGP.validate (b : BGP) : Except String Unit :=
  if !b.enabled then .ok ()
  else do
    refuseIf (b.asn = 0) "bgp: asn must be > 0 when enabled"
    refuseIf (parseIP b.routerID = none) "bgp: routerId must be a valid IP address"
    refuseIf (b.ipv6NextHop ≠ "" ∧ (parseIP b.ipv6NextHop).all fun ip => ip.to4.isSome)
      "bgp: ipv6NextHop must be a valid IPv6 address"
    refuseIf (b.peers = [] ∧ b.peersFromResources = false)
      "bgp: at least one peer is required when enabled"
    forEach (fun p => p.validate b.asn) b.peers
    checkCommunities "bgp: " b.communities
    forEach b.checkAggregate b.aggregates

section Probes

/-- What an HTTP probe accepts unless told otherwise. -/
def defaultExpectStatus : String := "200-399"

/-- A probe with its defaults filled in. -/
def ProbeSpec.effective (p : ProbeSpec) : ProbeSpec :=
  let type := if p.type = .unset then .tcp else p.type
  if type = .http then
    { p with
      type := type
      path := if p.path = "" then "/" else p.path
      expectStatus := if p.expectStatus = "" then defaultExpectStatus else p.expectStatus }
  else { p with type := type }

/-- A status code; a plus sign is allowed, and a negative number is too small. -/
def parseStatus (s : List Char) : Option Nat :=
  let digits := match (Text.trimSpace s).toList with
    | '+' :: rest => rest
    | all => all
  (Text.parseUint 599 digits).filter (100 ≤ ·)

/-- One end of the accepted status codes. -/
def checkStatus (e : String) (s : List Char) : Except String Nat :=
  match parseStatus s with
  | some n => .ok n
  | none => .error ("expectStatus " ++ e.quote ++ ": " ++ (String.ofList s).quote ++
      " is not an HTTP status code (100-599)")

/-- The accepted status codes: one, or the two ends of a range. -/
def ProbeSpec.statusRange (p : ProbeSpec) : Except String (Nat × Nat) :=
  let e := p.effective.expectStatus
  match Text.cut '-' e.toList with
  | some (a, b) => do
    let lo ← checkStatus e a
    let hi ← checkStatus e b
    if lo > hi then .error ("expectStatus " ++ e.quote ++ ": range start is after its end")
    else return (lo, hi)
  | none => (checkStatus e e.toList).map fun lo => (lo, lo)

/-- Whether a text has one of some characters. -/
def containsAny (s : String) (chars : List Char) : Bool := s.toList.any fun c => c ∈ chars

/-- One probe on its own. -/
def ProbeSpec.validate (p : ProbeSpec) : Except String Unit :=
  let e := p.effective
  if e.type = .http then do
    refuseIf (e.path.toList.head? ≠ some '/')
      ("healthCheck: path " ++ p.path.quote ++ " must start with /")
    refuseIf (containsAny e.path [' ', '\t', '\r', '\n'] = true)
      ("healthCheck: path " ++ p.path.quote ++ " must not contain whitespace")
    refuseIf (containsAny e.host [' ', '/', '\t', '\r', '\n'] = true)
      ("healthCheck: host " ++ p.host.quote ++ " is not a valid Host header value")
    (p.statusRange.map fun _ => ()).mapError fun e => "healthCheck: " ++ e
  else
    refuseIf (p.path ≠ "" ∨ p.host ≠ "" ∨ p.expectStatus ≠ "")
      "healthCheck: path, host and expectStatus only apply to type http"

end Probes

/-- A limit is unset, or both its numbers are positive. -/
def VIPRateLimit.validate (r : VIPRateLimit) : Except String Unit :=
  refuseIf (r.set = true ∧ (r.perSourcePacketsPerSecond = 0 ∨ r.burst = 0))
    "rateLimit: perSourcePacketsPerSecond and burst must both be > 0"

/-- Whether a mode is one the node knows. -/
def Mode.valid (m : Mode) : Bool := m = .dsr || m = .nat || m.isTunnel

section Vips

/-- A VIP as errors name it, by its port. -/
def VIP.atPort (v : VIP) : String := "vip " ++ v.address ++ ":" ++ toString v.port.toNat

/-- A VIP as errors name it, by its port or range. -/
def VIP.atLabel (v : VIP) : String := "vip " ++ v.address ++ ":" ++ v.portLabel

/-- The rules for a range. -/
def VIP.checkRange (v : VIP) : Except String Unit :=
  if !v.isRange then .ok ()
  else do
    refuseIf (v.portEnd ≤ v.port ∨ v.port = 0)
      (v.atLabel ++ ": a port range needs 1 <= port < portEnd")
    refuseIf (v.healthCheck.port = 0)
      (v.atLabel ++ ": healthCheck.port is required for a port range " ++
        "(its backends have no single port to probe)")
    forEach (fun b => refuseIf (b.port ≠ 0)
      (v.atLabel ++ ": backend " ++ b.address ++ " must not set a port: " ++
        "a port range reaches the backend on the port the client used")) v.backends

/-- The rules for a hardware address: DSR needs one, a tunnel takes none. -/
def VIP.checkMAC (v : VIP) (b : Backend) : Except String Unit := do
  refuseIf (v.mode.isTunnel = true ∧ b.mac ≠ "")
    ("backend " ++ b.address ++ ": mac only applies to mode dsr; a " ++ v.mode.text ++
      " backend is reached by its address")
  refuseIf (v.mode = .dsr ∧ b.mac = "")
    ("backend " ++ b.address ++ ": mac is required in dsr mode")
  refuseIf (v.mode = .dsr ∧ parseMAC b.mac = none)
    ("backend " ++ b.address ++ ": invalid mac " ++ b.mac.quote ++ ": address " ++ b.mac ++
      ": invalid MAC address")

/-- One backend of a VIP: an address of the VIP's family, and a hardware address as the mode has it. -/
def VIP.checkBackend (v : VIP) (vipIsV4 : Bool) (b : Backend) : Except String Unit :=
  match parseIP b.address with
  | none => .error ("backend " ++ b.address.quote ++ ": invalid address")
  | some beIP => do
    refuseIf (beIP.to4.isSome ≠ vipIsV4)
      (v.atPort ++ ": backend " ++ b.address ++ " is a different address family than the VIP")
    v.checkMAC b

/-- One VIP on its own. -/
def BGP.checkVIP (bgp : BGP) (v : VIP) : Except String Unit :=
  match parseIP v.address with
  | none => .error ("vip " ++ v.address.quote ++ ": invalid address")
  | some vipIP => do
    refuseIf (v.protocol ≠ .tcp ∧ v.protocol ≠ .udp) (v.atPort ++ ": protocol must be tcp or udp")
    refuseIf (v.mode.valid = false)
      (v.atPort ++ ": mode must be dsr, nat, dsr-ipip or dsr-gre")
    refuseIf (v.backends = []) (v.atPort ++ ": at least one backend is required")
    v.checkRange
    v.healthCheck.validate.mapError fun e => v.atPort ++ ": " ++ e
    v.rateLimit.validate.mapError fun e => v.atPort ++ ": " ++ e
    checkCommunities (v.atPort ++ ": bgpCommunities: ") (v.bgpCommunities.getD [])
    (bgp.checkPeerNames (v.bgpPeers.getD [])).mapError fun e => v.atPort ++ ": bgpPeers: " ++ e
    forEach (v.checkBackend vipIP.to4.isSome) v.backends

/-- One entry of the list: expanded, and of a key that no entry before it has. -/
def checkEntry (seen : List String) (entry : VIPEntry) : Except String (List String) :=
  if entry.ports ≠ [] ∨ entry.portRange ≠ "" then
    .error ("vip " ++ entry.vip.address ++
      ": ports/portRange are only read from a config file (Load expands them)")
  else if vipKeyString entry.vip ∈ seen then
    .error (entry.vip.atLabel ++ "/" ++ entry.vip.protocol.text ++ ": duplicate VIP")
  else .ok (vipKeyString entry.vip :: seen)

/-- The ports of a range, and how errors name it. -/
structure Span where
  lo : UInt16
  hi : UInt16
  name : String
  deriving DecidableEq

/-- What ranges are compared within: one address, however it is written, and one protocol. -/
def rangeGroup (ip : IP) (v : VIP) : String := ip.text ++ "/" ++ v.protocol.text

/-- The ports of a VIP. -/
def VIP.span (v : VIP) : Span := ⟨v.port, v.portEnd, v.address ++ ":" ++ v.portLabel⟩

/-- One range against those before it on its address. -/
def checkOverlap (byAddr : FMap String (List Span)) (v : VIP) :
    Except String (FMap String (List Span)) :=
  if !v.isRange then .ok byAddr
  else
    match parseIP v.address with
    -- The check of the VIP itself reports this.
    | none => .ok byAddr
    | some ip =>
      let spans := (byAddr.get? (rangeGroup ip v)).getD []
      match spans.find? fun o => v.port ≤ o.hi ∧ o.lo ≤ v.portEnd with
      | some o => .error ("vip " ++ v.span.name ++ " overlaps vip " ++ o.name ++ "/" ++
          v.protocol.text ++ " on the same address; port ranges must not overlap")
      | none => .ok (byAddr.insert (rangeGroup ip v) (spans ++ [v.span]))

/-- No two ranges of one address and protocol share a port. -/
def Config.checkRanges (c : Config) : Except String Unit := walk checkOverlap FMap.empty c.specs

end Vips

section Shared

/-- A hardware address as text. -/
def macText (bytes : List UInt8) : String :=
  ":".intercalate (bytes.map fun b =>
    String.ofList [Nat.digitChar (b.toNat / 16), Nat.digitChar (b.toNat % 16)])

/-- Every backend a configuration lists, with the VIP that lists it. -/
def Config.uses (c : Config) : List (VIP × Backend) :=
  c.specs.flatMap fun v => v.backends.map fun b => (v, b)

/-- One use of a backend against the hardware address an earlier use gave it. -/
def checkSharedMAC (first : FMap String (String × String)) (use : VIP × Backend) :
    Except String (FMap String (String × String)) :=
  let (v, b) := use
  let vipName := v.address ++ ":" ++ v.portLabel ++ "/" ++ v.protocol.text
  if b.mac = "" then .ok first
  else
    match parseMACBytes b.mac.toList with
    -- The check of the backend itself reports this, in the one mode that uses the address.
    | none => .ok first
    | some hw =>
      match (first.get? (backendName b)).filter fun prev => prev.2 ≠ macText hw with
      | some prev => .error ("backend " ++ backendName b ++ " has mac " ++ prev.2 ++ " in vip " ++
          prev.1 ++ " but " ++ macText hw ++ " in vip " ++ vipName ++ "; a backend has one MAC")
      | none => .ok (first.insert (backendName b) (vipName, macText hw))

/-- One use of a backend against the probe of its first use. -/
def checkSharedProbe (first : FMap String (String × ProbeSpec)) (use : VIP × Backend) :
    Except String (FMap String (String × ProbeSpec)) :=
  let (v, b) := use
  let vipName := v.address ++ ":" ++ toString v.port.toNat ++ "/" ++ v.protocol.text
  match first.get? (backendName b) with
  | none => .ok (first.insert (backendName b) (vipName, v.healthCheck.effective))
  | some prev =>
    if prev.2 ≠ v.healthCheck.effective then
      .error ("backend " ++ backendName b ++ " is used by vip " ++ prev.1 ++ " and vip " ++ vipName ++
        " with different healthCheck settings; a backend is probed once, so they must agree")
    else .ok first

/-- A backend has one hardware address. -/
def Config.checkSharedBackendMACs (c : Config) : Except String Unit :=
  walk checkSharedMAC FMap.empty c.uses

/-- A backend is probed in one way. -/
def Config.checkSharedBackendProbes (c : Config) : Except String Unit :=
  walk checkSharedProbe FMap.empty c.uses

end Shared

/-- The outer source addresses are of their families. -/
def Config.validateTunnelSources (c : Config) : Except String Unit := do
  refuseIf (c.tunnelSource ≠ "" ∧ (parseIP c.tunnelSource).all fun ip => ip.to4.isNone)
    ("tunnelSource " ++ c.tunnelSource.quote ++ ": must be an IPv4 address")
  refuseIf (c.tunnelSource6 ≠ "" ∧ (parseIP c.tunnelSource6).all fun ip => ip.to4.isSome)
    ("tunnelSource6 " ++ c.tunnelSource6.quote ++ ": must be an IPv6 address")

/-- The whole configuration. -/
def Config.validate (c : Config) : Except String Unit := do
  refuseIf (c.interface = "") "interface is required"
  c.xdpMode.validate
  refuseIf (c.rateLimit.enabled = true ∧
      (c.rateLimit.perSourcePacketsPerSecond = 0 ∨ c.rateLimit.burst = 0))
    "rateLimit: perSourcePacketsPerSecond and burst must both be > 0 when enabled"
  c.bgp.validate
  c.validateTunnelSources
  refuseIf (c.vips = []) "at least one VIP is required"
  walk checkEntry [] c.vips
  c.checkRanges
  forEach c.bgp.checkVIP c.specs
  c.checkSharedBackendMACs
  c.checkSharedBackendProbes

end Rivora

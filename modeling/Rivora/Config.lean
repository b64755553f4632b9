import Rivora.Net.Address

/-! The VIP part of the configuration, with each text option as its set of values. -/

namespace Rivora

/-- How a VIP hands a packet to its backend; `unset` is the empty text. -/
inductive Mode where
  | unset
  | dsr
  | nat
  | dsrIPIP
  | dsrGRE
  deriving DecidableEq, Repr, Inhabited

/-- Whether a mode encapsulates towards the backend. -/
def Mode.isTunnel : Mode → Bool
  | .dsrIPIP | .dsrGRE => true
  | _ => false

/-- The text of a mode. -/
def Mode.text : Mode → String
  | .unset => ""
  | .dsr => "dsr"
  | .nat => "nat"
  | .dsrIPIP => "dsr-ipip"
  | .dsrGRE => "dsr-gre"

/-- The transport protocol of a VIP; `unset` is the empty text. -/
inductive Protocol where
  | unset
  | tcp
  | udp
  deriving DecidableEq, Repr, Inhabited

/-- The text of a protocol. -/
def Protocol.text : Protocol → String
  | .unset => ""
  | .tcp => "tcp"
  | .udp => "udp"

/-- Whether one client sticks to one backend; `unset` is the empty text. -/
inductive SessionAffinity where
  | unset
  | none
  | clientIP
  deriving DecidableEq, Repr, Inhabited

/-- The empty value means the default, none. -/
def SessionAffinity.effective : SessionAffinity → SessionAffinity
  | .unset => .none
  | a => a

/-- What an active health probe does; `unset` is the empty text. -/
inductive ProbeType where
  | unset
  | tcp
  | http
  deriving DecidableEq, Repr, Inhabited

/-- How the backends of a VIP are probed. -/
structure ProbeSpec where
  type : ProbeType
  port : UInt16
  path : String
  host : String
  expectStatus : String
  deriving DecidableEq, Repr, Inhabited

/-- One backend of a VIP. -/
structure Backend where
  address : String
  port : UInt16
  mac : String
  weight : Nat
  deriving DecidableEq, Repr, Inhabited

/-- A limit on one VIP's new TCP connections; zero means not set. -/
structure VIPRateLimit where
  perSourcePacketsPerSecond : UInt64
  burst : UInt64
  deriving DecidableEq, Repr, Inhabited

/-- Whether a limit is configured. -/
def VIPRateLimit.set (r : VIPRateLimit) : Bool :=
  r.perSourcePacketsPerSecond ≠ 0 || r.burst ≠ 0

/--
One VIP of the configuration, after loading has expanded its port conveniences.

An optional list is a slice: `none` is nil, which a deep comparison tells from the empty slice.
-/
structure VIP where
  address : String
  port : UInt16
  portEnd : UInt16
  protocol : Protocol
  mode : Mode
  backends : List Backend
  sessionAffinity : SessionAffinity
  healthCheck : ProbeSpec
  rateLimit : VIPRateLimit
  bgpCommunities : Option (List String)
  bgpPeers : Option (List String)
  deriving DecidableEq, Repr, Inhabited

/-- Whether a VIP owns a port range rather than one port. -/
def VIP.isRange (v : VIP) : Bool := v.portEnd ≠ 0

/-- A VIP's port as text: one number, or the two ends of a range. -/
def VIP.portLabel (v : VIP) : String :=
  if v.isRange then toString v.port.toNat ++ "-" ++ toString v.portEnd.toNat
  else toString v.port.toNat

/-- The key of a VIP: address, port label and protocol. -/
def vipKeyString (v : VIP) : String :=
  v.address ++ ":" ++ v.portLabel ++ ":" ++ v.protocol.text

/-- The key of a backend: address and port. -/
def backendName (b : Backend) : String :=
  b.address ++ ":" ++ toString b.port.toNat

end Rivora

import Rivora.Bpf.Frame
import Rivora.Bpf.RangeTrie
import Rivora.Bpf.TcNat
import Rivora.Lib.InternetChecksum

/-!
The full-NAT rewrites of a frame, with the incremental update of its checksums.

The kernel's `bpf_csum_diff` is a parameter. The modes other than full NAT leave the network header alone,
so that the frame is handed on here as it came.
-/

namespace Rivora

open Splice

section Rewrites

variable (csumDiff : List UInt8 → List UInt8 → Int)

/-- Fold the carries of a sum once. -/
def foldCarry (sum : Int) : Int := if sum / 65536 ≠ 0 then sum % 65536 + sum / 65536 else sum

/-- A 16-bit checksum once a field under it has changed; it is the complement of a sum. -/
def csumReplace (check : UInt16) (old new : List UInt8) : UInt16 :=
  if new.length = 2 then
    -- The helper takes multiples of four bytes only, so a single word is added by hand.
    let sum := (65535 - check.toNat) + (65535 - InternetChecksum.hostSum old) + InternetChecksum.hostSum new
    let sum := sum % 65536 + sum / 65536
    let sum := sum % 65536 + sum / 65536
    UInt16.ofNat (65535 - sum % 65536)
  else
    let diff := csumDiff old new
    if diff < 0 ∧ diff ≥ -4095 then check
    else
      let sum := foldCarry (foldCarry (foldCarry (foldCarry ((65535 - check.toNat : Nat) + diff))))
      let sum := if sum < 0 then sum + 65535 else sum
      UInt16.ofNat (65535 - sum % 65536).toNat

namespace Frame

/-- Fold the change of a field into the checksum at a place. -/
def fixChecksum (f : Frame) (check : Nat) (old new : List UInt8) : Frame :=
  patch f check (portBytes (csumReplace csumDiff (f.load16 check) old new))

/-- Rewrite one address of an IPv4 header. -/
def rewriteAddr4 (f : Frame) (l3 at_ : Nat) (addr : List UInt8) : Frame :=
  patch (f.fixChecksum csumDiff (l3 + 10) (slice f at_ 4) addr) at_ addr

/-- Rewrite one address and one port that one checksum covers. -/
def rewriteEnd (f : Frame) (check addrAt portAt : Nat) (addr port : List UInt8) : Frame :=
  let oldAddr := slice f addrAt addr.length
  let oldPort := slice f portAt 2
  let checked : Frame := (f.fixChecksum csumDiff check oldAddr addr).fixChecksum csumDiff check oldPort port
  patch (patch checked portAt port) addrAt addr

/-- Rewrite one address and one port of an IPv4 packet. -/
def rewriteSegment4 (f : Frame) (l3 l4 addrAt portAt : Nat) (tcp : Bool) (addr port : List UInt8) : Frame :=
  let f : Frame := f.fixChecksum csumDiff (l3 + 10) (slice f addrAt 4) addr
  if tcp then f.rewriteEnd csumDiff (l4 + 16) addrAt portAt addr port
  -- A UDP checksum of zero means that there is none.
  else if f.load16 (l4 + 6) ≠ 0 then f.rewriteEnd csumDiff (l4 + 6) addrAt portAt addr port
  else patch (patch f portAt port) addrAt addr

/-- Rewrite one address and one port of an IPv6 packet, whose header has no checksum. -/
def rewriteSegment6 (f : Frame) (l4 addrAt portAt : Nat) (tcp : Bool) (addr port : List UInt8) : Frame :=
  if tcp then f.rewriteEnd csumDiff (l4 + 16) addrAt portAt addr port
  else f.rewriteEnd csumDiff (l4 + 6) addrAt portAt addr port

/-- Rewrite the port of a quoted packet, if it changes. -/
def rewritePort (f : Frame) (check portAt : Nat) (oldPort port : List UInt8) : Frame :=
  if port ≠ oldPort then patch (f.fixChecksum csumDiff check oldPort port) portAt port else f

/-- Rewrite the destination of an ICMP error and the source of the packet it quotes. -/
def rewriteIcmp4 (f : Frame) (l3 : Nat) (addr port : List UInt8) : Frame :=
  let vip := slice f (l3 + 40) 4
  let oldPort := slice f (l3 + 48) 2
  let f : Frame := patch (f.fixChecksum csumDiff (l3 + 10) vip addr) (l3 + 16) addr
  let oldCheck := slice f (l3 + 38) 2
  let f : Frame := f.fixChecksum csumDiff (l3 + 38) vip addr
  let newCheck := slice f (l3 + 38) 2
  -- The message covers the quoted header with its own checksum.
  let f : Frame := f.fixChecksum csumDiff (l3 + 22) vip addr
  let f : Frame := f.fixChecksum csumDiff (l3 + 22) oldCheck newCheck
  patch (f.rewritePort csumDiff (l3 + 22) (l3 + 48) oldPort port) (l3 + 40) addr

/-- The same over IPv6, where the message also covers the address it is sent to. -/
def rewriteIcmp6 (f : Frame) (l3 : Nat) (addr port : List UInt8) : Frame :=
  let vip := slice f (l3 + 56) 16
  let oldPort := slice f (l3 + 88) 2
  let f : Frame := f.fixChecksum csumDiff (l3 + 42) vip addr
  let f : Frame := f.fixChecksum csumDiff (l3 + 42) vip addr
  patch (patch (f.rewritePort csumDiff (l3 + 42) (l3 + 88) oldPort port) (l3 + 24) addr) (l3 + 56) addr

end Frame

/-- The four bytes of an address of the IPv4 maps. -/
def Addr.bytes4 : Addr → List UInt8
  | .v4 word => (Addr.v4 word).bytes
  -- The IPv4 maps hold no such address.
  | .v6 _ => [0, 0, 0, 0]

/-- The sixteen bytes of an address of the IPv6 maps. -/
def Addr.bytes6 : Addr → List UInt8
  | .v4 _ => List.replicate 16 0
  | .v6 ip => ip.toList

/-- Whether a packet carries a TCP header. -/
def Body.isTcp : Body → Bool
  | .segment ⟨.tcp _, _, _⟩ _ => true
  | _ => false

/-- The frame as the ingress program leaves it, delivered by full NAT. -/
def Frame.natIngress (f : Frame) (m : Maps) (body : Body) (d : Delivery) : Layout → Frame
  | .segment4 l3 l4 =>
    f.rewriteSegment4 csumDiff l3 l4 (l3 + 16) (l4 + 2) body.isTcp
      d.backend.addr.bytes4 (portBytes (d.dport.getD 0))
  | .segment6 l3 l4 =>
    f.rewriteSegment6 csumDiff l4 (l3 + 24) (l4 + 2) body.isTcp
      d.backend.addr.bytes6 (portBytes (d.dport.getD 0))
  | .laterFragment4 l3 => f.rewriteAddr4 csumDiff l3 (l3 + 16) d.backend.addr.bytes4
  | .laterFragment6 l3 => patch f (l3 + 24) d.backend.addr.bytes6
  | .icmp4 l3 =>
    -- A range VIP keeps the port of the quoted packet.
    f.rewriteIcmp4 csumDiff l3 d.backend.addr.bytes4
      (portBytes (if (m.serviceConfig d.serviceID).range then f.load16 (l3 + 48) else d.backend.port))
  | .icmp6 l3 =>
    f.rewriteIcmp6 csumDiff l3 d.backend.addr.bytes6
      (portBytes (if (m.serviceConfig d.serviceID).range then f.load16 (l3 + 88) else d.backend.port))

/-- The ingress program on the bytes of a frame, as far as full NAT changes them. -/
def ingressFrame (m : Maps) (ctx : Context) (f : Frame) : Verdict × Flow × Frame :=
  match f.parse with
  | none => (.pass, m.flow, f)
  | some (pkt, layout) =>
    let (verdict, flow) := ingress m ctx pkt
    (verdict, flow,
      match verdict with
      | .forward d => if d.mode = .nat then f.natIngress csumDiff m pkt.body d layout else f
      | _ => f)

/-- Where a reply of a flow that was rewritten goes out from, if it belongs to one. -/
def replySource (f : Flow) (pkt : Packet) : Option Reply :=
  match pkt.body with
  | .other | .icmpError _ _ => none
  | .laterFragment id proto =>
    (f.fragRev.get? ⟨pkt.ends.saddr, pkt.ends.daddr, id, proto⟩).map fun vip => ⟨vip, none⟩
  | .segment l4 _ =>
    (f.natReverse.get? ⟨pkt.ends.saddr, pkt.ends.daddr, l4.sport, l4.dport, l4.transport.proto⟩).map
      fun val => ⟨val.vipAddr, some val.vipPort⟩

/-- The frame as the egress program leaves it. -/
def Frame.natEgress (f : Frame) (body : Body) (reply : Reply) : Layout → Frame
  | .segment4 l3 l4 =>
    f.rewriteSegment4 csumDiff l3 l4 (l3 + 12) l4 body.isTcp
      reply.saddr.bytes4 (portBytes (reply.sport.getD 0))
  | .segment6 l3 l4 =>
    f.rewriteSegment6 csumDiff l4 (l3 + 8) l4 body.isTcp
      reply.saddr.bytes6 (portBytes (reply.sport.getD 0))
  | .laterFragment4 l3 => f.rewriteAddr4 csumDiff l3 (l3 + 12) reply.saddr.bytes4
  | .laterFragment6 l3 => patch f (l3 + 8) reply.saddr.bytes6
  -- The egress program does not look at ICMP.
  | .icmp4 _ | .icmp6 _ => f

/-- The egress program on the bytes of a frame. -/
def egressFrame (flow : Flow) (f : Frame) : Flow × Frame :=
  match f.parse with
  | none => (flow, f)
  | some (pkt, layout) =>
    ((egress flow pkt).2,
      match replySource flow pkt with
      | none => f
      | some reply => f.natEgress csumDiff pkt.body reply layout)

end Rewrites

end Rivora

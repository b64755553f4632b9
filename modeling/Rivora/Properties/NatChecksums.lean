import Rivora.Bpf.IngressLaws
import Rivora.Bpf.NatLaws

/-! Checksums through full NAT. -/

namespace Rivora

variable {m : Maps} {ctx : Context} {d : Delivery} {outcome : Verdict × Flow}

open Splice InternetChecksum

namespace Layout

/-- The place of the port that names the VIP of a request. -/
def portAt : Layout → Nat
  | .segment4 _ l4 | .segment6 _ l4 => l4 + 2
  | .icmp4 l3 => l3 + 48
  | .icmp6 l3 => l3 + 88
  | .laterFragment4 _ | .laterFragment6 _ => 0

/-- The port of the backend's end: a range VIP keeps the one of the packet. -/
def backendPort (layout : Layout) (m : Maps) (f : Frame) (d : Delivery) : List UInt8 :=
  if (m.serviceConfig d.serviceID).range then slice f layout.portAt 2 else portBytes d.backend.port

/-- What a rewrite must achieve: the fields and nothing else change, and valid checksums stay valid. -/
structure Translated (layout : Layout) (tcp : Bool) (f f' : Frame) (fields : List (Nat × List UInt8)) : Prop where
  rewritten : Rewritten f f' fields (layout.checks tcp)
  valid : ∀ stop tail, layout.Holds tcp f stop → ∀ text ∈ layout.texts tcp stop tail,
    Valid (text f) → Valid (text f')

end Layout

@[simp] theorem Addr.length_bytes4 (addr : Addr) : addr.bytes4.length = 4 := by cases addr <;> rfl

@[simp] theorem Addr.length_bytes6 (addr : Addr) : addr.bytes6.length = 16 := by cases addr <;> simp [bytes6]

theorem Sent.mode {pkt : Packet} {d' : Delivery} {f : Flow}
    (sent : Sent m ctx pkt d f outcome) (forwarded : outcome.1 = .forward d') : d'.mode = d.mode := by
  cases sent with
  | forward same => cases forwarded; rw [same]
  | _ => cases forwarded

theorem IngressEnds.port {pkt : Packet}
    (ends : IngressEnds m ctx pkt outcome) (forwarded : outcome.1 = .forward d) (nat : d.mode = .nat)
    {l4 : L4} {firstOf : Option UInt32} (body : pkt.body = .segment l4 firstOf) :
    d.dport = some (backendPort (m.serviceConfig d.serviceID) l4 d.backend) := by
  cases ends with
  | other body' => cases body.symm.trans body'
  | later body' => cases body.symm.trans body'
  | icmp body' => cases body.symm.trans body'
  | segment body' ends =>
    cases body.symm.trans body'
    cases ends with
    | delivered _ _ serves _ _ handed =>
      cases handed with
      | translated =>
        cases forwarded
        rw [(serviceConfig?_eq_some serves.config).2]
      | direct mode sent => exact absurd ((sent.mode forwarded).symm.trans nat) mode
    | _ => cases forwarded

/-- The port that a segment is sent on with is the one of the backend's end. -/
theorem IngressEnds.portBytes {pkt : Packet} (ends : IngressEnds m ctx pkt outcome) (forwarded : outcome.1 = .forward d)
    (nat : d.mode = .nat) {header : L4} {firstOf : Option UInt32} (body : pkt.body = .segment header firstOf)
    {f : Frame} {layout : Layout} (dport : header.dport = f.load16 layout.portAt)
    (inside : layout.portAt + 2 ≤ f.length) :
    Rivora.portBytes (d.dport.getD 0) = layout.backendPort m f d := by
  rw [ends.port forwarded nat body, Option.getD_some, Layout.backendPort, backendPort, dport]
  split
  · exact Frame.portBytes_load16 inside
  · rfl

/-- An error that is handed on quotes a packet from the address it is sent to. -/
theorem IngressEnds.about {pkt : Packet}
    (ends : IngressEnds m ctx pkt outcome) (forwarded : outcome.1 = .forward d)
    {quoted : Endpoints} {l4 : L4} (body : pkt.body = .icmpError quoted l4) : quoted.saddr = pkt.ends.daddr := by
  cases ends with
  | other body' => cases body.symm.trans body'
  | later body' => cases body.symm.trans body'
  | segment body' => cases body.symm.trans body'
  | icmp body' ends =>
    cases body.symm.trans body'
    cases ends with
    | passed => cases forwarded
    | followed about => exact about

theorem L4.size_eq (header : L4) (firstOf : Option UInt32) :
    header.size = if (Body.segment header firstOf).isTcp then 20 else 8 := by
  obtain ⟨transport, sport, dport⟩ := header
  cases transport <;> rfl

/-- The fields of an IPv4 segment lie within its frame. -/
theorem Layout.Of.segment4 {f : Frame} {pkt : Packet} {l3 l4 : Nat} (known : Layout.Of f pkt (.segment4 l3 l4))
    {addrAt portAt : Nat} (address : addrAt = l3 + 12 ∨ addrAt = l3 + 16) (place : portAt = l4 ∨ portAt = l4 + 2)
    {addr port : List UInt8} (size : addr.length = 4) (size' : port.length = 2) :
    Frame.Segment4 f l3 l4 addrAt portAt pkt.body.isTcp addr port := by
  obtain ⟨-, words, rfl, header, firstOf, body, -, inside⟩ := known
  rw [header.size_eq firstOf, ← body] at inside
  exact ⟨by omega, by omega, address, place, size, size', inside⟩

/-- So do those of an IPv6 segment. -/
theorem Layout.Of.segment6 {f : Frame} {pkt : Packet} {l3 l4 : Nat} (known : Layout.Of f pkt (.segment6 l3 l4))
    {addrAt portAt : Nat} (address : addrAt = l3 + 8 ∨ addrAt = l3 + 24) (place : portAt = l4 ∨ portAt = l4 + 2)
    {addr port : List UInt8} (size : addr.length = 16) (size' : port.length = 2) :
    Frame.Segment6 f l3 l4 addrAt portAt pkt.body.isTcp addr port := by
  obtain ⟨-, behind, header, firstOf, body, -, inside⟩ := known
  rw [header.size_eq firstOf, ← body] at inside
  exact ⟨behind, address, place, size, size', inside⟩

/-- An IPv4 segment is sent on with the port of the backend's end. -/
theorem Layout.Of.port4 {f : Frame} {pkt : Packet} {l3 l4 : Nat} (known : Layout.Of f pkt (.segment4 l3 l4))
    (forwarded : (ingress m ctx pkt).1 = .forward d) (nat : d.mode = .nat) :
    portBytes (d.dport.getD 0) = Layout.backendPort (.segment4 l3 l4) m f d := by
  obtain ⟨-, -, -, header, firstOf, body, dport, inside⟩ := known
  rw [header.size_eq firstOf] at inside
  exact (ingress_ends m ctx pkt).portBytes forwarded nat body dport
    (show l4 + 2 + 2 ≤ f.length by split at inside <;> omega)

/-- So is an IPv6 segment. -/
theorem Layout.Of.port6 {f : Frame} {pkt : Packet} {l3 l4 : Nat} (known : Layout.Of f pkt (.segment6 l3 l4))
    (forwarded : (ingress m ctx pkt).1 = .forward d) (nat : d.mode = .nat) :
    portBytes (d.dport.getD 0) = Layout.backendPort (.segment6 l3 l4) m f d := by
  obtain ⟨-, -, header, firstOf, body, dport, inside⟩ := known
  rw [header.size_eq firstOf] at inside
  exact (ingress_ends m ctx pkt).portBytes forwarded nat body dport
    (show l4 + 2 + 2 ≤ f.length by split at inside <;> omega)

section Translation

variable {csumDiff : List UInt8 → List UInt8 → Int} (helper : CsumDiff csumDiff) {f : Frame} {pkt : Packet}
  {layout : Layout} (known : layout.Of f pkt)

include helper known

/-- The ingress program's rewrite, for every kind of packet. -/
theorem natIngress_translated (forwarded : (ingress m ctx pkt).1 = .forward d) (nat : d.mode = .nat) :
    layout.Translated pkt.body.isTcp f (f.natIngress csumDiff m pkt.body d layout)
      (layout.ingressFields (layout.addrBytes d.backend.addr) (layout.backendPort m f d)) := by
  have ends := ingress_ends m ctx pkt
  cases layout with
  | segment4 l3 l4 =>
    have segment := known.segment4 (.inr rfl) (.inr rfl) d.backend.addr.length_bytes4
      (length_portBytes (d.dport.getD 0))
    have port := known.port4 forwarded nat
    obtain ⟨-, words, behind, -⟩ := known
    rw [← port]
    exact ⟨segment.rewritten csumDiff, fun stop tail holds => segment.valid helper words behind tail holds⟩
  | segment6 l3 l4 =>
    have segment := known.segment6 (.inr rfl) (.inr rfl) d.backend.addr.length_bytes6
      (length_portBytes (d.dport.getD 0))
    have port := known.port6 forwarded nat
    rw [← port]
    exact ⟨segment.rewritten csumDiff, fun stop tail holds => segment.valid helper tail holds⟩
  | laterFragment4 l3 =>
    obtain ⟨-, words, inside, -⟩ := known
    have size := d.backend.addr.length_bytes4
    exact ⟨Frame.rewriteAddr4_rewritten size inside (.inr rfl) _ csumDiff,
      fun stop tail holds => Frame.rewriteAddr4_valid size inside (.inr rfl) helper words tail holds⟩
  | laterFragment6 l3 =>
    obtain ⟨-, inside, -⟩ := known
    exact ⟨Frame.patch_rewritten d.backend.addr.length_bytes6 (by omega), fun _ _ _ _ none => nomatch none⟩
  | icmp4 l3 =>
    obtain ⟨same, words, quotedWords, inside, type, l4, body⟩ := known
    -- The two places of the VIP hold the same address, so they hold the same bytes.
    have about : Addr.v4 (f.load32 (l3 + 40)) = Addr.v4 (f.load32 (l3 + 16)) := by
      have about := ends.about forwarded body
      rw [same] at about
      exact about
    have quotes : slice f (l3 + 40) 4 = slice f (l3 + 16) 4 := by
      rw [← Frame.bytes_load32 (by omega), ← Frame.bytes_load32 (by omega), about]
    have port : portBytes (if (m.serviceConfig d.serviceID).range then f.load16 (l3 + 48) else d.backend.port) =
        Layout.backendPort (.icmp4 l3) m f d := by
      rw [Layout.backendPort]
      split
      · exact Frame.portBytes_load16 (by omega)
      · rfl
    have icmp : Frame.Icmp4 f l3 d.backend.addr.bytes4 (Layout.backendPort (.icmp4 l3) m f d) :=
      ⟨d.backend.addr.length_bytes4, by rw [← port, length_portBytes], inside, quotes⟩
    rw [Frame.natIngress, port]
    exact ⟨icmp.rewritten csumDiff,
      fun stop tail holds => icmp.valid helper words quotedWords type tail holds⟩
  | icmp6 l3 =>
    obtain ⟨same, inside, l4, body⟩ := known
    have about : Addr.v6 (f.load128 (l3 + 56)) = Addr.v6 (f.load128 (l3 + 24)) := by
      have about := ends.about forwarded body
      rw [same] at about
      exact about
    have quotes : slice f (l3 + 56) 16 = slice f (l3 + 24) 16 := by
      rw [← Frame.bytes_load128 (by omega), ← Frame.bytes_load128 (by omega), Addr.v6.inj about]
    have port : portBytes (if (m.serviceConfig d.serviceID).range then f.load16 (l3 + 88) else d.backend.port) =
        Layout.backendPort (.icmp6 l3) m f d := by
      rw [Layout.backendPort]
      split
      · exact Frame.portBytes_load16 (by omega)
      · rfl
    have icmp : Frame.Icmp6 f l3 d.backend.addr.bytes6 (Layout.backendPort (.icmp6 l3) m f d) :=
      ⟨d.backend.addr.length_bytes6, by rw [← port, length_portBytes], inside, quotes⟩
    rw [Frame.natIngress, port]
    exact ⟨icmp.rewritten csumDiff, fun stop tail holds => icmp.valid helper tail holds⟩

/-- The egress program's rewrite, for every kind of packet. -/
theorem natEgress_translated {flow : Flow} {reply : Reply} (found : replySource flow pkt = some reply) :
    layout.Translated pkt.body.isTcp f (f.natEgress csumDiff pkt.body reply layout)
      (layout.egressFields (layout.addrBytes reply.saddr) (portBytes (reply.sport.getD 0))) := by
  cases layout with
  | segment4 l3 l4 =>
    have segment := known.segment4 (.inl rfl) (.inl rfl) reply.saddr.length_bytes4
      (length_portBytes (reply.sport.getD 0))
    obtain ⟨-, words, behind, -⟩ := known
    exact ⟨segment.rewritten csumDiff, fun stop tail holds => segment.valid helper words behind tail holds⟩
  | segment6 l3 l4 =>
    have segment := known.segment6 (.inl rfl) (.inl rfl) reply.saddr.length_bytes6
      (length_portBytes (reply.sport.getD 0))
    exact ⟨segment.rewritten csumDiff, fun stop tail holds => segment.valid helper tail holds⟩
  | laterFragment4 l3 =>
    obtain ⟨-, words, inside, -⟩ := known
    have size := reply.saddr.length_bytes4
    exact ⟨Frame.rewriteAddr4_rewritten size inside (.inl rfl) _ csumDiff,
      fun stop tail holds => Frame.rewriteAddr4_valid size inside (.inl rfl) helper words tail holds⟩
  | laterFragment6 l3 =>
    obtain ⟨-, inside, -⟩ := known
    exact ⟨Frame.patch_rewritten reply.saddr.length_bytes6 (by omega), fun _ _ _ _ none => nomatch none⟩
  | icmp4 l3 =>
    -- The egress program has no entry for an ICMP error.
    obtain ⟨-, -, -, -, -, l4, body⟩ := known
    rw [replySource, body] at found
    cases found
  | icmp6 l3 =>
    obtain ⟨-, -, l4, body⟩ := known
    rw [replySource, body] at found
    cases found

end Translation

theorem ingressFrame_eq {csumDiff : List UInt8 → List UInt8 → Int} {f : Frame} {pkt : Packet} {layout : Layout}
    (parsed : f.parse = some (pkt, layout))
    (forwarded : (ingress m ctx pkt).1 = .forward d) (nat : d.mode = .nat) :
    (ingressFrame csumDiff m ctx f).2.2 = f.natIngress csumDiff m pkt.body d layout := by
  simp only [ingressFrame, parsed, forwarded, nat, if_true]

theorem egressFrame_eq {csumDiff : List UInt8 → List UInt8 → Int} {f : Frame} {pkt : Packet} {layout : Layout}
    (parsed : f.parse = some (pkt, layout)) {flow : Flow} {reply : Reply}
    (found : replySource flow pkt = some reply) :
    (egressFrame csumDiff flow f).2 = f.natEgress csumDiff pkt.body reply layout := by
  simp only [egressFrame, parsed, found]

/-- Full NAT changes the end of a packet that it is for, and every valid checksum is valid again. -/
theorem nat_keeps_checksums {csumDiff : List UInt8 → List UInt8 → Int} (helper : CsumDiff csumDiff) {f : Frame}
    {pkt : Packet} {layout : Layout} (parsed : f.parse = some (pkt, layout)) :
    (∀ m ctx d, (ingress m ctx pkt).1 = .forward d → d.mode = .nat →
      layout.Translated pkt.body.isTcp f (ingressFrame csumDiff m ctx f).2.2
        (layout.ingressFields (layout.addrBytes d.backend.addr) (layout.backendPort m f d))) ∧
    ∀ flow reply, replySource flow pkt = some reply →
      layout.Translated pkt.body.isTcp f (egressFrame csumDiff flow f).2
        (layout.egressFields (layout.addrBytes reply.saddr) (portBytes (reply.sport.getD 0))) := by
  have known := Frame.parse_of parsed
  constructor
  · intro m ctx d forwarded nat
    rw [ingressFrame_eq parsed forwarded nat]
    exact natIngress_translated helper known forwarded nat
  · intro flow reply found
    rw [egressFrame_eq parsed found]
    exact natEgress_translated helper known found

/-- A helper that answers the difference of the two sums itself. -/
def exactDiff (old new : List UInt8) : Int := ((hostSum new : Int) - hostSum old) % 65535

theorem exactDiff_helper : CsumDiff exactDiff where
  range := by
    intro old new _ _
    unfold exactDiff
    omega
  sum := by
    intro old new _ _
    have congruent : exactDiff old new ≡ (hostSum new : Int) - hostSum old [ZMOD 65535] := Int.mod_modEq _ _
    rw [(ZMod.intCast_eq_intCast_iff _ _ 65535).mpr congruent]
    push_cast
    rfl

/-- Maps with a TCP VIP 10.0.0.1:80 and a UDP VIP 10.0.0.1:53, both with the backend 192.168.1.10:8080. -/
def natMaps : Maps :=
  { Maps.empty .zero ⟨0, Vector.replicate 16 0⟩ FMap.empty with
    vip := FMap.ofList [(⟨.v4 0x0100000a, htons 80, 6⟩, 0), (⟨.v4 0x0100000a, htons 53, 17⟩, 1)]
    serviceConfig := fun _ => ⟨1, 0, 1031, .nat, .none, false⟩
    backend := FMap.ofList [(⟨true, 0⟩, ⟨.v4 0x0a01a8c0, htons 8080, .zero⟩)]
    backendHealth := fun _ => .healthy }

/-- What the ingress program makes of a packet to one of them. -/
def natDelivery (serviceID : Nat) : Delivery :=
  ⟨0, serviceID, ⟨.v4 0x0a01a8c0, htons 8080, .zero⟩, .nat, .v4 0x0a01a8c0, some (htons 8080), none⟩

/-- A place where nothing is in the way. -/
def natContext : Context := ⟨1, 0, 0, true, true, .found⟩

/-- A TCP segment from 203.0.113.5:40000 to 10.0.0.1:80. -/
def tcpRequest : Frame :=
  [2, 0, 0, 0, 0, 1, 2, 0, 0, 0, 0, 2, 8, 0,
    69, 0, 0, 40, 0, 1, 64, 0, 64, 6, 244, 200, 203, 0, 113, 5, 10, 0, 0, 1,
    156, 64, 0, 80, 0, 0, 0, 1, 0, 0, 0, 0, 80, 16, 4, 0, 201, 60, 0, 0]

/-- The segment as the program sees it. -/
def tcpPacket : Packet :=
  ⟨.v4 0x057100cb 0x0100000a, .segment ⟨.tcp false, htons 40000, htons 80⟩ none, 54, 14, true⟩

/-- The header and the segment are valid before and after the translation. -/
theorem tcp_request_stays_valid :
    (Valid (tcpRequest.header4 14) ∧ Valid (tcpRequest.transport4 6 14 34 54 [])) ∧
      Valid (Frame.header4 14 (ingressFrame exactDiff natMaps natContext tcpRequest).2.2) ∧
      Valid (Frame.transport4 6 14 34 54 [] (ingressFrame exactDiff natMaps natContext tcpRequest).2.2) := by
  have before : Valid (tcpRequest.header4 14) ∧ Valid (tcpRequest.transport4 6 14 34 54 []) := by decide +kernel
  have translated := (nat_keeps_checksums exactDiff_helper
    (show tcpRequest.parse = some (tcpPacket, .segment4 14 34) by decide +kernel)).1 natMaps natContext (natDelivery 0)
    (by decide +kernel) rfl
  have valid := translated.valid 54 [] ⟨by decide, by decide⟩
  exact ⟨before, valid (Frame.header4 14) (by simp [Layout.texts]) before.1,
    valid (Frame.transport4 6 14 34 54 []) (by simp [Layout.texts, tcpPacket, Body.isTcp]) before.2⟩

namespace Layout

/-- The text under the checksum of a UDP datagram. -/
def udpText (stop : Nat) (tail : List UInt8) : Layout → Frame → List UInt8
  | .segment4 l3 l4 => Frame.transport4 17 l3 l4 stop tail
  | .segment6 l3 l4 => Frame.transport6 17 l3 l4 stop tail
  | _ => fun _ => []

/-- The place of the checksum of a UDP datagram. -/
def udpCheck : Layout → Nat
  | .segment4 _ l4 | .segment6 _ l4 => l4 + 6
  | _ => 0

/-- A datagram carries a checksum, and it is valid. -/
structure Protected (layout : Layout) (f : Frame) (stop : Nat) (tail : List UInt8) : Prop where
  valid : Valid (layout.udpText stop tail f)
  nonzero : f.load16 layout.udpCheck ≠ 0

/-- The update of a datagram's checksum for its new address and port lands on zero. -/
def LandsOnZero (csumDiff : List UInt8 → List UInt8 → Int) (layout : Layout) (f : Frame) :
    List (Nat × List UInt8) → Prop
  | [(addrAt, addr), (portAt, port)] => f.LandsOnZero csumDiff layout.udpCheck addrAt portAt addr port
  | _ => False

end Layout

section Datagrams

variable {csumDiff : List UInt8 → List UInt8 → Int} {f : Frame} {l3 l4 addrAt portAt stop : Nat}
  {addr port tail : List UInt8}

theorem Frame.Segment4.udp_valid (segment : Segment4 f l3 l4 addrAt portAt false addr port)
    (helper : CsumDiff csumDiff) (holds : Layout.Holds false f stop (.segment4 l3 l4))
    (before : Layout.Protected (.segment4 l3 l4) f stop tail) :
    Valid (Layout.udpText stop tail (.segment4 l3 l4)
      (f.rewriteSegment4 csumDiff l3 l4 addrAt portAt false addr port)) := by
  have := segment.header
  have inside : l4 + 8 ≤ f.length := segment.inside
  exact transport4_valid (by decide) (by omega) (segment.rewritten csumDiff).confined.length
    (segment.text_sum helper (.inr before.nonzero) tail holds.1 holds.2) before.valid

theorem Frame.Segment6.udp_valid (segment : Segment6 f l3 l4 addrAt portAt false addr port)
    (helper : CsumDiff csumDiff) (holds : Layout.Holds false f stop (.segment6 l3 l4))
    (before : Layout.Protected (.segment6 l3 l4) f stop tail) :
    Valid (Layout.udpText stop tail (.segment6 l3 l4)
      (f.rewriteSegment6 csumDiff l4 addrAt portAt false addr port)) := by
  have := segment.header
  have inside : l4 + 8 ≤ f.length := segment.inside
  exact transport6_valid (by decide) (by omega) (segment.rewritten csumDiff).confined.length
    (segment.text_sum helper tail holds.1 holds.2) before.valid

variable {pkt : Packet} {layout : Layout} (helper : CsumDiff csumDiff) (known : layout.Of f pkt)
  (udp : pkt.body.isTcp = false) (holds : layout.Holds false f stop) (before : layout.Protected f stop tail)

include helper known udp holds before

/-- A datagram sums up right behind the ingress program. -/
theorem natIngress_udp_valid (m : Maps) (d : Delivery) :
    Valid (layout.udpText stop tail (f.natIngress csumDiff m pkt.body d layout)) := by
  cases layout with
  | segment4 l3 l4 =>
    have segment := known.segment4 (.inr rfl) (.inr rfl) d.backend.addr.length_bytes4
      (length_portBytes (d.dport.getD 0))
    rw [udp] at segment
    rw [Frame.natIngress, udp]
    exact segment.udp_valid helper holds before
  | segment6 l3 l4 =>
    have segment := known.segment6 (.inr rfl) (.inr rfl) d.backend.addr.length_bytes6
      (length_portBytes (d.dport.getD 0))
    rw [udp] at segment
    rw [Frame.natIngress, udp]
    exact segment.udp_valid helper holds before
  | _ => exact absurd before.valid (show ¬ Valid [] by decide)

/-- So it does behind the egress program. -/
theorem natEgress_udp_valid (reply : Reply) :
    Valid (layout.udpText stop tail (f.natEgress csumDiff pkt.body reply layout)) := by
  cases layout with
  | segment4 l3 l4 =>
    have segment := known.segment4 (.inl rfl) (.inl rfl) reply.saddr.length_bytes4
      (length_portBytes (reply.sport.getD 0))
    rw [udp] at segment
    rw [Frame.natEgress, udp]
    exact segment.udp_valid helper holds before
  | segment6 l3 l4 =>
    have segment := known.segment6 (.inl rfl) (.inl rfl) reply.saddr.length_bytes6
      (length_portBytes (reply.sport.getD 0))
    rw [udp] at segment
    rw [Frame.natEgress, udp]
    exact segment.udp_valid helper holds before
  | _ => exact absurd before.valid (show ¬ Valid [] by decide)

/-- The ingress program stores a zero exactly where the update for the backend's end lands on it. -/
theorem natIngress_udp_zero_iff (forwarded : (ingress m ctx pkt).1 = .forward d) (nat : d.mode = .nat) :
    (f.natIngress csumDiff m pkt.body d layout).load16 layout.udpCheck = 0 ↔
      layout.LandsOnZero csumDiff f
        (layout.ingressFields (layout.addrBytes d.backend.addr) (layout.backendPort m f d)) := by
  cases layout with
  | segment4 l3 l4 =>
    have segment := known.segment4 (.inr rfl) (.inr rfl) d.backend.addr.length_bytes4
      (length_portBytes (d.dport.getD 0))
    rw [udp] at segment
    rw [← known.port4 forwarded nat, Frame.natIngress, udp]
    exact segment.load16_zero_iff helper before.nonzero
  | segment6 l3 l4 =>
    have segment := known.segment6 (.inr rfl) (.inr rfl) d.backend.addr.length_bytes6
      (length_portBytes (d.dport.getD 0))
    rw [udp] at segment
    rw [← known.port6 forwarded nat, Frame.natIngress, udp]
    exact segment.apart.load16_zero_iff helper
  | _ => exact absurd before.valid (show ¬ Valid [] by decide)

/-- The egress program stores a zero exactly where the update for the VIP's end lands on it. -/
theorem natEgress_udp_zero_iff (reply : Reply) :
    (f.natEgress csumDiff pkt.body reply layout).load16 layout.udpCheck = 0 ↔
      layout.LandsOnZero csumDiff f
        (layout.egressFields (layout.addrBytes reply.saddr) (portBytes (reply.sport.getD 0))) := by
  cases layout with
  | segment4 l3 l4 =>
    have segment := known.segment4 (.inl rfl) (.inl rfl) reply.saddr.length_bytes4
      (length_portBytes (reply.sport.getD 0))
    rw [udp] at segment
    rw [Frame.natEgress, udp]
    exact segment.load16_zero_iff helper before.nonzero
  | segment6 l3 l4 =>
    have segment := known.segment6 (.inl rfl) (.inl rfl) reply.saddr.length_bytes6
      (length_portBytes (reply.sport.getD 0))
    rw [udp] at segment
    rw [Frame.natEgress, udp]
    exact segment.apart.load16_zero_iff helper
  | _ => exact absurd before.valid (show ¬ Valid [] by decide)

end Datagrams

/-- A protected datagram stays protected through full NAT exactly where its new checksum does not land on zero. -/
theorem udp_stays_protected {csumDiff : List UInt8 → List UInt8 → Int} (helper : CsumDiff csumDiff) {f : Frame}
    {pkt : Packet} {layout : Layout} (parsed : f.parse = some (pkt, layout)) (udp : pkt.body.isTcp = false)
    {stop : Nat} {tail : List UInt8} (holds : layout.Holds false f stop) (before : layout.Protected f stop tail) :
    (∀ m ctx d, (ingress m ctx pkt).1 = .forward d → d.mode = .nat →
      (layout.Protected (ingressFrame csumDiff m ctx f).2.2 stop tail ↔
        ¬ layout.LandsOnZero csumDiff f
          (layout.ingressFields (layout.addrBytes d.backend.addr) (layout.backendPort m f d)))) ∧
    ∀ flow reply, replySource flow pkt = some reply →
      (layout.Protected (egressFrame csumDiff flow f).2 stop tail ↔
        ¬ layout.LandsOnZero csumDiff f
          (layout.egressFields (layout.addrBytes reply.saddr) (portBytes (reply.sport.getD 0)))) := by
  have known := Frame.parse_of parsed
  -- The datagram is valid in any case, so that a stored zero alone decides.
  constructor
  · intro m ctx d forwarded nat
    rw [ingressFrame_eq parsed forwarded nat, ← natIngress_udp_zero_iff helper known udp holds before forwarded nat]
    exact ⟨Layout.Protected.nonzero, fun nonzero => ⟨natIngress_udp_valid helper known udp holds before m d, nonzero⟩⟩
  · intro flow reply found
    rw [egressFrame_eq parsed found, ← natEgress_udp_zero_iff helper known udp holds before reply]
    exact ⟨Layout.Protected.nonzero, fun nonzero => ⟨natEgress_udp_valid helper known udp holds before reply, nonzero⟩⟩

/-- A UDP datagram of two bytes from 203.0.113.5:40000 to 10.0.0.1:53. -/
def udpRequest (check₀ check₁ data₀ data₁ : UInt8) : Frame :=
  [2, 0, 0, 0, 0, 1, 2, 0, 0, 0, 0, 2, 8, 0,
    69, 0, 0, 30, 0, 1, 64, 0, 64, 17, 244, 199, 203, 0, 113, 5, 10, 0, 0, 1,
    156, 64, 0, 53, 0, 10, check₀, check₁, data₀, data₁]

/-- The datagram as the program sees it. -/
def udpPacket : Packet :=
  ⟨.v4 0x057100cb 0x0100000a, .segment ⟨.udp, htons 40000, htons 53⟩ none, 44, 14, true⟩

/-- A datagram whose new checksum is not zero stays protected. -/
theorem udp_request_stays_protected :
    Layout.Protected (.segment4 14 34) (ingressFrame exactDiff natMaps natContext (udpRequest 28 92 1 2)).2.2 44 [] :=
  ((udp_stays_protected exactDiff_helper
    (show (udpRequest 28 92 1 2).parse = some (udpPacket, .segment4 14 34) by decide +kernel) rfl
    ⟨by decide, by decide⟩ ⟨by decide +kernel, by decide +kernel⟩).1 natMaps natContext (natDelivery 1)
    (by decide +kernel) rfl).mpr fun lands => absurd lands.cancels (by decide +kernel)

/--
A protected datagram leaves the ingress program with a checksum of zero, whatever the helper answers.

Its checksum is computed to be zero, and is stored so instead of as all ones.
-/
theorem udp_request_loses_protection :
    Layout.Protected (.segment4 14 34) (udpRequest 215 12 70 81) 44 [] ∧
      ∀ csumDiff, CsumDiff csumDiff →
        (ingressFrame csumDiff natMaps natContext (udpRequest 215 12 70 81)).1 = .forward (natDelivery 1) ∧
          Frame.load16 (ingressFrame csumDiff natMaps natContext (udpRequest 215 12 70 81)).2.2 40 = 0 := by
  refine ⟨⟨by decide +kernel, by decide +kernel⟩, fun csumDiff helper => ?_⟩
  have parsed : (udpRequest 215 12 70 81).parse = some (udpPacket, .segment4 14 34) := by decide +kernel
  have forwarded : (ingress natMaps natContext udpPacket).1 = .forward (natDelivery 1) := by decide +kernel
  refine ⟨by simp only [ingressFrame, parsed, forwarded], ?_⟩
  have segment := (Frame.parse_of parsed).segment4 (.inr rfl) (.inr rfl) (natDelivery 1).backend.addr.length_bytes4
    (length_portBytes ((natDelivery 1).dport.getD 0))
  rw [ingressFrame_eq parsed forwarded rfl]
  exact (segment.load16_zero_iff helper (by decide +kernel)).mpr
    ⟨by decide +kernel, fun still => absurd still.2.2.2 (by decide +kernel)⟩

end Rivora

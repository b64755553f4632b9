import Rivora.Bpf.ParseLaws
import Rivora.Properties.NatChecksums
import Rivora.Properties.NatReply

/-! A request through full NAT and the reply to it, byte by byte. -/

namespace Rivora

variable {firstOf : Option UInt32} {l4 : L4}

open Splice InternetChecksum

theorem Addr.length_bytes (addr : Addr) : addr.bytes.length = if addr.isV4 then 4 else 16 := by
  cases addr <;> simp [Addr.bytes, Addr.isV4]

theorem Addr.eq_of_bytes {a b : Addr} (same : a.bytes = b.bytes) : a = b := by
  refine Addr.bytes_inj ?_ same
  have lengths := congrArg List.length same
  rw [a.length_bytes, b.length_bytes] at lengths
  cases first : a.isV4 <;> cases second : b.isV4 <;> simp_all

theorem portBytes_inj {a b : UInt16} (same : portBytes a = portBytes b) : a = b := by
  have values := congrArg hostSum same
  rw [hostSum_portBytes, hostSum_portBytes] at values
  exact UInt16.toNat_inj.mp values

namespace Layout

/-- The family of a packet. -/
def isV4 : Layout → Bool
  | .segment4 _ _ | .laterFragment4 _ | .icmp4 _ => true
  | .segment6 _ _ | .laterFragment6 _ | .icmp6 _ => false

/-- The source address of a packet, as it lies in the frame. -/
def saddr (f : Frame) : Layout → List UInt8
  | .segment4 l3 _ | .laterFragment4 l3 | .icmp4 l3 => slice f (l3 + 12) 4
  | .segment6 l3 _ | .laterFragment6 l3 | .icmp6 l3 => slice f (l3 + 8) 16

/-- The destination address. -/
def daddr (f : Frame) : Layout → List UInt8
  | .segment4 l3 _ | .laterFragment4 l3 | .icmp4 l3 => slice f (l3 + 16) 4
  | .segment6 l3 _ | .laterFragment6 l3 | .icmp6 l3 => slice f (l3 + 24) 16

/-- The source port. -/
def sport (f : Frame) : Layout → List UInt8
  | .segment4 _ l4 | .segment6 _ l4 => slice f l4 2
  | _ => []

/-- The destination port. -/
def dport (f : Frame) : Layout → List UInt8
  | .segment4 _ l4 | .segment6 _ l4 => slice f (l4 + 2) 2
  | _ => []

section Reading

variable {f : Frame} {pkt : Packet} {layout : Layout}

theorem Of.ends (known : layout.Of f pkt) : pkt.ends.isV4 = layout.isV4 ∧
    pkt.ends.saddr.bytes = layout.saddr f ∧ pkt.ends.daddr.bytes = layout.daddr f := by
  have v4 : ∀ l3, l3 + 20 ≤ f.length → pkt.ends = f.ends4 l3 → pkt.ends.isV4 = true ∧
      pkt.ends.saddr.bytes = slice f (l3 + 12) 4 ∧ pkt.ends.daddr.bytes = slice f (l3 + 16) 4 := by
    intro l3 inside ends
    rw [ends]
    exact ⟨rfl, Frame.bytes_load32 (by omega), Frame.bytes_load32 (by omega)⟩
  have v6 : ∀ l3, l3 + 40 ≤ f.length → pkt.ends = f.ends6 l3 → pkt.ends.isV4 = false ∧
      pkt.ends.saddr.bytes = slice f (l3 + 8) 16 ∧ pkt.ends.daddr.bytes = slice f (l3 + 24) 16 := by
    intro l3 inside ends
    rw [ends]
    exact ⟨rfl, Frame.bytes_load128 (by omega), Frame.bytes_load128 (by omega)⟩
  cases layout with
  | segment4 l3 l4 =>
    obtain ⟨ends, words, rfl, _, _, -, -, inside⟩ := known
    exact v4 l3 (by omega) ends
  | segment6 l3 l4 =>
    obtain ⟨ends, behind, _, _, -, -, inside⟩ := known
    exact v6 l3 (by omega) ends
  | laterFragment4 l3 =>
    obtain ⟨ends, -, inside, -⟩ := known
    exact v4 l3 inside ends
  | laterFragment6 l3 =>
    obtain ⟨ends, inside, -⟩ := known
    exact v6 l3 inside ends
  | icmp4 l3 =>
    obtain ⟨ends, -, -, inside, -⟩ := known
    exact v4 l3 (by omega) ends
  | icmp6 l3 =>
    obtain ⟨ends, inside, -⟩ := known
    exact v6 l3 (by omega) ends

theorem addrBytes_eq {addr : Addr} (family : addr.isV4 = layout.isV4) : layout.addrBytes addr = addr.bytes := by
  cases addr <;> cases layout <;> first | rfl | cases family

theorem ports_of_parse (parsed : f.parse = some (pkt, layout)) {header : L4}
    (body : pkt.body = .segment header firstOf) :
    portBytes header.sport = layout.sport f ∧ portBytes header.dport = layout.dport f := by
  have known := Frame.parse_of parsed
  have inside : ∀ {l4 : Nat}, l4 + header.size ≤ f.length → l4 + 4 ≤ f.length := by
    intro l4 size
    have : 4 ≤ header.size := by
      obtain ⟨transport, _, _⟩ := header
      cases transport <;> simp [L4.size]
    omega
  cases layout with
  | segment4 l3 l4 =>
    obtain ⟨header', transport, body'⟩ := (Frame.segment4At_of_parse parsed).segment
    obtain ⟨rfl, -⟩ := Body.segment.inj (body.symm.trans body')
    obtain ⟨dport, size⟩ := Frame.l4Header_inside transport
    have := inside size
    rw [(Frame.l4Header_proto transport).2, dport]
    exact ⟨Frame.portBytes_load16 (by omega), Frame.portBytes_load16 (by omega)⟩
  | segment6 l3 l4 =>
    obtain ⟨_, _, header', -, -, -, -, transport, body'⟩ := (Frame.segment6At_of_parse parsed).segment
    obtain ⟨rfl, -⟩ := Body.segment.inj (body.symm.trans body')
    obtain ⟨dport, size⟩ := Frame.l4Header_inside transport
    have := inside size
    rw [(Frame.l4Header_proto transport).2, dport]
    exact ⟨Frame.portBytes_load16 (by omega), Frame.portBytes_load16 (by omega)⟩
  | laterFragment4 l3 =>
    obtain ⟨-, -, -, _, _, other⟩ := known
    cases body.symm.trans other
  | laterFragment6 l3 =>
    obtain ⟨-, -, _, _, other⟩ := known
    cases body.symm.trans other
  | icmp4 l3 =>
    obtain ⟨-, -, -, -, -, _, other⟩ := known
    cases body.symm.trans other
  | icmp6 l3 =>
    obtain ⟨-, -, _, other⟩ := known
    cases body.symm.trans other

theorem Of.segment (known : layout.Of f pkt) (ports : layout.sport f ≠ []) :
    ∃ header firstOf, pkt.body = .segment header firstOf := by
  cases layout with
  | segment4 l3 l4 =>
    obtain ⟨-, -, -, header, firstOf, body, -⟩ := known
    exact ⟨header, firstOf, body⟩
  | segment6 l3 l4 =>
    obtain ⟨-, -, header, firstOf, body, -⟩ := known
    exact ⟨header, firstOf, body⟩
  | _ => exact absurd rfl ports

end Reading

/-- A reply comes from where a request was rewritten to, and goes to where the request came from. -/
structure Returns (layout : Layout) (f f' : Frame) (layout' : Layout) (g : Frame) : Prop where
  source : layout'.saddr g = layout.daddr f'
  sport : layout'.sport g = layout.dport f'
  destination : layout'.daddr g = layout.saddr f
  dport : layout'.dport g = layout.sport f

end Layout

theorem translated_ends {m : Maps} {ctx : Context} {pkt : Packet}
    {d : Delivery} (body : pkt.body = .segment l4 firstOf) (delivered : (ingress m ctx pkt).1 = .forward d)
    (nat : d.mode = .nat) :
    d.daddr = d.backend.addr ∧ m.backend.get? ⟨pkt.ends.isV4, d.backendID⟩ = some d.backend := by
  have handled : ingress m ctx pkt = handleSegment m ctx pkt l4 firstOf := by
    unfold ingress
    rw [body]
  rw [handled] at delivered
  have ended := handleSegment_ends m ctx pkt l4 firstOf
  generalize handleSegment m ctx pkt l4 firstOf = outcome at ended delivered
  cases ended with
  | delivered _ _ _ _ entry handed =>
    cases handed with
    | translated =>
      cases delivered
      exact ⟨rfl, entry⟩
    | direct mode sent => exact absurd ((sent.mode delivered).symm.trans nat) mode
  | _ => cases delivered

/-- Every backend stands in the map of its family. -/
def Maps.BackendFamilies (m : Maps) : Prop :=
  ∀ key info, m.backend.get? key = some info → info.addr.isV4 = key.isV4

section Trip

variable {csumDiff : List UInt8 → List UInt8 → Int} {m : Maps} {ctx : Context} {f : Frame} {pkt : Packet}
  {layout : Layout} {d : Delivery}

theorem backendPort_bytes (parsed : f.parse = some (pkt, layout))
    (body : pkt.body = .segment l4 firstOf) :
    layout.backendPort m f d = portBytes (backendPort (m.serviceConfig d.serviceID) l4 d.backend) := by
  have dport := (Layout.ports_of_parse parsed body).2
  have place : layout.dport f = slice f layout.portAt 2 := by
    cases layout with
    | segment4 l3 l4 => rfl
    | segment6 l3 l4 => rfl
    | _ => cases (congrArg List.length dport).symm
  unfold Layout.backendPort backendPort
  split
  · rw [dport, place]
  · rfl

theorem answers_of_returns (helper : CsumDiff csumDiff) (families : m.BackendFamilies)
    (parsed : f.parse = some (pkt, layout))
    (body : pkt.body = .segment l4 firstOf) (delivered : (ingress m ctx pkt).1 = .forward d) (nat : d.mode = .nat)
    {g : Frame} {pkt' : Packet} {layout' : Layout} (parsed' : g.parse = some (pkt', layout'))
    (returns : layout.Returns f (f.natIngress csumDiff m pkt.body d layout) layout' g)
    (protocol : pkt'.body.isTcp = pkt.body.isTcp) :
    ∃ l4' firstOf', Answers pkt l4 d pkt' l4' firstOf' := by
  have known := Frame.parse_of parsed
  have known' := Frame.parse_of parsed'
  obtain ⟨daddr, entry⟩ := translated_ends body delivered nat
  have family : d.backend.addr.isV4 = layout.isV4 := (families _ _ entry).trans known.ends.1
  -- What the request was rewritten to.
  have fields := (natIngress_translated helper known delivered nat).rewritten.fields
  have sent : layout.daddr (f.natIngress csumDiff m pkt.body d layout) = d.backend.addr.bytes ∧
      layout.dport (f.natIngress csumDiff m pkt.body d layout) =
        portBytes (backendPort (m.serviceConfig d.serviceID) l4 d.backend) := by
    rw [← backendPort_bytes parsed body, ← Layout.addrBytes_eq family]
    have size : (layout.backendPort m f d).length = 2 := by
      rw [backendPort_bytes parsed body]
      rfl
    cases layout with
    | segment4 l3 l4 =>
      have addr := fields _ (.head _)
      have port := fields _ (.tail _ (.head _))
      have width : (Layout.addrBytes d.backend.addr (.segment4 l3 l4)).length = _ := d.backend.addr.length_bytes4
      rw [width] at addr
      rw [size] at port
      exact ⟨addr, port⟩
    | segment6 l3 l4 =>
      have addr := fields _ (.head _)
      have port := fields _ (.tail _ (.head _))
      have width : (Layout.addrBytes d.backend.addr (.segment6 l3 l4)).length = _ := d.backend.addr.length_bytes6
      rw [width] at addr
      rw [size] at port
      exact ⟨addr, port⟩
    | _ => cases (congrArg List.length (Layout.ports_of_parse parsed body).1).symm
  obtain ⟨l4', firstOf', body'⟩ := known'.segment (by
    rw [returns.sport, sent.2]
    exact List.cons_ne_nil _ _)
  obtain ⟨sport', dport'⟩ := Layout.ports_of_parse parsed' body'
  refine ⟨l4', firstOf', body', ?_, ?_, ?_, ?_, ?_⟩
  · rw [daddr]
    exact Addr.eq_of_bytes (by rw [known'.ends.2.1, returns.source, sent.1])
  · exact Addr.eq_of_bytes (by rw [known'.ends.2.2, returns.destination, known.ends.2.1])
  · rw [(ingress_ends m ctx pkt).port delivered nat body]
    exact congrArg some (portBytes_inj (by rw [sport', returns.sport, sent.2]))
  · exact portBytes_inj (by rw [dport', returns.dport, (Layout.ports_of_parse parsed body).1])
  · rw [body, body'] at protocol
    obtain ⟨transport, _, _⟩ := l4
    obtain ⟨transport', _, _⟩ := l4'
    cases transport <;> cases transport' <;> first | rfl | cases protocol

/-- The egress program has no entry for a packet. -/
def Unrecorded (flow : Flow) (pkt : Packet) : Prop :=
  match pkt.body with
  | .segment l4 _ => flow.natReverse.get? (replyKey pkt l4) = none
  | .laterFragment id proto => flow.fragRev.get? ⟨pkt.ends.saddr, pkt.ends.daddr, id, proto⟩ = none
  | .icmpError _ _ | .other => True

theorem egressFrame_of_unrecorded {flow : Flow} {g : Frame}
    (unrecorded : ∀ pkt layout, g.parse = some (pkt, layout) → Unrecorded flow pkt) :
    (egressFrame csumDiff flow g).2 = g := by
  unfold egressFrame
  cases parsed : g.parse with
  | none => rfl
  | some found =>
    obtain ⟨pkt, layout⟩ := found
    have none : replySource flow pkt = none := by
      have absent := unrecorded pkt layout parsed
      unfold Unrecorded at absent
      unfold replySource
      cases body : pkt.body with
      | other => rfl
      | icmpError quoted l4 => rfl
      | laterFragment id proto =>
        rw [body] at absent
        simp only [absent, Option.map_none]
      | segment l4 firstOf =>
        rw [body] at absent
        dsimp only [replyKey] at absent
        simp only [absent, Option.map_none]
    simp only [none]

/--
A reply to a request that was translated leaves with the address and the port the client used as its source.

Nothing else of it changes but its checksums, which are valid again if they were. A packet of no recorded
flow is not changed.
-/
theorem replies_come_back (helper : CsumDiff csumDiff) (families : m.BackendFamilies)
    (parsed : f.parse = some (pkt, layout)) {l4 : L4} {firstOf : Option UInt32}
    (body : pkt.body = .segment l4 firstOf) (rewritten : (ingressFrame csumDiff m ctx f).1 = .forward d)
    (nat : d.mode = .nat) {g : Frame} {pkt' : Packet} {layout' : Layout} (parsed' : g.parse = some (pkt', layout'))
    (returns : layout.Returns f (ingressFrame csumDiff m ctx f).2.2 layout' g)
    (protocol : pkt'.body.isTcp = pkt.body.isTcp) :
    let g' := (egressFrame csumDiff (ingressFrame csumDiff m ctx f).2.1 g).2
    layout'.Translated pkt'.body.isTcp g g' (layout'.egressFields (layout.daddr f) (layout.dport f)) ∧
      (pkt'.body.isTcp = false → ∀ stop tail, layout'.Holds false g stop → layout'.Protected g stop tail →
        Valid (layout'.udpText stop tail g')) ∧
      ∀ flow h, (∀ pkt layout, Frame.parse h = some (pkt, layout) → Unrecorded flow pkt) →
        (egressFrame csumDiff flow h).2 = h := by
  intro g'
  have delivered : (ingress m ctx pkt).1 = .forward d := by
    simpa only [ingressFrame, parsed] using rewritten
  have flow : (ingressFrame csumDiff m ctx f).2.1 = (ingress m ctx pkt).2 := by
    simp only [ingressFrame, parsed]
  rw [ingressFrame_eq parsed delivered nat] at returns
  obtain ⟨l4', firstOf', answers⟩ :=
    answers_of_returns helper families parsed body delivered nat parsed' returns protocol
  -- The request left the entry that the reply is found under.
  have entry : (ingress m ctx pkt).2.natReverse.get? (replyKey pkt' l4') = some ⟨pkt.ends.daddr, l4.dport⟩ :=
    reverse_of_delivered body delivered nat answers
  have found : replySource (ingressFrame csumDiff m ctx f).2.1 pkt' = some ⟨pkt.ends.daddr, some l4.dport⟩ := by
    unfold replyKey at entry
    unfold replySource
    simp only [answers.body, flow, entry, Option.map_some]
  have known := Frame.parse_of parsed
  have known' := Frame.parse_of parsed'
  have family : pkt.ends.daddr.isV4 = layout'.isV4 := by
    have same : pkt'.ends.daddr.isV4 = pkt.ends.saddr.isV4 := by rw [answers.destination]
    rw [← known'.ends.1]
    cases ends : pkt.ends <;> cases ends' : pkt'.ends <;>
      first | rfl | (rw [ends, ends'] at same; cases same)
  have left : g' = g.natEgress csumDiff pkt'.body ⟨pkt.ends.daddr, some l4.dport⟩ layout' :=
    egressFrame_eq parsed' found
  refine ⟨?_, ?_, fun flow h unrecorded => egressFrame_of_unrecorded unrecorded⟩
  · rw [left, ← known.ends.2.2, ← (Layout.ports_of_parse parsed body).2, ← Layout.addrBytes_eq family]
    exact natEgress_translated helper known' found
  · intro udp stop tail holds before
    rw [left]
    exact natEgress_udp_valid helper known' udp holds before _

end Trip

/-- The answer to the sample request, from 192.168.1.10:8080 to 203.0.113.5:40000. -/
def tcpAnswer : Frame :=
  [2, 0, 0, 0, 0, 2, 2, 0, 0, 0, 0, 1, 8, 0,
    69, 0, 0, 40, 0, 2, 64, 0, 64, 6, 60, 22, 192, 168, 1, 10, 203, 0, 113, 5,
    31, 144, 156, 64, 0, 0, 0, 9, 0, 0, 0, 2, 80, 16, 4, 0, 0, 0, 0, 0]

/-- The answer as the egress program sees it. -/
def tcpAnswerSeen : Packet :=
  ⟨.v4 0x0a01a8c0 0x057100cb, .segment ⟨.tcp false, htons 8080, htons 40000⟩ none, 54, 14, true⟩

theorem natMaps_families : natMaps.BackendFamilies := by
  intro key info found
  cases List.mem_singleton.mp (FMap.mem_of_get?_ofList found)
  rfl

/-- The answer to the sample request leaves from 10.0.0.1:80. -/
theorem tcp_answer_comes_back :
    Layout.saddr (egressFrame exactDiff (ingressFrame exactDiff natMaps natContext tcpRequest).2.1 tcpAnswer).2
        (.segment4 14 34) = [10, 0, 0, 1] ∧
      Layout.sport (egressFrame exactDiff (ingressFrame exactDiff natMaps natContext tcpRequest).2.1 tcpAnswer).2
        (.segment4 14 34) = [0, 80] := by
  have parsed : tcpRequest.parse = some (tcpPacket, .segment4 14 34) := by decide +kernel
  have parsed' : tcpAnswer.parse = some (tcpAnswerSeen, .segment4 14 34) := by decide +kernel
  have returns : Layout.Returns (.segment4 14 34) tcpRequest
      (ingressFrame exactDiff natMaps natContext tcpRequest).2.2 (.segment4 14 34) tcpAnswer :=
    ⟨by decide +kernel, by decide +kernel, by decide +kernel, by decide +kernel⟩
  obtain ⟨translated, -, -⟩ := replies_come_back exactDiff_helper natMaps_families parsed rfl
    (show (ingressFrame exactDiff natMaps natContext tcpRequest).1 = .forward (natDelivery 0) by decide +kernel) rfl
    parsed' returns rfl
  have fields := translated.rewritten.fields
  exact ⟨fields _ (.head _), fields _ (.tail _ (.head _))⟩

end Rivora

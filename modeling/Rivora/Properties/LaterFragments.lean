import Rivora.Bpf.ParseLaws
import Rivora.Properties.ErrorAnswers
import Rivora.Properties.HeaderChains
import Rivora.Proofs.Fragments

/-! Later fragments of an IPv6 datagram. -/

namespace Rivora

namespace Frame

/-- From a next header at an offset, options headers lead to the Fragment header at another offset. -/
inductive Chain (f : Frame) (l3 : Nat) : UInt8 → Nat → Nat → Prop
  | here {off : Nat} : Chain f l3 44 off off
  | options {nh : UInt8} {off u : Nat} (skipped : isOptions nh = true)
    (rest : Chain f l3 (f.byte (l3 + 40 + off)) (off + ((f.byte (l3 + 40 + off + 1)).toNat + 1) * 8) u) :
    Chain f l3 nh off u

/-- A frame is a later fragment of the datagram whose first fragment is another frame. -/
structure Continues (f : Frame) (l3 u : Nat) (g : Frame) (l3' : Nat) : Prop where
  /-- It is an IPv6 packet behind at most two VLAN tags. -/
  ethernet : 14 ≤ g.length
  ipv6 : g.skipVlan 2 14 (g.load16 12) = some (l3', htons 0x86dd)
  /-- The headers in front of the Fragment header are those of the first fragment. -/
  ends : g.ends6 l3' = f.ends6 l3
  next : g.byte (l3' + 6) = f.byte (l3 + 6)
  headers : ∀ k < u, g.byte (l3' + 40 + k) = f.byte (l3 + 40 + k)
  /-- The Fragment header is complete and differs in the offset and the flag only. -/
  whole : l3' + 40 + u + 8 ≤ g.length
  protocol : g.byte (l3' + 40 + u) = f.byte (l3 + 40 + u)
  identification : g.load32 (l3' + 40 + u + 4) = f.load32 (l3 + 40 + u + 4)
  later : htons (g.load16 (l3' + 40 + u + 2)) &&& 0xfff8 ≠ 0

/-- What the walk knows behind the Fragment header. -/
def behindFragment (f : Frame) (l3 u : Nat) : Walk :=
  let fo := htons (f.load16 (l3 + 40 + u + 2))
  ⟨u + 8, true, fo &&& 0x0001 ≠ 0, fo &&& 0xfff8, f.load32 (l3 + 40 + u + 4)⟩

section Walking

variable {f g : Frame} {l3 l3' u : Nat}

theorem Chain.le {nh : UInt8} {off : Nat} (chain : Chain f l3 nh off u) : off ≤ u := by
  induction chain with
  | here => exact Nat.le_refl _
  | options _ _ ih => omega

theorem Chain.walk_eq {nh : UInt8} {off : Nat} (chain : Chain f l3 nh off u)
    (headers : ∀ k < u, g.byte (l3' + 40 + k) = f.byte (l3 + 40 + k)) (whole : l3' + 40 + u + 8 ≤ g.length)
    {steps : Nat} {w : Walk} {found : UInt8 × Walk} (walked : f.walk l3 steps nh w = some found)
    (start : w.off = off) (first : w.isFrag = false) (low : off ≤ 248) :
    ∃ left, f.walk l3 steps nh w = f.walk l3 left (f.byte (l3 + 40 + u)) (f.behindFragment l3 u) ∧
      g.walk l3' steps nh w = g.walk l3' left (g.byte (l3' + 40 + u)) (g.behindFragment l3' u) := by
  -- One header of the chain is one step of both walks.
  induction chain generalizing steps w with
  | @here off =>
    cases steps with
    | zero => simp [walk] at walked
    | succ steps =>
      subst start
      have small : w.off % 256 = w.off := Nat.mod_eq_of_lt (by omega)
      have fragment : isOptions 44 = false := by decide
      simp only [walk, fragment, small, first, Bool.false_eq_true, if_false, if_true] at walked ⊢
      split at walked
      · cases walked
      rename_i inside
      split at walked
      · cases walked
      rename_i near
      refine ⟨steps, ?_, ?_⟩
      · rw [if_neg inside, if_neg near]
        rfl
      · rw [if_neg (by omega), if_neg near]
        rfl
  | @options nh off u skipped rest ih =>
    cases steps with
    | zero => simp [walk, skipped] at walked
    | succ steps =>
      subst start
      have small : w.off % 256 = w.off := Nat.mod_eq_of_lt (by omega)
      have ahead := rest.le
      simp only [walk, skipped, small, if_true] at walked ⊢
      split at walked
      · cases walked
      rename_i inside
      split at walked
      · cases walked
      rename_i near
      -- The length byte of the options header is part of what both frames share.
      have length := headers (w.off + 1) (by omega)
      have next := headers w.off (by omega)
      rw [← Nat.add_assoc, ← Nat.add_assoc] at length
      rw [if_neg inside, if_neg near, length, next, if_neg (by omega), if_neg near]
      exact ih headers whole walked rfl first (by omega)

theorem Continues.found {pkt : Packet} {l4 : Nat} {header : L4} {fid : UInt32}
    (parsed : f.parse = some (pkt, .segment6 l3 l4)) (body : pkt.body = .segment header (some fid))
    (chain : Chain f l3 (f.byte (l3 + 6)) 0 u)
    (direct : isOptions (f.byte (l3 + 40 + u)) = false ∧ f.byte (l3 + 40 + u) ≠ 44)
    (continues : Continues f l3 u g l3') :
    ∃ pkt', g.parse = some (pkt', .laterFragment6 l3') ∧ pkt'.ends = pkt.ends ∧
      pkt'.body = .laterFragment fid header.transport.proto ∧ pkt'.Framed := by
  have found := segment6At_of_parse parsed
  obtain ⟨proto, w, header', walked, balanced, -, -, transport, body'⟩ := found.segment
  obtain ⟨rfl, first⟩ := Body.segment.inj (body.symm.trans body')
  -- Both walks come to the Fragment header, and neither goes on behind it.
  obtain ⟨left, forth, forth'⟩ := chain.walk_eq continues.headers continues.whole walked rfl rfl (by omega)
  have direct' : isOptions (g.byte (l3' + 40 + u)) = false ∧ g.byte (l3' + 40 + u) ≠ 44 := by
    rw [continues.protocol]
    exact direct
  rw [walk_of_direct direct] at forth
  rw [walk_of_direct direct'] at forth'
  obtain ⟨rfl, rfl⟩ := Prod.mk.inj (Option.some.inj (walked.symm.trans forth))
  have identification : fid = f.load32 (l3 + 40 + u + 4) := by
    split at first
    · exact Option.some.inj first
    · cases first
  have balanced' : g.byte (l3' + 40 + u) = 6 ∨ g.byte (l3' + 40 + u) = 17 := by
    rw [continues.protocol]
    exact balanced
  have notIcmp : g.byte (l3' + 6) ≠ 58 := by
    rw [continues.next]
    exact found.notIcmp
  have whole := continues.whole
  rw [← continues.next] at forth'
  refine ⟨_, parse_laterFragment6 continues.ethernet continues.ipv6 (by omega) notIcmp forth' balanced' rfl
    continues.later, ?_, ?_, ?_⟩
  · rw [found.ends]
    exact continues.ends
  · rw [(l4Header_proto transport).1, ← continues.protocol, identification, ← continues.identification]
    rfl
  · have place := skipVlan_place continues.ipv6
    exact ⟨place, by dsimp only; omega⟩

end Walking

end Frame

/--
Later fragments of an IPv6 datagram go to the backend of its first one, whatever their data, if the Fragment
header names the transport protocol itself.

Meanwhile no other datagram takes the key, and in a tunnel mode the fragment can be encapsulated.
-/
theorem later_fragments_follow {csumDiff : List UInt8 → List UInt8 → Int} {m : Maps} {ctx : Context} {f : Frame}
    {pkt : Packet} {l3 l4 : Nat} {header : L4} {fid : UInt32} {d : Delivery}
    (parsed : f.parse = some (pkt, .segment6 l3 l4)) (body : pkt.body = .segment header (some fid))
    (balanced : (ingressFrame csumDiff m ctx f).1 = .forward d) {u : Nat}
    (chain : Frame.Chain f l3 (f.byte (l3 + 6)) 0 u)
    (direct : Frame.isOptions (f.byte (l3 + 40 + u)) = false ∧ f.byte (l3 + 40 + u) ≠ 44) {events : List Exchange}
    (spares : ∀ event ∈ events, event.Spares pkt.ends header fid) {g : Frame} {l3' : Nat}
    (continues : Frame.Continues f l3 u g l3') :
    ∃ pkt', g.parse = some (pkt', .laterFragment6 l3') ∧ pkt'.ends = pkt.ends ∧
      pkt'.body = .laterFragment fid header.transport.proto ∧
      ∀ ctx', (d.mode.isTunnel = true → Unhindered ctx' pkt') →
        ∃ d', (ingressFrame csumDiff ((m.receive ctx pkt).exchanges events) ctx' g).1 = .forward d' ∧
          d'.backendID = d.backendID ∧ d'.backend = d.backend ∧ d'.mode = d.mode := by
  obtain ⟨pkt', parsed', ends, body', framed⟩ := continues.found parsed body chain direct
  refine ⟨pkt', parsed', ends, body', fun ctx' unhindered => ?_⟩
  have forwarded : (ingress m ctx pkt).1 = .forward d := by
    simpa only [ingressFrame, parsed] using balanced
  obtain ⟨tracked, sustains⟩ := tracked_of_forwarded body forwarded
  -- The entries of the first fragment are still there when the later one arrives.
  obtain ⟨d', sent, backend, entry, mode, -⟩ := (tracked.exchanges spares).forwards (sustains.exchanges events)
    ends body' fun tunnel => ⟨framed, unhindered tunnel⟩
  refine ⟨d', ?_, backend, entry, mode⟩
  simpa only [ingressFrame, parsed'] using sent

section Sample

/-- The sample maps with direct server return. -/
def directMaps : Maps := { steerMaps with serviceConfig := fun _ => ⟨1, 0, 1031, .dsr, .none, false⟩ }

/-- A fragment from fd00::5 to fd00::1: next header, offset and flag, data. -/
def fragment6 (next flags : UInt8) (data : List UInt8) : Frame :=
  [2, 0, 0, 0, 0, 1, 2, 0, 0, 0, 0, 2, 0x86, 0xdd, 0x60, 0, 0, 0, 0, 8 + UInt8.ofNat data.length, 44, 64] ++
    client6.toList ++ vip6.toList ++ [next, 0, 0, flags, 0, 0, 0, 7] ++ data

/-- A TCP header from port 40000 to port 80, and four bytes of data. -/
def tcpStart : List UInt8 := [156, 64, 0, 80, 0, 0, 0, 1, 0, 0, 0, 1, 0x50, 16, 0, 0, 0, 0, 0, 0, 65, 65, 65, 65]

/-- Two fragments of a segment without extension headers. -/
def plainFragments : Frame × Frame := (fragment6 6 1 tcpStart, fragment6 6 24 (List.replicate 8 65))

/-- Two with destination options before the transport header. -/
def optionsFragments : Frame × Frame :=
  (fragment6 60 1 ([6, 0, 1, 4, 0, 0, 0, 0] ++ tcpStart), fragment6 60 32 (List.replicate 8 65))

/-- The first fragment of either as the program sees it. -/
def startSeen (length : Nat) : Packet :=
  ⟨.v6 client6 vip6, .segment ⟨.tcp false, htons 40000, htons 80⟩ (some 0x07000000), length, 14, false⟩

theorem Frame.Continues.start {f g : Frame} {l3 l3' : Nat} (ethernet : 14 ≤ g.length)
    (ipv6 : g.skipVlan 2 14 (g.load16 12) = some (l3', htons 0x86dd))
    (repeated : g.ends6 l3' = f.ends6 l3 ∧ g.byte (l3' + 6) = f.byte (l3 + 6) ∧
      g.byte (l3' + 40) = f.byte (l3 + 40) ∧ g.load32 (l3' + 44) = f.load32 (l3 + 44))
    (whole : l3' + 48 ≤ g.length) (later : htons (g.load16 (l3' + 42)) &&& 0xfff8 ≠ 0) :
    Frame.Continues f l3 0 g l3' := by
  obtain ⟨ends, next, protocol, identification⟩ := repeated
  exact ⟨ethernet, ipv6, ends, next, fun k inside => absurd inside (Nat.not_lt_zero k), whole, protocol,
    identification, later⟩

/-- The second fragment of a plain segment goes where the first went. -/
theorem plain_fragment_follows :
    ∃ d', (ingressFrame (fun _ _ => 0) (directMaps.receive (narrowContext 1500) (startSeen 86))
        (narrowContext 1500) plainFragments.2).1 = .forward d' ∧ d'.backendID = 0 := by
  have parsed : plainFragments.1.parse = some (startSeen 86, .segment6 14 62) := by decide +kernel
  have balanced : (ingressFrame (fun _ _ => 0) directMaps (narrowContext 1500) plainFragments.1).1 =
      .forward ⟨0, 0, ⟨.v6 client6, htons 80, .zero⟩, .dsr, .v6 vip6, some (htons 80), none⟩ := by decide +kernel
  have chain : Frame.Chain plainFragments.1 14 (plainFragments.1.byte (14 + 6)) 0 0 := by
    have here : plainFragments.1.byte (14 + 6) = 44 := by decide +kernel
    rw [here]
    exact .here
  have continues : Frame.Continues plainFragments.1 14 0 plainFragments.2 14 :=
    .start (by decide +kernel) (by decide +kernel) (by decide +kernel) (by decide +kernel) (by decide +kernel)
  have quiet : ∀ event ∈ ([] : List Exchange),
      event.Spares (startSeen 86).ends ⟨.tcp false, htons 40000, htons 80⟩ 0x07000000 := nofun
  obtain ⟨_, _, _, _, follows⟩ :=
    later_fragments_follow parsed rfl balanced chain (by decide +kernel) quiet continues
  obtain ⟨d', sent, same, -⟩ := follows (narrowContext 1500) nofun
  exact ⟨d', sent, same⟩

/-- Behind destination options the data of the second fragment is walked as a header, and it is passed on. -/
theorem options_fragment_strays :
    optionsFragments.1.parse = some (startSeen 94, .segment6 14 70) ∧
      (ingressFrame (fun _ _ => 0) directMaps (narrowContext 1500) optionsFragments.1).1 =
        .forward ⟨0, 0, ⟨.v6 client6, htons 80, .zero⟩, .dsr, .v6 vip6, some (htons 80), none⟩ ∧
      Frame.Continues optionsFragments.1 14 0 optionsFragments.2 14 ∧
      (ingressFrame (fun _ _ => 0) (directMaps.receive (narrowContext 1500) (startSeen 94)) (narrowContext 1500)
        optionsFragments.2).1 = .pass := by
  refine ⟨by decide +kernel, by decide +kernel, ?_, by decide +kernel⟩
  exact .start (by decide +kernel) (by decide +kernel) (by decide +kernel) (by decide +kernel) (by decide +kernel)

end Sample

end Rivora

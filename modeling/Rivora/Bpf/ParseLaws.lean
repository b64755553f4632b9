import Rivora.Bpf.IngressLaws
import Rivora.Bpf.Coverage

/-! What a frame must hold for its headers to be found, and what is found in it. -/

namespace Rivora

namespace Frame

variable {f : Frame}

theorem skipVlan_place {l3 : Nat} {type : UInt16} (skipped : f.skipVlan 2 14 (f.load16 12) = some (l3, type)) :
    l3 = 14 ∨ l3 = 18 ∨ l3 = 22 := by
  simp only [skipVlan] at skipped
  -- One case for each number of tags stepped over.
  split at skipped
  · cases skipped
    exact .inl rfl
  split at skipped
  · cases skipped
  split at skipped
  · cases skipped
    exact .inr (.inl rfl)
  split at skipped
  · cases skipped
  · cases skipped
    exact .inr (.inr rfl)

theorem l4Header_proto {proto : UInt8} {l4 : Nat} {header : L4} (found : f.l4Header proto l4 = some header) :
    header.transport.proto = proto ∧ header.sport = f.load16 l4 := by
  unfold l4Header at found
  split at found
  · split at found
    · cases found
    · rename_i tcp _
      cases found
      exact ⟨tcp.symm, rfl⟩
  · split at found
    · split at found
      · cases found
      · rename_i udp _
        cases found
        exact ⟨udp.symm, rfl⟩
    · cases found

/-- An IPv4 packet with a transport header, as it lies in a frame. -/
structure Segment4At (f : Frame) (pkt : Packet) (l3 l4 : Nat) : Prop where
  ethernet : 14 ≤ f.length
  type : f.skipVlan 2 14 (f.load16 12) = some (l3, htons 0x0800)
  whole : l3 + 20 ≤ f.length
  words : 5 ≤ f.ihl l3
  place : l4 = l3 + f.ihl l3 * 4
  first : f.load16 (l3 + 6) &&& htons 0x1fff = 0
  ends : pkt.ends = f.ends4 l3
  length : pkt.length = f.length
  l2Len : pkt.l2Len = l3
  segment : ∃ header, f.l4Header (f.byte (l3 + 9)) l4 = some header ∧ pkt.body = .segment header
    (if f.load16 (l3 + 6) &&& htons 0x2000 ≠ 0 then some (f.load16 (l3 + 4)).toUInt32 else none)

/-- An IPv6 packet with a transport header, as it lies in a frame. -/
structure Segment6At (f : Frame) (pkt : Packet) (l3 l4 : Nat) : Prop where
  ethernet : 14 ≤ f.length
  type : f.skipVlan 2 14 (f.load16 12) = some (l3, htons 0x86dd)
  whole : l3 + 40 ≤ f.length
  notIcmp : f.byte (l3 + 6) ≠ 58
  ends : pkt.ends = f.ends6 l3
  length : pkt.length = f.length
  l2Len : pkt.l2Len = l3
  segment : ∃ proto w header, f.walk l3 4 (f.byte (l3 + 6)) ⟨0, false, false, 0, 0⟩ = some (proto, w) ∧
    (proto = 6 ∨ proto = 17) ∧ l4 = l3 + 40 + w.off % 256 ∧ (w.isFrag = true → w.fragOff = 0) ∧
    f.l4Header proto l4 = some header ∧ pkt.body = .segment header (if w.isFrag && w.more then some w.id else none)

theorem segment4At_of_parse {pkt : Packet} {l3 l4 : Nat} (parsed : f.parse = some (pkt, .segment4 l3 l4)) :
    Segment4At f pkt l3 l4 := by
  unfold parse at parsed
  split at parsed
  · cases parsed
  rename_i ethernet
  split at parsed
  · cases parsed
  rename_i place type skipped
  split at parsed
  · -- Only this branch has an IPv4 layout.
    rename_i v4
    obtain ⟨⟨body, layout⟩, found, eq⟩ := Option.map_eq_some_iff.mp parsed
    obtain ⟨rfl, rfl⟩ := Prod.mk.inj eq
    unfold ipv4 at found
    split at found
    · cases found
    rename_i whole
    split at found
    · cases found
    rename_i words
    dsimp only at found
    split at found
    · cases found
    rename_i first
    split at found
    · obtain ⟨_, _, eq⟩ := Option.map_eq_some_iff.mp found
      cases eq
    · obtain ⟨header, transport, eq⟩ := Option.map_eq_some_iff.mp found
      cases eq
      exact ⟨by omega, by rw [skipped, v4], by omega, by omega, rfl, not_not.mp first, rfl, rfl, rfl, header,
        transport, rfl⟩
  · split at parsed
    · obtain ⟨⟨body, layout⟩, found, eq⟩ := Option.map_eq_some_iff.mp parsed
      obtain ⟨rfl, rfl⟩ := Prod.mk.inj eq
      unfold ipv6 at found
      split at found
      · cases found
      split at found
      · obtain ⟨_, _, eq⟩ := Option.map_eq_some_iff.mp found
        cases eq
      split at found
      · cases found
      split at found
      · cases found
      split at found
      · cases found
      · obtain ⟨_, _, eq⟩ := Option.map_eq_some_iff.mp found
        cases eq
    · cases parsed

theorem segment6At_of_parse {pkt : Packet} {l3 l4 : Nat} (parsed : f.parse = some (pkt, .segment6 l3 l4)) :
    Segment6At f pkt l3 l4 := by
  unfold parse at parsed
  split at parsed
  · cases parsed
  rename_i ethernet
  split at parsed
  · cases parsed
  rename_i place type skipped
  split at parsed
  · obtain ⟨⟨body, layout⟩, found, eq⟩ := Option.map_eq_some_iff.mp parsed
    obtain ⟨rfl, rfl⟩ := Prod.mk.inj eq
    unfold ipv4 at found
    split at found
    · cases found
    split at found
    · cases found
    dsimp only at found
    split at found
    · cases found
    split at found
    all_goals
      obtain ⟨_, _, eq⟩ := Option.map_eq_some_iff.mp found
      cases eq
  · split at parsed
    · rename_i v6
      obtain ⟨⟨body, layout⟩, found, eq⟩ := Option.map_eq_some_iff.mp parsed
      obtain ⟨rfl, rfl⟩ := Prod.mk.inj eq
      unfold ipv6 at found
      split at found
      · cases found
      rename_i whole
      split at found
      · obtain ⟨_, _, eq⟩ := Option.map_eq_some_iff.mp found
        cases eq
      rename_i notIcmp
      split at found
      · cases found
      rename_i proto w walked
      split at found
      · cases found
      rename_i balanced
      split at found
      · cases found
      rename_i first
      obtain ⟨header, transport, eq⟩ := Option.map_eq_some_iff.mp found
      cases eq
      refine ⟨by omega, by rw [skipped, v6], by omega, notIcmp, rfl, rfl, rfl, proto, w, header, walked, ?_, rfl,
        ?_, transport, rfl⟩
      · by_contra other
        exact balanced (not_or.mp other)
      · intro isFrag
        by_contra later
        exact first ⟨isFrag, later⟩
    · cases parsed

theorem parse_laterFragment6 {l3 : Nat} {proto : UInt8} {w : Walk} (ethernet : 14 ≤ f.length)
    (type : f.skipVlan 2 14 (f.load16 12) = some (l3, htons 0x86dd)) (whole : l3 + 40 ≤ f.length)
    (notIcmp : f.byte (l3 + 6) ≠ 58)
    (walked : f.walk l3 4 (f.byte (l3 + 6)) ⟨0, false, false, 0, 0⟩ = some (proto, w))
    (balanced : proto = 6 ∨ proto = 17) (isFrag : w.isFrag = true) (later : w.fragOff ≠ 0) :
    f.parse = some (⟨f.ends6 l3, .laterFragment w.id proto, f.length, l3, false⟩, .laterFragment6 l3) := by
  have headers : f.ipv6 l3 = some (.laterFragment w.id proto, .laterFragment6 l3) := by
    unfold ipv6
    rw [if_neg (by omega), if_neg notIcmp, walked]
    dsimp only
    rw [if_neg (by rintro ⟨notTcp, notUdp⟩; exact balanced.elim notTcp notUdp), if_pos ⟨isFrag, later⟩]
  have other : htons 0x86dd ≠ htons 0x0800 := by decide
  unfold parse
  rw [if_neg (by omega), type]
  simp only [if_neg other, if_true, headers, Option.map_some]

end Frame

end Rivora

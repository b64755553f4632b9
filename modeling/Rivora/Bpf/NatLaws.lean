import Rivora.Bpf.Coverage

/-! Each full-NAT rewrite changes the fields it is for and leaves every checksum valid. -/

namespace Rivora

variable {stop : Nat}

open Splice InternetChecksum

namespace Frame

variable {csumDiff : List UInt8 → List UInt8 → Int} {f : Frame} {l3 l4 addrAt portAt : Nat} {tcp : Bool}
  {addr port : List UInt8}

/-- Where the rewritten fields of an IPv6 segment lie. -/
structure Segment6 (f : Frame) (l3 l4 addrAt portAt : Nat) (tcp : Bool) (addr port : List UInt8) : Prop where
  header : l3 + 40 ≤ l4
  addrAt : addrAt = l3 + 8 ∨ addrAt = l3 + 24
  portAt : portAt = l4 ∨ portAt = l4 + 2
  addr_size : addr.length = 16
  port_size : port.length = 2
  inside : l4 + (if tcp then 20 else 8) ≤ f.length

/-- The place of the transport checksum. -/
def Segment6.checkAt (l4 : Nat) (tcp : Bool) : Nat := if tcp then l4 + 16 else l4 + 6

/-- The checksum stands within the transport header, behind the ports. -/
theorem checkAt_placed (holds : l4 + (if tcp then 20 else 8) ≤ stop) :
    l4 + 6 ≤ Segment6.checkAt l4 tcp ∧ Segment6.checkAt l4 tcp + 2 ≤ stop ∧
      Segment6.checkAt l4 tcp % 2 = l4 % 2 := by
  cases tcp with
  | true => simp only [if_true, Segment6.checkAt] at holds ⊢; omega
  | false => simp only [Bool.false_eq_true, if_false, Segment6.checkAt] at holds ⊢; omega

namespace Segment6

/-- Over IPv6 one checksum covers the address and the port. -/
theorem rewrite_eq (f : Frame) (l4 addrAt portAt : Nat) (tcp : Bool) (addr port : List UInt8) :
    f.rewriteSegment6 csumDiff l4 addrAt portAt tcp addr port =
      f.rewriteEnd csumDiff (checkAt l4 tcp) addrAt portAt addr port := by
  cases tcp <;> rfl

variable (segment : Segment6 f l3 l4 addrAt portAt tcp addr port)

include segment

theorem apart : Apart f (checkAt l4 tcp) addrAt portAt addr port := by
  obtain ⟨header, addrAt, portAt, addr_size, port_size, inside⟩ := segment
  obtain ⟨behind, held, -⟩ := checkAt_placed inside
  exact ⟨.inr addr_size, port_size, by omega, by omega, held⟩

/-- What the checksum covers adds up to what it did. -/
theorem text_sum (helper : CsumDiff csumDiff) (tail : List UInt8)
    (holds : l4 + (if tcp then 20 else 8) ≤ stop) (ends : stop ≤ f.length) :
    regionSum (f.rewriteSegment6 csumDiff l4 addrAt portAt tcp addr port) (l3 + 8) (l3 + 40) [] +
        regionSum (f.rewriteSegment6 csumDiff l4 addrAt portAt tcp addr port) l4 stop tail =
      regionSum f (l3 + 8) (l3 + 40) [] + regionSum f l4 stop tail := by
  have ⟨header, address, place, addr_size, _, _⟩ := segment
  obtain ⟨-, held, aligned⟩ := checkAt_placed holds
  rw [rewrite_eq]
  exact segment.apart.sums helper tail (by omega) (by omega) header (by omega) (by omega) held ends aligned
    (by omega)

/-- Only the two fields and the checksum change. -/
theorem rewritten (csumDiff : List UInt8 → List UInt8 → Int) :
    Layout.Rewritten f (f.rewriteSegment6 csumDiff l4 addrAt portAt tcp addr port)
      [(addrAt, addr), (portAt, port)] (Layout.checks tcp (.segment6 l3 l4)) := by
  rw [rewrite_eq]
  refine ⟨segment.apart.confined.mono ?_, ?_⟩
  · simp [Layout.checks, checkAt]
  · simpa using segment.apart.fields

/-- A valid segment stays valid. -/
theorem valid (helper : CsumDiff csumDiff) (tail : List UInt8)
    (holds : Layout.Holds tcp f stop (.segment6 l3 l4)) :
    ∀ text ∈ Layout.texts tcp stop tail (.segment6 l3 l4), Valid (text f) →
      Valid (text (f.rewriteSegment6 csumDiff l4 addrAt portAt tcp addr port)) := by
  have header := segment.header
  have inside := segment.inside
  have length := (segment.rewritten csumDiff).confined.length
  cases tcp with
  | false => simp [Layout.texts]
  | true =>
    have transport : Valid (f.transport6 6 l3 l4 stop tail) →
        Valid ((f.rewriteSegment6 csumDiff l4 addrAt portAt true addr port).transport6 6 l3 l4 stop tail) :=
      transport6_valid (by decide) (by omega) length (segment.text_sum helper tail holds.1 holds.2)
    simpa [Layout.texts] using transport

end Segment6

/-- Where the rewritten fields of an IPv4 segment lie. -/
structure Segment4 (f : Frame) (l3 l4 addrAt portAt : Nat) (tcp : Bool) (addr port : List UInt8) : Prop where
  header : l3 + 20 ≤ l4
  aligned : l4 % 2 = l3 % 2
  addrAt : addrAt = l3 + 12 ∨ addrAt = l3 + 16
  portAt : portAt = l4 ∨ portAt = l4 + 2
  addr_size : addr.length = 4
  port_size : port.length = 2
  inside : l4 + (if tcp then 20 else 8) ≤ f.length

namespace Segment4

/-- The frame with the checksum of its header updated. -/
def headed (csumDiff : List UInt8 → List UInt8 → Int) (f : Frame) (l3 addrAt : Nat) (addr : List UInt8) : Frame :=
  f.fixChecksum csumDiff (l3 + 10) (slice f addrAt 4) addr

variable (segment : Segment4 f l3 l4 addrAt portAt tcp addr port)

include segment

theorem places : l3 + 20 ≤ l4 ∧ (addrAt = l3 + 12 ∨ addrAt = l3 + 16) ∧ (portAt = l4 ∨ portAt = l4 + 2) ∧
    addr.length = 4 ∧ port.length = 2 ∧ l4 + 8 ≤ f.length := by
  obtain ⟨header, -, address, place, addr_size, port_size, inside⟩ := segment
  obtain ⟨behind, held, -⟩ := checkAt_placed inside
  exact ⟨header, address, place, addr_size, port_size, by omega⟩

/-- The header's own checksum is updated first. -/
theorem headed_confined : Confined [(l3 + 10, 2)] f (headed csumDiff f l3 addrAt addr) := by
  obtain ⟨header, -, -, -, -, inside⟩ := segment.places
  exact confined_fixChecksum (.refl _ f) (by simp) (by omega)

theorem load16_headed : (headed csumDiff f l3 addrAt addr).load16 (l4 + 6) = f.load16 (l4 + 6) := by
  obtain ⟨header, -, -, -, -, inside⟩ := segment.places
  have head : Confined _ f (headed csumDiff f l3 addrAt addr) := segment.headed_confined
  have length := head.length
  exact load16_congr (by omega) (by omega) (head.slice (by simp; omega))

theorem apart : Apart (headed csumDiff f l3 addrAt addr) (Segment6.checkAt l4 tcp) addrAt portAt addr port := by
  obtain ⟨header, address, place, addr_size, port_size, -⟩ := segment.places
  obtain ⟨behind, held, -⟩ := checkAt_placed segment.inside
  have head : Confined _ f (headed csumDiff f l3 addrAt addr) := segment.headed_confined
  exact ⟨.inl addr_size, port_size, by omega, by omega, by rw [head.length]; exact held⟩

/-- A checksum that is there is updated. -/
theorem rewrite_summed (summed : tcp = true ∨ f.load16 (l4 + 6) ≠ 0) :
    f.rewriteSegment4 csumDiff l3 l4 addrAt portAt tcp addr port =
      (headed csumDiff f l3 addrAt addr).rewriteEnd csumDiff (Segment6.checkAt l4 tcp) addrAt portAt addr port := by
  cases tcp with
  | true => rfl
  | false =>
    have nonzero : f.load16 (l4 + 6) ≠ 0 := summed.resolve_left nofun
    rw [← @load16_headed csumDiff _ _ _ _ _ _ _ _ segment] at nonzero
    exact if_pos nonzero

/-- A datagram without one gets its fields alone. -/
theorem rewrite_unset (unset : ¬ (tcp = true ∨ f.load16 (l4 + 6) ≠ 0)) :
    f.rewriteSegment4 csumDiff l3 l4 addrAt portAt tcp addr port =
      patch (patch (headed csumDiff f l3 addrAt addr) portAt port) addrAt addr := by
  rw [not_or, not_not, ← @load16_headed csumDiff _ _ _ _ _ _ _ _ segment] at unset
  cases tcp with
  | true => exact absurd rfl unset.1
  | false => exact if_neg (not_not.mpr unset.2)

theorem written : Confined [(addrAt, addr.length), (portAt, port.length), (Segment6.checkAt l4 tcp, 2)]
      (headed csumDiff f l3 addrAt addr) (f.rewriteSegment4 csumDiff l3 l4 addrAt portAt tcp addr port) ∧
    slice (f.rewriteSegment4 csumDiff l3 l4 addrAt portAt tcp addr port) addrAt addr.length = addr ∧
    slice (f.rewriteSegment4 csumDiff l3 l4 addrAt portAt tcp addr port) portAt port.length = port := by
  by_cases summed : tcp = true ∨ f.load16 (l4 + 6) ≠ 0
  · rw [segment.rewrite_summed summed]
    exact ⟨segment.apart.confined, segment.apart.fields⟩
  · obtain ⟨header, address, place, addr_size, port_size, inside⟩ := segment.places
    have head : Confined _ f (headed csumDiff f l3 addrAt addr) := segment.headed_confined
    have length := head.length
    have patched := @length_patch _ (headed csumDiff f l3 addrAt addr) portAt port (by omega)
    rw [segment.rewrite_unset summed]
    refine ⟨((Confined.refl _ _).patch (by simp) (by omega)).patch (by simp) (by omega),
      slice_patch_self (by omega), ?_⟩
    rw [slice_patch_of_apart (by omega) (by omega)]
    exact slice_patch_self (by omega)

/-- The header adds up to what it did. -/
theorem header_sum (helper : CsumDiff csumDiff) :
    regionSum (f.rewriteSegment4 csumDiff l3 l4 addrAt portAt tcp addr port) l3 l4 [] = regionSum f l3 l4 [] := by
  obtain ⟨header, address, place, addr_size, port_size, inside⟩ := segment.places
  obtain ⟨behind, -⟩ := checkAt_placed segment.inside
  have head : Confined _ f (headed csumDiff f l3 addrAt addr) := segment.headed_confined
  have length := head.length
  have field : Replaces (slice f addrAt 4) addr := ⟨by rw [length_slice (by omega), addr_size], by omega⟩
  obtain ⟨confined, renamed, -⟩ := @written csumDiff _ _ _ _ _ _ _ _ segment
  rw [regionSum_replaced confined renamed [] (by simp; omega) (by omega) (by omega) (by omega) (by omega)
      (by omega), addr_size, head.slice (by simp; omega), headed,
    regionSum_fixChecksum helper field [] (by omega) (by omega) (by omega) (by omega)]
  ring

/-- So does what the transport checksum covers. -/
theorem text_sum (helper : CsumDiff csumDiff) (summed : tcp = true ∨ f.load16 (l4 + 6) ≠ 0)
    (tail : List UInt8) (holds : l4 + (if tcp then 20 else 8) ≤ stop) (ends : stop ≤ f.length) :
    regionSum (f.rewriteSegment4 csumDiff l3 l4 addrAt portAt tcp addr port) (l3 + 12) (l3 + 20) [] +
        regionSum (f.rewriteSegment4 csumDiff l3 l4 addrAt portAt tcp addr port) l4 stop tail =
      regionSum f (l3 + 12) (l3 + 20) [] + regionSum f l4 stop tail := by
  obtain ⟨header, address, place, addr_size, port_size, inside⟩ := segment.places
  obtain ⟨-, held, aligned⟩ := checkAt_placed holds
  have head : Confined _ f (headed csumDiff f l3 addrAt addr) := segment.headed_confined
  have length := head.length
  rw [segment.rewrite_summed summed, segment.apart.sums helper tail (by omega) (by omega) header (by omega)
    (by omega) held (by omega) aligned (by omega)]
  -- The header's checksum is part of neither region.
  rw [regionSum_confined head [] (by simp), regionSum_confined head tail (by simp; omega)]

/-- Only the two fields and the checksums change. -/
theorem rewritten (csumDiff : List UInt8 → List UInt8 → Int) :
    Layout.Rewritten f (f.rewriteSegment4 csumDiff l3 l4 addrAt portAt tcp addr port)
      [(addrAt, addr), (portAt, port)] (Layout.checks tcp (.segment4 l3 l4)) := by
  obtain ⟨confined, fields⟩ := @written csumDiff _ _ _ _ _ _ _ _ segment
  refine ⟨(segment.headed_confined.mono ?_).trans (confined.mono ?_), ?_⟩
  · simp [Layout.checks]
  · simp [Layout.checks, Segment6.checkAt]
  · simpa using fields

/-- A valid segment stays valid, and so does its header. -/
theorem valid (helper : CsumDiff csumDiff) (words : 5 ≤ f.ihl l3) (behind : l4 = l3 + f.ihl l3 * 4)
    (tail : List UInt8) (holds : Layout.Holds tcp f stop (.segment4 l3 l4)) :
    ∀ text ∈ Layout.texts tcp stop tail (.segment4 l3 l4), Valid (text f) →
      Valid (text (f.rewriteSegment4 csumDiff l3 l4 addrAt portAt tcp addr port)) := by
  obtain ⟨_, address, place, addr_size, port_size, inside⟩ := segment.places
  have confined := (segment.rewritten csumDiff).confined
  have first : (f.rewriteSegment4 csumDiff l3 l4 addrAt portAt tcp addr port)[l3]? = f[l3]? := by
    apply confined.same
    cases tcp <;> simp [Layout.checks] <;> omega
  have header : Valid (f.header4 l3) →
      Valid ((f.rewriteSegment4 csumDiff l3 l4 addrAt portAt tcp addr port).header4 l3) :=
    header4_valid words (by omega) confined.length first (by rw [← behind]; exact segment.header_sum helper)
  cases tcp with
  | false => simpa [Layout.texts] using header
  | true =>
    have sums := segment.text_sum helper (.inl rfl) tail holds.1 holds.2
    have transport : Valid (f.transport4 6 l3 l4 stop tail) →
        Valid ((f.rewriteSegment4 csumDiff l3 l4 addrAt portAt true addr port).transport4 6 l3 l4 stop tail) :=
      transport4_valid (by decide) (by omega) confined.length sums
    simpa [Layout.texts] using ⟨header, transport⟩

omit segment

/-- A datagram that carries a checksum leaves with zero exactly where the update lands on it. -/
theorem load16_zero_iff (segment : Segment4 f l3 l4 addrAt portAt false addr port) (helper : CsumDiff csumDiff)
    (summed : f.load16 (l4 + 6) ≠ 0) :
    (f.rewriteSegment4 csumDiff l3 l4 addrAt portAt false addr port).load16 (l4 + 6) = 0 ↔
      f.LandsOnZero csumDiff (l4 + 6) addrAt portAt addr port := by
  obtain ⟨header, address, place, addr_size, port_size, inside⟩ := segment.places
  have head : Confined _ f (headed csumDiff f l3 addrAt addr) := segment.headed_confined
  rw [segment.rewrite_summed (.inr summed)]
  -- The header's checksum is none of the fields that the update reads.
  exact (segment.apart.load16_zero_iff helper).trans
    (LandsOnZero.congr segment.load16_headed (head.slice (by simp; omega)) (head.slice (by simp; omega)))

end Segment4

section LaterFragments

variable (size : addr.length = 4) (inside : l3 + 20 ≤ f.length) (place : addrAt = l3 + 12 ∨ addrAt = l3 + 16)

include size inside place

/-- In a later fragment only the address and the header's checksum change. -/
theorem rewriteAddr4_rewritten (tcp : Bool) (csumDiff : List UInt8 → List UInt8 → Int) :
    Layout.Rewritten f (f.rewriteAddr4 csumDiff l3 addrAt addr) [(addrAt, addr)]
      (Layout.checks tcp (.laterFragment4 l3)) := by
  have length := @length_fixChecksum csumDiff f (l3 + 10) (slice f addrAt 4) addr (by omega)
  refine ⟨(confined_fixChecksum (.refl _ f) (by simp [Layout.checks]) (by omega)).patch (by simp) (by omega), ?_⟩
  rw [List.forall_mem_singleton]
  exact slice_patch_self (by omega)

/-- Its header stays valid. -/
theorem rewriteAddr4_valid (helper : CsumDiff csumDiff) (words : 5 ≤ f.ihl l3) (tail : List UInt8)
    (holds : Layout.Holds tcp f stop (.laterFragment4 l3)) :
    ∀ text ∈ Layout.texts tcp stop tail (.laterFragment4 l3), Valid (text f) →
      Valid (text (f.rewriteAddr4 csumDiff l3 addrAt addr)) := by
  obtain ⟨holds, ends⟩ := holds
  have confined := (rewriteAddr4_rewritten size inside place tcp csumDiff).confined
  have first : (f.rewriteAddr4 csumDiff l3 addrAt addr)[l3]? = f[l3]? := by
    apply confined.same
    simp [Layout.checks]
    omega
  have length := @length_fixChecksum csumDiff f (l3 + 10) (slice f addrAt 4) addr (by omega)
  have field : Replaces (slice f addrAt 4) addr := ⟨by rw [length_slice (by omega), size], by omega⟩
  rw [Layout.texts, List.forall_mem_singleton]
  apply header4_valid words (by omega) confined.length first
  rw [rewriteAddr4, regionSum_patch [] (by omega) (by omega) (by omega) (by omega) (by omega),
    regionSum_fixChecksum helper field [] (by omega) (by omega) (by omega) (by omega),
    slice_fixChecksum_of_apart (by omega) (by omega), size]
  ring

end LaterFragments

/-- Over IPv6 only the address changes. -/
theorem patch_rewritten (size : addr.length = 16) (inside : addrAt + 16 ≤ f.length) :
    Layout.Rewritten f (patch f addrAt addr) [(addrAt, addr)] (Layout.checks tcp (.laterFragment6 l3)) := by
  refine ⟨(Confined.refl _ f).patch (by simp) (by omega), ?_⟩
  rw [List.forall_mem_singleton]
  exact slice_patch_self (by omega)

section Ports

variable {check : Nat} {oldPort : List UInt8} (old : slice f portAt 2 = oldPort) (size : port.length = 2)
  (before : check + 2 ≤ portAt) (inside : portAt + 2 ≤ f.length)

include size before inside

theorem rewritePort_confined {places : List (Nat × Nat)} (place : (check, 2) ∈ places)
    (place' : (portAt, 2) ∈ places) : Confined places f (f.rewritePort csumDiff check portAt oldPort port) := by
  unfold rewritePort
  split
  · exact (confined_fixChecksum (.refl _ f) place (by omega)).patch (by rwa [size]) (by omega)
  · exact .refl _ f

include old

theorem rewritePort_field : slice (f.rewritePort csumDiff check portAt oldPort port) portAt 2 = port := by
  have length := @length_fixChecksum csumDiff f check oldPort port (by omega)
  unfold rewritePort
  split
  · rw [← size]
    exact slice_patch_self (by omega)
  · next unchanged => rw [old, not_not.mp unchanged]

/-- A port and its checksum change without a trace in the sum. -/
theorem rewritePort_sum (helper : CsumDiff csumDiff) {start : Nat} (tail : List UInt8) (check_in : start ≤ check)
    (port_in : portAt + 2 ≤ stop) (ends : stop ≤ f.length) (aligned : check % 2 = start % 2)
    (aligned' : portAt % 2 = start % 2) :
    regionSum (f.rewritePort csumDiff check portAt oldPort port) start stop tail = regionSum f start stop tail := by
  have length := @length_fixChecksum csumDiff f check oldPort port (by omega)
  have field : Replaces oldPort port := ⟨by rw [← old, length_slice inside, size], .inl size⟩
  unfold rewritePort
  split
  · rw [regionSum_patch tail (by omega) (by omega) (by omega) aligned' (by omega),
      regionSum_fixChecksum helper field tail check_in (by omega) ends aligned,
      slice_fixChecksum_of_apart (by omega) (by omega), size, old]
    ring
  · rfl

end Ports

/-- Where the rewritten fields of an ICMP error lie; it quotes a packet that left from where it goes. -/
structure Icmp4 (f : Frame) (l3 : Nat) (addr port : List UInt8) : Prop where
  addr_size : addr.length = 4
  port_size : port.length = 2
  inside : l3 + 52 ≤ f.length
  quotes : slice f (l3 + 40) 4 = slice f (l3 + 16) 4

namespace Icmp4

/-- The frame with the outer header rewritten. -/
def outer (csumDiff : List UInt8 → List UInt8 → Int) (f : Frame) (l3 : Nat) (addr : List UInt8) : Frame :=
  patch (f.fixChecksum csumDiff (l3 + 10) (slice f (l3 + 40) 4) addr) (l3 + 16) addr

/-- The frame with the checksum of the quoted header updated as well. -/
def quoted (csumDiff : List UInt8 → List UInt8 → Int) (f : Frame) (l3 : Nat) (addr : List UInt8) : Frame :=
  (outer csumDiff f l3 addr).fixChecksum csumDiff (l3 + 38) (slice f (l3 + 40) 4) addr

/-- The frame with the checksum of the message updated by the two changes in the quoted header. -/
def message (csumDiff : List UInt8 → List UInt8 → Int) (f : Frame) (l3 : Nat) (addr : List UInt8) : Frame :=
  ((quoted csumDiff f l3 addr).fixChecksum csumDiff (l3 + 22) (slice f (l3 + 40) 4) addr).fixChecksum csumDiff
    (l3 + 22) (slice (outer csumDiff f l3 addr) (l3 + 38) 2) (slice (quoted csumDiff f l3 addr) (l3 + 38) 2)

/-- The frame with all but the quoted address rewritten. -/
def ports (csumDiff : List UInt8 → List UInt8 → Int) (f : Frame) (l3 : Nat) (addr port : List UInt8) : Frame :=
  (message csumDiff f l3 addr).rewritePort csumDiff (l3 + 22) (l3 + 48) (slice f (l3 + 48) 2) port

theorem rewrite_eq (f : Frame) (l3 : Nat) (addr port : List UInt8) :
    f.rewriteIcmp4 csumDiff l3 addr port = patch (ports csumDiff f l3 addr port) (l3 + 40) addr := rfl

variable (icmp : Icmp4 f l3 addr port)

include icmp

theorem outer_confined : Confined [(l3 + 10, 2), (l3 + 16, 4)] f (outer csumDiff f l3 addr) := by
  have := icmp.inside
  have size := icmp.addr_size
  exact (confined_fixChecksum (.refl _ f) (by simp) (by omega)).patch (by simp [size]) (by omega)

theorem quoted_confined :
    Confined [(l3 + 10, 2), (l3 + 16, 4), (l3 + 38, 2)] f (quoted csumDiff f l3 addr) := by
  have := icmp.inside
  exact confined_fixChecksum (icmp.outer_confined.mono (by simp)) (by simp) (by omega)

theorem message_confined :
    Confined [(l3 + 10, 2), (l3 + 16, 4), (l3 + 38, 2), (l3 + 22, 2)] f (message csumDiff f l3 addr) := by
  have := icmp.inside
  exact confined_fixChecksum (confined_fixChecksum (icmp.quoted_confined.mono (by simp)) (by simp) (by omega))
    (by simp) (by omega)

theorem ports_after :
    Confined [(l3 + 22, 2), (l3 + 48, 2)] (message csumDiff f l3 addr) (ports csumDiff f l3 addr port) := by
  have := icmp.inside
  have inside : l3 + 48 + 2 ≤ (message csumDiff f l3 addr).length := by
    rw [icmp.message_confined.length]
    omega
  exact rewritePort_confined icmp.port_size (by omega) inside (by simp) (by simp)

theorem ports_confined : Confined [(l3 + 10, 2), (l3 + 16, 4), (l3 + 38, 2), (l3 + 22, 2), (l3 + 48, 2)] f
    (ports csumDiff f l3 addr port) :=
  (icmp.message_confined.mono (by simp)).trans (icmp.ports_after.mono (by simp))

theorem lengths (csumDiff : List UInt8 → List UInt8 → Int) :
    (outer csumDiff f l3 addr).length = f.length ∧ (quoted csumDiff f l3 addr).length = f.length ∧
      (message csumDiff f l3 addr).length = f.length ∧ (ports csumDiff f l3 addr port).length = f.length :=
  ⟨icmp.outer_confined.length, icmp.quoted_confined.length, icmp.message_confined.length,
    icmp.ports_confined.length⟩

theorem ports_address : slice (ports csumDiff f l3 addr port) (l3 + 40) 4 = slice f (l3 + 40) 4 :=
  icmp.ports_confined.slice (by simp)

theorem replaces : Replaces (slice f (l3 + 40) 4) addr := by
  have := icmp.inside
  have size := icmp.addr_size
  exact ⟨by rw [length_slice (by omega), size], by omega⟩

theorem outer_sum (helper : CsumDiff csumDiff) :
    regionSum (outer csumDiff f l3 addr) l3 (l3 + 20) [] = regionSum f l3 (l3 + 20) [] := by
  have := icmp.inside
  have size := icmp.addr_size
  have length := @length_fixChecksum csumDiff f (l3 + 10) (slice f (l3 + 40) 4) addr (by omega)
  rw [outer, regionSum_patch [] (by omega) (by omega) (by omega) (by omega) (by omega),
    regionSum_fixChecksum helper icmp.replaces [] (by omega) (by omega) (by omega) (by omega),
    slice_fixChecksum_of_apart (by omega) (by omega), size, icmp.quotes]
  ring

theorem header_sum (helper : CsumDiff csumDiff) :
    regionSum (f.rewriteIcmp4 csumDiff l3 addr port) l3 (l3 + 20) [] = regionSum f l3 (l3 + 20) [] := by
  have := icmp.inside
  have size := icmp.addr_size
  obtain ⟨length₁, length₂, length₃, length₄⟩ := icmp.lengths csumDiff
  -- What follows the outer header's own rewrite lies behind it.
  rw [rewrite_eq, regionSum_patch_of_apart [] (by omega) (by omega), regionSum_confined icmp.ports_after [] (by simp),
    message, regionSum_fixChecksum_of_apart [] (by rw [length_fixChecksum] <;> omega) (by omega),
    regionSum_fixChecksum_of_apart [] (by omega) (by omega), quoted,
    regionSum_fixChecksum_of_apart [] (by omega) (by omega), icmp.outer_sum helper]

theorem quoted_sum (helper : CsumDiff csumDiff) :
    regionSum (f.rewriteIcmp4 csumDiff l3 addr port) (l3 + 28) (l3 + 48) [] =
      regionSum f (l3 + 28) (l3 + 48) [] := by
  have := icmp.inside
  have size := icmp.addr_size
  obtain ⟨length₁, length₂, length₃, length₄⟩ := icmp.lengths csumDiff
  -- Its checksum takes over the change of its source address.
  have fixed : regionSum (quoted csumDiff f l3 addr) (l3 + 28) (l3 + 48) [] =
      regionSum f (l3 + 28) (l3 + 48) [] + residue (slice f (l3 + 40) 4) - residue addr := by
    rw [quoted, regionSum_fixChecksum helper icmp.replaces [] (by omega) (by omega) (by omega) (by omega),
      regionSum_confined icmp.outer_confined [] (by simp)]
  -- Neither the checksum of the message nor the port is part of the quoted header.
  have kept : regionSum (message csumDiff f l3 addr) (l3 + 28) (l3 + 48) [] =
      regionSum (quoted csumDiff f l3 addr) (l3 + 28) (l3 + 48) [] := by
    rw [message, regionSum_fixChecksum_of_apart [] (by rw [length_fixChecksum] <;> omega) (by omega),
      regionSum_fixChecksum_of_apart [] (by omega) (by omega)]
  rw [rewrite_eq, regionSum_patch [] (by omega) (by omega) (by omega) (by omega) (by omega), size,
    icmp.ports_address, regionSum_confined icmp.ports_after [] (by simp), kept, fixed]
  ring

/-- The quoted packet changes without a trace in the sum of the message. -/
theorem message_sum (helper : CsumDiff csumDiff) (tail : List UInt8) (holds : l3 + 52 ≤ stop)
    (ends : stop ≤ f.length) :
    regionSum (f.rewriteIcmp4 csumDiff l3 addr port) (l3 + 20) stop tail =
      regionSum f (l3 + 20) stop tail := by
  have := icmp.inside
  have size := icmp.addr_size
  obtain ⟨length₁, length₂, length₃, length₄⟩ := icmp.lengths csumDiff
  have fixed : regionSum (quoted csumDiff f l3 addr) (l3 + 20) stop tail =
      regionSum f (l3 + 20) stop tail + residue (slice f (l3 + 40) 4) - residue addr := by
    rw [quoted, regionSum_fixChecksum helper icmp.replaces tail (by omega) (by omega) (by omega) (by omega),
      regionSum_confined icmp.outer_confined tail (by simp)]
  -- The quoted checksum moves by the change of the address, and the message is told of both.
  have word : residue (slice (quoted csumDiff f l3 addr) (l3 + 38) 2) =
      residue (slice (outer csumDiff f l3 addr) (l3 + 38) 2) + residue (slice f (l3 + 40) 4) - residue addr :=
    residue_fixChecksum helper icmp.replaces (by omega)
  have words : Replaces (slice (outer csumDiff f l3 addr) (l3 + 38) 2)
      (slice (quoted csumDiff f l3 addr) (l3 + 38) 2) := by
    refine ⟨?_, .inl ?_⟩
    · rw [length_slice (by omega), length_slice (by omega)]
    · rw [length_slice (by omega)]
  have told : regionSum (message csumDiff f l3 addr) (l3 + 20) stop tail =
      regionSum f (l3 + 20) stop tail + residue (slice f (l3 + 40) 4) - residue addr := by
    rw [message, regionSum_fixChecksum helper words tail (by omega) (by omega)
        (by rw [length_fixChecksum] <;> omega) (by omega),
      regionSum_fixChecksum helper icmp.replaces tail (by omega) (by omega) (by omega) (by omega), fixed, word]
    ring
  have kept : regionSum (ports csumDiff f l3 addr port) (l3 + 20) stop tail =
      regionSum (message csumDiff f l3 addr) (l3 + 20) stop tail :=
    rewritePort_sum (icmp.message_confined.slice (by simp)) icmp.port_size (by omega) (by omega) helper tail
      (by omega) (by omega) (by omega) (by omega) (by omega)
  rw [rewrite_eq, regionSum_patch tail (by omega) (by omega) (by omega) (by omega) (by omega), size,
    icmp.ports_address, kept, told]
  ring

/-- In an error only the addresses, the port and the checksums change. -/
theorem rewritten (csumDiff : List UInt8 → List UInt8 → Int) :
    Layout.Rewritten f (f.rewriteIcmp4 csumDiff l3 addr port) (Layout.ingressFields addr port (.icmp4 l3))
      (Layout.checks tcp (.icmp4 l3)) := by
  have := icmp.inside
  have size := icmp.addr_size
  have port_size := icmp.port_size
  obtain ⟨length₁, length₂, length₃, length₄⟩ := icmp.lengths csumDiff
  rw [rewrite_eq]
  refine ⟨(icmp.ports_confined.mono ?_).patch ?_ (by omega), ?_⟩
  · simp [Layout.ingressFields, Layout.checks, size, port_size]
  · simp [Layout.ingressFields]
  · rw [Layout.ingressFields, List.forall_mem_cons, List.forall_mem_cons, List.forall_mem_singleton]
    dsimp only
    refine ⟨?_, slice_patch_self (by omega), ?_⟩
    · -- The outer address was written first and is not touched again.
      rw [slice_patch_of_apart (by omega) (by omega), icmp.ports_after.slice (by simp [size]), message,
        slice_fixChecksum_of_apart (by rw [length_fixChecksum] <;> omega) (by omega),
        slice_fixChecksum_of_apart (by omega) (by omega), quoted,
        slice_fixChecksum_of_apart (by omega) (by omega)]
      exact slice_patch_self (by rw [length_fixChecksum] <;> omega)
    · have old : slice (message csumDiff f l3 addr) (l3 + 48) 2 = slice f (l3 + 48) 2 :=
        icmp.message_confined.slice (by simp)
      rw [slice_patch_of_apart (by omega) (by omega), port_size]
      exact rewritePort_field old port_size (by omega) (by omega)

/-- A valid error stays valid, and so do both headers. -/
theorem valid (helper : CsumDiff csumDiff) (words : f.ihl l3 = 5) (quotedWords : f.ihl (l3 + 28) = 5)
    (type : f.byte (l3 + 20) ≠ 0) (tail : List UInt8) (holds : Layout.Holds tcp f stop (.icmp4 l3)) :
    ∀ text ∈ Layout.texts tcp stop tail (.icmp4 l3), Valid (text f) →
      Valid (text (f.rewriteIcmp4 csumDiff l3 addr port)) := by
  have := icmp.inside
  obtain ⟨holds, ends⟩ := holds
  have confined := (icmp.rewritten csumDiff : Layout.Rewritten f _ _ (Layout.checks tcp _)).confined
  have elsewhere : ∀ {i : Nat}, i = l3 ∨ i = l3 + 20 ∨ i = l3 + 28 →
      (f.rewriteIcmp4 csumDiff l3 addr port)[i]? = f[i]? := by
    intro i place
    apply confined.same
    have size := icmp.addr_size
    have port_size := icmp.port_size
    simp [Layout.ingressFields, Layout.checks, size, port_size]
    omega
  rw [Layout.texts, List.forall_mem_cons, List.forall_mem_cons, List.forall_mem_singleton]
  refine ⟨?_, ?_, ?_⟩
  · apply header4_valid (by omega) (by omega) confined.length (elsewhere (by omega))
    rw [words]
    exact icmp.header_sum helper
  · apply header4_valid (by omega) (by omega) confined.length (elsewhere (by omega))
    rw [quotedWords]
    exact icmp.quoted_sum helper
  · exact message4_valid type (by omega) ends confined.length (elsewhere (by omega))
      (icmp.message_sum helper tail holds ends)

end Icmp4

/-- The same of an ICMP error over IPv6. -/
structure Icmp6 (f : Frame) (l3 : Nat) (addr port : List UInt8) : Prop where
  addr_size : addr.length = 16
  port_size : port.length = 2
  inside : l3 + 92 ≤ f.length
  quotes : slice f (l3 + 56) 16 = slice f (l3 + 24) 16

namespace Icmp6

/-- The frame with the checksum of the message updated for both addresses. -/
def message (csumDiff : List UInt8 → List UInt8 → Int) (f : Frame) (l3 : Nat) (addr : List UInt8) : Frame :=
  (f.fixChecksum csumDiff (l3 + 42) (slice f (l3 + 56) 16) addr).fixChecksum csumDiff (l3 + 42)
    (slice f (l3 + 56) 16) addr

/-- The frame with all but the addresses rewritten. -/
def ports (csumDiff : List UInt8 → List UInt8 → Int) (f : Frame) (l3 : Nat) (addr port : List UInt8) : Frame :=
  (message csumDiff f l3 addr).rewritePort csumDiff (l3 + 42) (l3 + 88) (slice f (l3 + 88) 2) port

theorem rewrite_eq (f : Frame) (l3 : Nat) (addr port : List UInt8) :
    f.rewriteIcmp6 csumDiff l3 addr port =
      patch (patch (ports csumDiff f l3 addr port) (l3 + 24) addr) (l3 + 56) addr := rfl

variable (icmp : Icmp6 f l3 addr port)

include icmp

theorem message_confined : Confined [(l3 + 42, 2)] f (message csumDiff f l3 addr) := by
  have := icmp.inside
  exact confined_fixChecksum (confined_fixChecksum (.refl _ f) (by simp) (by omega)) (by simp) (by omega)

theorem ports_confined :
    Confined [(l3 + 42, 2), (l3 + 88, 2)] f (ports csumDiff f l3 addr port) := by
  have := icmp.inside
  have inside : l3 + 88 + 2 ≤ (message csumDiff f l3 addr).length := by
    rw [icmp.message_confined.length]
    omega
  exact (icmp.message_confined.mono (by simp)).trans
    (rewritePort_confined icmp.port_size (by omega) inside (by simp) (by simp))

theorem lengths (csumDiff : List UInt8 → List UInt8 → Int) :
    (message csumDiff f l3 addr).length = f.length ∧ (ports csumDiff f l3 addr port).length = f.length ∧
      (patch (ports csumDiff f l3 addr port) (l3 + 24) addr).length = f.length := by
  have := icmp.inside
  have size := icmp.addr_size
  have length := (icmp.ports_confined : Confined _ f (ports csumDiff f l3 addr port)).length
  exact ⟨icmp.message_confined.length, length, by rw [length_patch (by omega), length]⟩

/-- Over IPv6 the message adds up to what it did. -/
theorem message_sum (helper : CsumDiff csumDiff) (tail : List UInt8) (holds : l3 + 92 ≤ stop)
    (ends : stop ≤ f.length) :
    regionSum (f.rewriteIcmp6 csumDiff l3 addr port) (l3 + 8) (l3 + 40) [] +
        regionSum (f.rewriteIcmp6 csumDiff l3 addr port) (l3 + 40) stop tail =
      regionSum f (l3 + 8) (l3 + 40) [] + regionSum f (l3 + 40) stop tail := by
  have := icmp.inside
  have size := icmp.addr_size
  obtain ⟨length₁, length₂, length₃⟩ := icmp.lengths csumDiff
  have field : Replaces (slice f (l3 + 56) 16) addr := ⟨by rw [length_slice (by omega), size], by omega⟩
  have addresses : regionSum (f.rewriteIcmp6 csumDiff l3 addr port) (l3 + 8) (l3 + 40) [] =
      regionSum f (l3 + 8) (l3 + 40) [] - residue (slice f (l3 + 56) 16) + residue addr := by
    rw [rewrite_eq, regionSum_patch_of_apart [] (by omega) (by omega),
      regionSum_patch [] (by omega) (by omega) (by omega) (by omega) (by omega), size,
      icmp.ports_confined.slice (by simp), regionSum_confined icmp.ports_confined [] (by simp), icmp.quotes]
  -- The checksum is updated twice by the change of the address, once for each of its places.
  have told : regionSum (message csumDiff f l3 addr) (l3 + 40) stop tail = regionSum f (l3 + 40) stop tail +
      residue (slice f (l3 + 56) 16) - residue addr + residue (slice f (l3 + 56) 16) - residue addr := by
    rw [message, regionSum_fixChecksum helper field tail (by omega) (by omega)
        (by rw [length_fixChecksum] <;> omega) (by omega),
      regionSum_fixChecksum helper field tail (by omega) (by omega) (by omega) (by omega)]
  have kept : regionSum (ports csumDiff f l3 addr port) (l3 + 40) stop tail =
      regionSum (message csumDiff f l3 addr) (l3 + 40) stop tail :=
    rewritePort_sum (icmp.message_confined.slice (by simp)) icmp.port_size (by omega) (by omega) helper tail
      (by omega) (by omega) (by omega) (by omega) (by omega)
  have text : regionSum (f.rewriteIcmp6 csumDiff l3 addr port) (l3 + 40) stop tail =
      regionSum f (l3 + 40) stop tail + residue (slice f (l3 + 56) 16) - residue addr := by
    rw [rewrite_eq, regionSum_patch tail (by omega) (by omega) (by omega) (by omega) (by omega), size,
      slice_patch_of_apart (by omega) (by omega), icmp.ports_confined.slice (by simp),
      regionSum_patch_of_apart tail (by omega) (by omega), kept, told]
    ring
  rw [addresses, text]
  ring

/-- In an error only the addresses, the port and the checksum change. -/
theorem rewritten (csumDiff : List UInt8 → List UInt8 → Int) :
    Layout.Rewritten f (f.rewriteIcmp6 csumDiff l3 addr port) (Layout.ingressFields addr port (.icmp6 l3))
      (Layout.checks tcp (.icmp6 l3)) := by
  have := icmp.inside
  have size := icmp.addr_size
  have port_size := icmp.port_size
  obtain ⟨length₁, length₂, length₃⟩ := icmp.lengths csumDiff
  rw [rewrite_eq]
  refine ⟨((icmp.ports_confined.mono ?_).patch ?_ (by omega)).patch ?_ (by omega), ?_⟩
  · simp [Layout.ingressFields, Layout.checks, port_size]
  · simp [Layout.ingressFields]
  · simp [Layout.ingressFields]
  · rw [Layout.ingressFields, List.forall_mem_cons, List.forall_mem_cons, List.forall_mem_singleton]
    dsimp only
    have old : slice (message csumDiff f l3 addr) (l3 + 88) 2 = slice f (l3 + 88) 2 :=
      icmp.message_confined.slice (by simp)
    refine ⟨?_, slice_patch_self (by omega), ?_⟩
    · rw [slice_patch_of_apart (by omega) (by omega)]
      exact slice_patch_self (by omega)
    · rw [slice_patch_of_apart (by omega) (by omega), slice_patch_of_apart (by omega) (by omega), port_size]
      exact rewritePort_field old port_size (by omega) (by omega)

/-- A valid error stays valid. -/
theorem valid (helper : CsumDiff csumDiff) (tail : List UInt8)
    (holds : Layout.Holds tcp f stop (.icmp6 l3)) :
    ∀ text ∈ Layout.texts tcp stop tail (.icmp6 l3), Valid (text f) →
      Valid (text (f.rewriteIcmp6 csumDiff l3 addr port)) := by
  have := icmp.inside
  have length := (icmp.rewritten csumDiff : Layout.Rewritten f _ _ (Layout.checks tcp _)).confined.length
  rw [Layout.texts, List.forall_mem_singleton]
  exact transport6_valid (by decide) (by omega) length (icmp.message_sum helper tail holds.1 holds.2)

end Icmp6

end Frame

end Rivora

import Rivora.Bpf.RewriteLaws

/-!
What the checksums of a frame cover, and what the programs know of a frame they rewrite.

A datagram may end before its frame does, and the first of its fragments carries the checksum of the whole:
`stop` is where it ends in this frame and `tail` is the data of the fragments behind it.
-/

namespace Rivora

variable {proto : UInt8} {pkt : Packet} {layout : Layout}

open Splice InternetChecksum

/-- The protocol and length of an IPv4 pseudo-header, behind its addresses. -/
def pseudo4 (proto : UInt8) (n : Nat) : List UInt8 := [0, proto, UInt8.ofNat (n / 2 ^ 8), UInt8.ofNat n]

/-- The length and protocol of an IPv6 pseudo-header, behind its addresses. -/
def pseudo6 (proto : UInt8) (n : Nat) : List UInt8 :=
  [UInt8.ofNat (n / 2 ^ 24), UInt8.ofNat (n / 2 ^ 16), UInt8.ofNat (n / 2 ^ 8), UInt8.ofNat n, 0, 0, 0, proto]

namespace Frame

/-- An IPv4 header with its options. -/
def header4 (l3 : Nat) (f : Frame) : List UInt8 := slice f l3 (f.ihl l3 * 4)

/-- A segment over IPv4 behind its pseudo-header. -/
def transport4 (proto : UInt8) (l3 l4 stop : Nat) (tail : List UInt8) (f : Frame) : List UInt8 :=
  slice f (l3 + 12) 8 ++ (pseudo4 proto (stop - l4 + tail.length) ++ (slice f l4 (stop - l4) ++ tail))

/-- A segment over IPv6 behind its pseudo-header. -/
def transport6 (proto : UInt8) (l3 l4 stop : Nat) (tail : List UInt8) (f : Frame) : List UInt8 :=
  slice f (l3 + 8) 32 ++ (pseudo6 proto (stop - l4 + tail.length) ++ (slice f l4 (stop - l4) ++ tail))

/-- An ICMP message over IPv4, which has no pseudo-header. -/
def message4 (l3 stop : Nat) (tail : List UInt8) (f : Frame) : List UInt8 :=
  slice f (l3 + 20) (stop - (l3 + 20)) ++ tail

end Frame

/-- The length of a transport header without options. -/
def L4.size : L4 → Nat
  | ⟨.tcp _, _, _⟩ => 20
  | ⟨.udp, _, _⟩ => 8

namespace Layout

/-- The texts under the checksums of a packet, those of UDP apart. -/
def texts (tcp : Bool) (stop : Nat) (tail : List UInt8) : Layout → List (Frame → List UInt8)
  | .segment4 l3 l4 => Frame.header4 l3 :: if tcp then [Frame.transport4 6 l3 l4 stop tail] else []
  | .segment6 l3 l4 => if tcp then [Frame.transport6 6 l3 l4 stop tail] else []
  | .laterFragment4 l3 => [Frame.header4 l3]
  | .laterFragment6 _ => []
  -- The header of the quoted packet has a checksum of its own.
  | .icmp4 l3 => [Frame.header4 l3, Frame.header4 (l3 + 28), Frame.message4 l3 stop tail]
  | .icmp6 l3 => [Frame.transport6 58 l3 (l3 + 40) stop tail]

/-- A datagram that ends at a place of the frame holds the headers that it is said to have. -/
def Holds (tcp : Bool) (f : Frame) (stop : Nat) : Layout → Prop
  | .segment4 _ l4 | .segment6 _ l4 => l4 + (if tcp then 20 else 8) ≤ stop ∧ stop ≤ f.length
  | .laterFragment4 l3 => l3 + f.ihl l3 * 4 ≤ stop ∧ stop ≤ f.length
  | .laterFragment6 _ => stop ≤ f.length
  | .icmp4 l3 => l3 + 52 ≤ stop ∧ stop ≤ f.length
  | .icmp6 l3 => l3 + 92 ≤ stop ∧ stop ≤ f.length

/-- The places of the checksums of a packet. -/
def checks (tcp : Bool) : Layout → List Nat
  | .segment4 l3 l4 => [l3 + 10, if tcp then l4 + 16 else l4 + 6]
  | .segment6 _ l4 => [if tcp then l4 + 16 else l4 + 6]
  | .laterFragment4 l3 => [l3 + 10]
  | .laterFragment6 _ => []
  | .icmp4 l3 => [l3 + 10, l3 + 22, l3 + 38]
  | .icmp6 l3 => [l3 + 42]

/-- The places where a packet names the VIP it is sent to, or the backend in its stead. -/
def ingressFields (addr port : List UInt8) : Layout → List (Nat × List UInt8)
  | .segment4 l3 l4 => [(l3 + 16, addr), (l4 + 2, port)]
  | .segment6 l3 l4 => [(l3 + 24, addr), (l4 + 2, port)]
  | .laterFragment4 l3 => [(l3 + 16, addr)]
  | .laterFragment6 l3 => [(l3 + 24, addr)]
  -- An ICMP error names it as its destination and as the source of the quoted packet.
  | .icmp4 l3 => [(l3 + 16, addr), (l3 + 40, addr), (l3 + 48, port)]
  | .icmp6 l3 => [(l3 + 24, addr), (l3 + 56, addr), (l3 + 88, port)]

/-- The places where a reply names the backend it comes from, or the VIP in its stead. -/
def egressFields (addr port : List UInt8) : Layout → List (Nat × List UInt8)
  | .segment4 l3 l4 => [(l3 + 12, addr), (l4, port)]
  | .segment6 l3 l4 => [(l3 + 8, addr), (l4, port)]
  | .laterFragment4 l3 => [(l3 + 12, addr)]
  | .laterFragment6 l3 => [(l3 + 8, addr)]
  | .icmp4 _ | .icmp6 _ => []

/-- The bytes of an address as a packet of this family holds them. -/
def addrBytes (addr : Addr) : Layout → List UInt8
  | .segment4 _ _ | .laterFragment4 _ | .icmp4 _ => addr.bytes4
  | .segment6 _ _ | .laterFragment6 _ | .icmp6 _ => addr.bytes6

/-- Fields hold their new values, and nothing but them and checksums has changed. -/
structure Rewritten (f f' : Frame) (fields : List (Nat × List UInt8)) (checks : List Nat) : Prop where
  confined : Confined (fields.map (fun e => (e.1, e.2.length)) ++ checks.map (fun check => (check, 2))) f f'
  fields : ∀ e ∈ fields, slice f' e.1 e.2.length = e.2

/-- What is known of a frame in which the headers were found. -/
def Of (f : Frame) (pkt : Packet) : Layout → Prop
  | .segment4 l3 l4 => pkt.ends = f.ends4 l3 ∧ 5 ≤ f.ihl l3 ∧ l4 = l3 + f.ihl l3 * 4 ∧
      ∃ header first, pkt.body = .segment header first ∧ header.dport = f.load16 (l4 + 2) ∧
        l4 + header.size ≤ f.length
  | .segment6 l3 l4 => pkt.ends = f.ends6 l3 ∧ l3 + 40 ≤ l4 ∧
      ∃ header first, pkt.body = .segment header first ∧ header.dport = f.load16 (l4 + 2) ∧
        l4 + header.size ≤ f.length
  | .laterFragment4 l3 => pkt.ends = f.ends4 l3 ∧ 5 ≤ f.ihl l3 ∧ l3 + 20 ≤ f.length ∧
      ∃ id proto, pkt.body = .laterFragment id proto
  | .laterFragment6 l3 => pkt.ends = f.ends6 l3 ∧ l3 + 40 ≤ f.length ∧
      ∃ id proto, pkt.body = .laterFragment id proto
  | .icmp4 l3 => pkt.ends = f.ends4 l3 ∧ f.ihl l3 = 5 ∧ f.ihl (l3 + 28) = 5 ∧ l3 + 52 ≤ f.length ∧
      f.byte (l3 + 20) ≠ 0 ∧ ∃ l4, pkt.body = .icmpError (f.ends4 (l3 + 28)) l4
  | .icmp6 l3 => pkt.ends = f.ends6 l3 ∧ l3 + 92 ≤ f.length ∧
      ∃ l4, pkt.body = .icmpError (f.ends6 (l3 + 48)) l4

end Layout

namespace Frame

variable {f : Frame}

theorem l4Header_inside {l4 : Nat} {header : L4} (found : f.l4Header proto l4 = some header) :
    header.dport = f.load16 (l4 + 2) ∧ l4 + header.size ≤ f.length := by
  unfold l4Header at found
  split at found
  · split at found
    · cases found
    · cases found
      exact ⟨rfl, by simp only [L4.size]; omega⟩
  · split at found
    · split at found
      · cases found
      · cases found
        exact ⟨rfl, by simp only [L4.size]; omega⟩
    · cases found

theorem quotedPorts_inside {ports : Nat} {header : L4}
    (found : f.quotedPorts proto ports = some header) : ports + 4 ≤ f.length := by
  unfold quotedPorts at found
  split at found
  · cases found
  · omega

/-- Where the fields of an ICMP error stand. -/
theorem icmp4Body_spec {l3 : Nat} {body : Body} (found : f.icmp4Body l3 = some body) :
    f.ihl l3 = 5 ∧ f.ihl (l3 + 28) = 5 ∧ l3 + 52 ≤ f.length ∧ f.byte (l3 + 20) ≠ 0 ∧
      ∃ l4, body = .icmpError (f.ends4 (l3 + 28)) l4 := by
  unfold icmp4Body at found
  split at found
  · cases found
  · next options =>
    split at found
    · cases found
    · split at found
      · cases found
      · next type =>
        split at found
        · cases found
        · split at found
          · cases found
          · next quotedOptions =>
            obtain ⟨l4, ports, rfl⟩ := Option.map_eq_some_iff.mp found
            have inside := quotedPorts_inside ports
            refine ⟨not_not.mp options, not_not.mp quotedOptions, by omega, ?_, l4, rfl⟩
            -- None of the types that quote a packet is zero.
            intro zero
            exact type (by rw [zero]; decide)

/-- Where those of an ICMPv6 error do. -/
theorem icmp6Body_spec {l3 : Nat} {body : Body} (found : f.icmp6Body l3 = some body) :
    l3 + 92 ≤ f.length ∧ ∃ l4, body = .icmpError (f.ends6 (l3 + 48)) l4 := by
  unfold icmp6Body at found
  split at found
  · cases found
  · split at found
    · cases found
    · split at found
      · cases found
      · obtain ⟨l4, ports, rfl⟩ := Option.map_eq_some_iff.mp found
        exact ⟨quotedPorts_inside ports, l4, rfl⟩

theorem ipv4_of {l3 : Nat} (ends : pkt.ends = f.ends4 l3)
    (found : f.ipv4 l3 = some (pkt.body, layout)) : layout.Of f pkt := by
  unfold ipv4 at found
  split at found
  · cases found
  · next inside =>
    split at found
    · cases found
    · next words =>
      simp only at found
      split at found
      · -- A later fragment.
        obtain ⟨body, rfl⟩ := Prod.mk.inj (Option.some.inj found)
        exact ⟨ends, by omega, by omega, _, _, body.symm⟩
      · split at found
        · -- An ICMP error.
          obtain ⟨body, quoted, eq⟩ := Option.map_eq_some_iff.mp found
          obtain ⟨rfl, rfl⟩ := Prod.mk.inj eq
          obtain ⟨options, quotedOptions, ports, type, l4, body⟩ := icmp4Body_spec quoted
          exact ⟨ends, options, quotedOptions, ports, type, l4, body⟩
        · -- A segment, whole or a first fragment.
          obtain ⟨header, transport, eq⟩ := Option.map_eq_some_iff.mp found
          obtain ⟨body, rfl⟩ := Prod.mk.inj eq
          obtain ⟨dport, size⟩ := l4Header_inside transport
          exact ⟨ends, by omega, rfl, header, _, body.symm, dport, size⟩

theorem ipv6_of {l3 : Nat} (ends : pkt.ends = f.ends6 l3)
    (found : f.ipv6 l3 = some (pkt.body, layout)) : layout.Of f pkt := by
  unfold ipv6 at found
  split at found
  · cases found
  · next inside =>
    split at found
    · -- An ICMP error.
      obtain ⟨body, quoted, eq⟩ := Option.map_eq_some_iff.mp found
      obtain ⟨rfl, rfl⟩ := Prod.mk.inj eq
      exact ⟨ends, icmp6Body_spec quoted⟩
    · split at found
      · cases found
      · split at found
        · cases found
        · split at found
          · -- A later fragment.
            obtain ⟨body, rfl⟩ := Prod.mk.inj (Option.some.inj found)
            exact ⟨ends, by omega, _, _, body.symm⟩
          · -- A segment, whole or a first fragment.
            obtain ⟨header, transport, eq⟩ := Option.map_eq_some_iff.mp found
            obtain ⟨body, rfl⟩ := Prod.mk.inj eq
            obtain ⟨dport, size⟩ := l4Header_inside transport
            exact ⟨ends, by omega, header, _, body.symm, dport, size⟩

/-- A packet is read off its frame. -/
theorem parse_of (parsed : f.parse = some (pkt, layout)) : layout.Of f pkt := by
  unfold parse at parsed
  split at parsed
  · cases parsed
  · split at parsed
    · cases parsed
    · split at parsed
      · obtain ⟨⟨body, layout'⟩, found, eq⟩ := Option.map_eq_some_iff.mp parsed
        obtain ⟨rfl, rfl⟩ := Prod.mk.inj eq
        exact ipv4_of rfl found
      · split at parsed
        · obtain ⟨⟨body, layout'⟩, found, eq⟩ := Option.map_eq_some_iff.mp parsed
          obtain ⟨rfl, rfl⟩ := Prod.mk.inj eq
          exact ipv6_of rfl found
        · cases parsed

section Validity

variable {f' : Frame} {l3 l4 stop : Nat} {tail : List UInt8}

theorem byte_congr {i : Nat} (same : f'[i]? = f[i]?) : f'.byte i = f.byte i := by
  rw [byte, byte, List.getD_eq_getElem?_getD, List.getD_eq_getElem?_getD, same]

theorem byte_mem_slice {start n i : Nat} (inside : start + n ≤ f.length) (before : start ≤ i)
    (behind : i < start + n) : f.byte i ∈ slice f start n := by
  rw [slice_eq_map inside]
  refine List.mem_map.mpr ⟨i - start, List.mem_range.mpr (by omega), ?_⟩
  rw [Nat.add_sub_cancel' before]

/-- A header that adds up to what it did stays valid. -/
theorem header4_valid (words : 5 ≤ f.ihl l3) (inside : l3 + f.ihl l3 * 4 ≤ f.length)
    (length : f'.length = f.length) (first : f'[l3]? = f[l3]?)
    (sum : regionSum f' l3 (l3 + f.ihl l3 * 4) [] = regionSum f l3 (l3 + f.ihl l3 * 4) [])
    (valid : Valid (f.header4 l3)) : Valid (f'.header4 l3) := by
  have byte := byte_congr first
  have ihl : f'.ihl l3 = f.ihl l3 := by rw [Frame.ihl, byte, Frame.ihl]
  have residues : residue (f'.header4 l3) = residue (f.header4 l3) := by
    rw [header4, header4, ihl]
    simpa only [regionSum, List.append_nil, Nat.add_sub_cancel_left] using sum
  -- The length of the header is in its first byte, which is therefore not zero.
  refine valid.of_residue residues (b := f'.byte l3)
    (byte_mem_slice (by omega) (Nat.le_refl l3) (by omega)) ?_
  intro zero
  have : f.ihl l3 = 0 := by rw [Frame.ihl, ← byte, zero]; rfl
  omega

/-- The sum over header and data, region by region. -/
theorem residue_transport4 (proto : UInt8) (inside : l3 + 20 ≤ f.length) :
    residue (f.transport4 proto l3 l4 stop tail) = regionSum f (l3 + 12) (l3 + 20) [] +
      (residue (pseudo4 proto (stop - l4 + tail.length)) + regionSum f l4 stop tail) := by
  have addresses : Even (slice f (l3 + 12) 8).length := by
    rw [length_slice (by omega)]
    decide
  have pseudo : Even (pseudo4 proto (stop - l4 + tail.length)).length := ⟨2, rfl⟩
  rw [transport4, residue_append addresses, residue_append pseudo, regionSum, regionSum, List.append_nil,
    show l3 + 20 - (l3 + 12) = 8 by omega]

/-- The same over IPv6. -/
theorem residue_transport6 (proto : UInt8) (inside : l3 + 40 ≤ f.length) :
    residue (f.transport6 proto l3 l4 stop tail) = regionSum f (l3 + 8) (l3 + 40) [] +
      (residue (pseudo6 proto (stop - l4 + tail.length)) + regionSum f l4 stop tail) := by
  have addresses : Even (slice f (l3 + 8) 32).length := by
    rw [length_slice (by omega)]
    decide
  have pseudo : Even (pseudo6 proto (stop - l4 + tail.length)).length := ⟨4, rfl⟩
  rw [transport6, residue_append addresses, residue_append pseudo, regionSum, regionSum, List.append_nil,
    show l3 + 40 - (l3 + 8) = 32 by omega]

theorem transport4_valid (nonzero : proto ≠ 0) (inside : l3 + 20 ≤ f.length)
    (length : f'.length = f.length)
    (sum : regionSum f' (l3 + 12) (l3 + 20) [] + regionSum f' l4 stop tail =
      regionSum f (l3 + 12) (l3 + 20) [] + regionSum f l4 stop tail)
    (valid : Valid (f.transport4 proto l3 l4 stop tail)) : Valid (f'.transport4 proto l3 l4 stop tail) := by
  refine valid.of_residue (b := proto) ?_ ?_ nonzero
  · rw [residue_transport4 proto inside, residue_transport4 proto (by omega)]
    linear_combination sum
  · simp [transport4, pseudo4]

theorem transport6_valid (nonzero : proto ≠ 0) (inside : l3 + 40 ≤ f.length)
    (length : f'.length = f.length)
    (sum : regionSum f' (l3 + 8) (l3 + 40) [] + regionSum f' l4 stop tail =
      regionSum f (l3 + 8) (l3 + 40) [] + regionSum f l4 stop tail)
    (valid : Valid (f.transport6 proto l3 l4 stop tail)) : Valid (f'.transport6 proto l3 l4 stop tail) := by
  refine valid.of_residue (b := proto) ?_ ?_ nonzero
  · rw [residue_transport6 proto inside, residue_transport6 proto (by omega)]
    linear_combination sum
  · simp [transport6, pseudo6]

theorem message4_valid (type : f.byte (l3 + 20) ≠ 0) (holds : l3 + 20 < stop) (inside : stop ≤ f.length)
    (length : f'.length = f.length) (first : f'[l3 + 20]? = f[l3 + 20]?)
    (sum : regionSum f' (l3 + 20) stop tail = regionSum f (l3 + 20) stop tail)
    (valid : Valid (f.message4 l3 stop tail)) : Valid (f'.message4 l3 stop tail) := by
  refine valid.of_residue (b := f'.byte (l3 + 20)) sum ?_ ?_
  · exact List.mem_append_left _ (byte_mem_slice (by omega) (Nat.le_refl _) (by omega))
  · rw [byte_congr first]
    exact type

end Validity

end Frame

end Rivora

import Rivora.Bpf.Common
import Rivora.Lib.LongestPrefix

/-!
The range tries as the kernel walks them.

A trie compares the bytes of a key bit by bit: the address, the protocol, a byte of padding, and the
port in network byte order. Where every stored key is a block of ports, aligned to its own size, the
lookup by port and number of fixed bits is the value of the longest stored prefix.
-/

namespace Rivora

theorem htons_toNat (port : UInt16) :
    (htons port).toNat = port.toNat % 256 * 256 + port.toNat / 256 := by
  have below : port.toNat < 65536 := port.toNat_lt
  have low : port.toNat / 256 < 2 ^ 8 := by omega
  have high : port.toNat <<< 8 % 65536 = (port.toNat % 256) <<< 8 := by
    simp only [Nat.shiftLeft_eq]
    omega
  unfold htons
  simp only [UInt16.toNat_or, UInt16.toNat_shiftLeft, UInt16.toNat_shiftRight, UInt16.toNat_ofNat,
    Nat.reducePow, Nat.reduceMod, high]
  rw [Nat.shiftRight_eq_div_pow, ← Nat.shiftLeft_add_eq_or_of_lt low, Nat.shiftLeft_eq]

theorem htons_htons (port : UInt16) : htons (htons port) = port := by
  apply UInt16.toNat_inj.mp
  have below : port.toNat < 65536 := port.toNat_lt
  rw [htons_toNat, htons_toNat]
  omega

theorem htons_inj {a b : UInt16} (same : htons a = htons b) : a = b := by
  rw [← htons_htons a, same, htons_htons]

/-- The bytes of an address as they lie in a key. -/
def Addr.bytes : Addr → List UInt8
  | .v4 a => [UInt8.ofNat a.toNat, UInt8.ofNat (a.toNat / 2 ^ 8), UInt8.ofNat (a.toNat / 2 ^ 16),
      UInt8.ofNat (a.toNat / 2 ^ 24)]
  | .v6 ip => ip.toList

/-- The bytes of a port as they lie in a key; the port is in network byte order. -/
def portBytes (port : UInt16) : List UInt8 := [UInt8.ofNat port.toNat, UInt8.ofNat (port.toNat / 2 ^ 8)]

/-- The bits of a trie key behind its prefix length. -/
def rangeData (addr : Addr) (proto : UInt8) (port : UInt16) : List Bool :=
  Bits.ofBytes (addr.bytes ++ [proto, 0] ++ portBytes port)

/-- The stored prefix of a range key. -/
def VipRangeKey.stored (k : VipRangeKey) : Bits.Prefixed :=
  ⟨k.prefixLen, rangeData k.addr k.proto k.port⟩

/-- The lookup of a full-length key in the trie of its family: the longest stored prefix. -/
def Maps.trieLookup (m : Maps) (addr : Addr) (port : UInt16) (proto : UInt8) : Option Nat :=
  Bits.longest
    ((m.vipRange.entries.filter fun e => e.1.addr.isV4 = addr.isV4).map fun e => (e.1.stored, e.2))
    (rangeData addr proto port)

/-- A key stands for a block: up to sixteen bits of the port are fixed, the others clear. -/
def VipRangeKey.Canonical (k : VipRangeKey) : Prop :=
  ∃ bits ≤ 16, k.prefixLen = rangePrefixBase k.addr + bits ∧ Maps.maskPort k.port bits = k.port

theorem Addr.bytes_inj {a b : Addr} (family : a.isV4 = b.isV4) (same : a.bytes = b.bytes) : a = b := by
  cases a with
  | v4 x =>
    cases b with
    | v4 y =>
      have digit : ∀ {n k : Nat}, UInt8.ofNat n = UInt8.ofNat k → n % 256 = k % 256 := by
        intro n k eq
        simpa using congrArg UInt8.toNat eq
      simp only [Addr.bytes, List.cons.injEq] at same
      obtain ⟨first, second, third, fourth, _⟩ := same
      have := digit first
      have := digit second
      have := digit third
      have := digit fourth
      have : x.toNat < 4294967296 := x.toNat_lt
      have : y.toNat < 4294967296 := y.toNat_lt
      congr 1
      apply UInt32.toNat_inj.mp
      omega
    | v6 y => cases family
  | v6 x =>
    cases b with
    | v4 y => cases family
    | v6 y => exact congrArg _ (Vector.toList_inj.mp same)

theorem ofBytes_portBytes (port : UInt16) :
    Bits.ofBytes (portBytes port) = Bits.ofNat 16 (htons port).toNat := by
  have below : port.toNat < 65536 := port.toNat_lt
  have digits : (htons port).toNat = port.toNat % 256 * 2 ^ 8 + port.toNat / 256 := htons_toNat port
  rw [digits, show 16 = 8 + 8 from rfl, Bits.ofNat_digits (by omega)]
  simp only [Bits.ofBytes, portBytes, List.flatMap_cons, List.flatMap_nil, List.append_nil,
    UInt8.toNat_ofNat']
  rw [Nat.mod_eq_of_lt (a := port.toNat / 2 ^ 8) (by omega)]
  rfl

theorem htons_maskPort (port : UInt16) (bits : Nat) :
    (htons (Maps.maskPort port bits)).toNat =
      (htons port).toNat / 2 ^ (16 - bits) * 2 ^ (16 - bits) := by
  have below : (htons port).toNat < 65536 := (htons port).toNat_lt
  have least : (htons port).toNat / 2 ^ (16 - bits) * 2 ^ (16 - bits) ≤ (htons port).toNat :=
    Nat.div_mul_le_self _ _
  rw [Maps.maskPort, htons_htons]
  exact UInt16.toNat_ofNat_of_lt' (by simp only [UInt16.size]; omega)

theorem maskPort_eq_iff (a b : UInt16) {bits : Nat} (small : bits ≤ 16) :
    Maps.maskPort a bits = Maps.maskPort b bits ↔
      (Bits.ofBytes (portBytes a)).take bits = (Bits.ofBytes (portBytes b)).take bits := by
  rw [ofBytes_portBytes, ofBytes_portBytes,
    Bits.take_ofNat_eq_iff small (htons a).toNat_lt (htons b).toNat_lt]
  constructor
  · intro same
    have cleared := congrArg (fun p => (htons p).toNat) same
    simp only [htons_maskPort] at cleared
    exact Nat.eq_of_mul_eq_mul_right (Nat.two_pow_pos _) cleared
  · intro same
    simp only [Maps.maskPort, same]

theorem length_rangeBase (addr : Addr) (proto : UInt8) :
    (Bits.ofBytes (addr.bytes ++ [proto, 0])).length = rangePrefixBase addr := by
  cases addr <;> simp [Addr.bytes, rangePrefixBase]

theorem begins_iff {k : VipRangeKey} {bits : Nat} (small : bits ≤ 16)
    (prefixed : k.prefixLen = rangePrefixBase k.addr + bits)
    (aligned : Maps.maskPort k.port bits = k.port) {addr : Addr} (family : k.addr.isV4 = addr.isV4)
    (port : UInt16) (proto : UInt8) :
    k.stored.Begins (rangeData addr proto port) ↔
      k = ⟨rangePrefixBase addr + bits, addr, proto, Maps.maskPort port bits⟩ := by
  have base : rangePrefixBase k.addr = rangePrefixBase addr := by
    cases kAddr : k.addr <;> cases addr <;> rw [kAddr] at family <;> first | rfl | cases family
  have split : ∀ (a : Addr) (r : UInt8) (q : UInt16), rangePrefixBase a = rangePrefixBase addr →
      (rangeData a r q).take (rangePrefixBase addr + bits) =
        Bits.ofBytes (a.bytes ++ [r, 0]) ++ (Bits.ofBytes (portBytes q)).take bits := by
    intro a r q same
    rw [rangeData, Bits.ofBytes_append, List.take_append, length_rangeBase, same,
      Nat.add_sub_cancel_left, List.take_of_length_le (by rw [length_rangeBase, same]; omega)]
  have long : rangePrefixBase addr + bits ≤ (rangeData addr proto port).length := by
    rw [rangeData, Bits.ofBytes_append, List.length_append, length_rangeBase, Bits.length_ofBytes]
    simp only [portBytes, List.length_cons, List.length_nil]
    omega
  unfold Bits.Prefixed.Begins VipRangeKey.stored
  simp only [prefixed, base, split k.addr k.proto k.port base, split addr proto port rfl, long, true_and]
  constructor
  · intro same
    -- The fixed parts are equally long, so address and protocol agree, and so do the ports' first bits.
    obtain ⟨fixed, ports⟩ := List.append_inj same (by rw [length_rangeBase, length_rangeBase, base])
    obtain ⟨addresses, rest⟩ := List.append_inj' (Bits.ofBytes_inj fixed) rfl
    have masked := (maskPort_eq_iff k.port port small).mpr ports
    rw [aligned] at masked
    cases k with
    | mk len a r q =>
      simp only at prefixed base addresses rest masked family ⊢
      rw [prefixed, base, Addr.bytes_inj family addresses, masked, (List.cons.inj rest).1]
  · intro same
    have masked := (maskPort_eq_iff k.port port small).mp (by rw [aligned, same])
    rw [masked, same]

theorem rangeLookup_eq_trieLookup {m : Maps}
    (canonical : ∀ k sid, m.vipRange.get? k = some sid → k.Canonical) (addr : Addr) (port : UInt16)
    (proto : UInt8) : m.rangeLookup addr port proto = m.trieLookup addr port proto := by
  -- A stored entry that the packet's key begins with is one of those the search asks for.
  have asked : ∀ e ∈ (m.vipRange.entries.filter fun e => e.1.addr.isV4 = addr.isV4).map
      (fun e => (e.1.stored, e.2)), e.1.Begins (rangeData addr proto port) →
      ∃ bits ≤ 16, e.1.length = rangePrefixBase addr + bits ∧ m.vipRange.get?
        ⟨rangePrefixBase addr + bits, addr, proto, Maps.maskPort port bits⟩ = some e.2 := by
    intro e member begins
    obtain ⟨⟨k, sid⟩, stored, rfl⟩ := List.mem_map.mp member
    obtain ⟨inside, family⟩ := List.mem_filter.mp stored
    have found := FMap.get?_eq_some.mpr inside
    obtain ⟨bits, small, prefixed, aligned⟩ := canonical k sid found
    have key := (begins_iff small prefixed aligned (by simpa using family) port proto).mp begins
    refine ⟨bits, small, ?_, key ▸ found⟩
    rw [key]
    rfl
  unfold Maps.rangeLookup Maps.trieLookup
  cases found : (List.range 17).reverse.findSome? fun bits =>
      m.vipRange.get? ⟨rangePrefixBase addr + bits, addr, proto, Maps.maskPort port bits⟩ with
  | none =>
    refine (Bits.longest_eq_none fun e member begins => ?_).symm
    obtain ⟨bits, small, _, stored⟩ := asked e member begins
    have missing := List.findSome?_eq_none_iff.mp found bits
      (List.mem_reverse.mpr (List.mem_range.mpr (by omega)))
    rw [missing] at stored
    cases stored
  | some sid =>
    obtain ⟨bits, below, here, above⟩ := Bits.findSome?_reverse_range found
    have canon := canonical _ _ here
    refine (Bits.longest_eq_some (e := (VipRangeKey.stored
      ⟨rangePrefixBase addr + bits, addr, proto, Maps.maskPort port bits⟩, sid)) ?_ ?_ ?_).symm
    · refine List.mem_map.mpr ⟨(_, sid), List.mem_filter.mpr ⟨FMap.get?_eq_some.mp here, ?_⟩, rfl⟩
      simp
    · obtain ⟨bits', small, prefixed, aligned⟩ := canon
      have same : bits' = bits := by
        simp only at prefixed
        omega
      subst same
      exact (begins_iff small prefixed aligned rfl port proto).mpr rfl
    · intro e' member begins longer
      obtain ⟨bits', small, length, stored⟩ := asked e' member begins
      have atLeast : bits ≤ bits' := by
        simp only [VipRangeKey.stored, length] at longer
        omega
      rcases Nat.lt_or_eq_of_le atLeast with larger | same
      · rw [above bits' larger (by omega)] at stored
        cases stored
      · subst same
        exact Option.some.inj (stored.symm.trans here)

end Rivora

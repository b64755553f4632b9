import Mathlib.Data.Nat.Digits.Lemmas
import Rivora.Net.Netip

/-! Addresses as numbers. -/

namespace Rivora.Netip

section Bytes

/-- The number that bytes in network order stand for. -/
def bytesValue (bytes : List UInt8) : Nat := Nat.ofDigits 256 (bytes.reverse.map UInt8.toNat)

theorem Addr.value_eq (a : Addr) : a.value = bytesValue a.asSlice := by
  -- The fold takes the most significant byte first, which is the last digit.
  rw [Addr.value, bytesValue, Nat.ofDigits_eq_foldr, List.map_reverse, List.foldr_reverse, List.foldl_map]
  congr 1
  funext n byte
  simp only [Nat.cast_id]
  omega

theorem bytesValue_concat (bytes : List UInt8) (byte : UInt8) :
    bytesValue (bytes ++ [byte]) = byte.toNat + 256 * bytesValue bytes := by
  simp [bytesValue, Nat.ofDigits_cons]

theorem toNat_lt_of_mem_map {bytes : List UInt8} {d : Nat} (mem : d ∈ bytes.map UInt8.toNat) : d < 256 := by
  obtain ⟨byte, _, rfl⟩ := List.mem_map.mp mem
  exact byte.toNat_lt

/-- A number of bytes has a bounded value. -/
theorem bytesValue_lt (bytes : List UInt8) : bytesValue bytes < 256 ^ bytes.length := by
  have bound := Nat.ofDigits_lt_base_pow_length (by decide : 1 < 256)
    fun d (mem : d ∈ bytes.reverse.map UInt8.toNat) => toNat_lt_of_mem_map mem
  simpa [bytesValue] using bound

/-- Bytes are determined by their number and value. -/
theorem bytesValue_injective {bytes bytes' : List UInt8} (sized : bytes.length = bytes'.length)
    (same : bytesValue bytes = bytesValue bytes') : bytes = bytes' := by
  have digits := Nat.ofDigits_inj_of_len_eq (by decide : 1 < 256) (by simpa using sized)
    (fun _ => toNat_lt_of_mem_map) (fun _ => toNat_lt_of_mem_map) same
  exact List.reverse_injective (List.map_injective_iff.mpr (fun _ _ => UInt8.toNat_inj.mp) digits)

/-- Every value that fits is that of some bytes. -/
theorem bytesValue_bytesOf {length n : Nat} (fits : n < 256 ^ length) : bytesValue (bytesOf length n) = n := by
  induction length generalizing n with
  | zero =>
    have zero : n = 0 := by simpa using fits
    simp [zero, bytesOf, bytesValue]
  | succ length ih =>
    have front : n / 256 < 256 ^ length := Nat.div_lt_of_lt_mul (by rwa [← Nat.pow_succ'])
    rw [bytesOf, bytesValue_concat, ih front, UInt8.toNat_ofNat']
    omega

/-- The carry adds one, unless all bytes are full. -/
theorem carry_spec (bytes : List UInt8) :
    match carry bytes with
    | none => bytesValue bytes.reverse + 1 = 256 ^ bytes.length
    | some next => bytesValue next.reverse = bytesValue bytes.reverse + 1 ∧ next.length = bytes.length := by
  induction bytes with
  | nil => rfl
  | cons byte rest ih =>
    have := byte.toNat_lt
    rw [carry]
    by_cases full : byte + 1 = 0
    · -- The byte is 255, and what is behind it is carried on.
      have top : byte.toNat = 255 := by
        have sum := congrArg UInt8.toNat full
        rw [UInt8.toNat_add] at sum
        simp at sum
        omega
      rw [if_neg (not_not.mpr full)]
      cases carried : carry rest with
      | none =>
        rw [carried] at ih
        simp only [Option.map_none, List.reverse_cons, bytesValue_concat, top, List.length_cons, Nat.pow_succ]
        simp only at ih
        omega
      | some next =>
        rw [carried] at ih
        simp only [Option.map_some, List.reverse_cons, bytesValue_concat, top, List.length_cons] at ih ⊢
        exact ⟨by simp; omega, by omega⟩
    · have sum : (byte + 1).toNat = byte.toNat + 1 := by
        have below : byte.toNat + 1 < 256 := by
          by_contra top
          have top : byte.toNat = 255 := by omega
          have last : byte = 255 := UInt8.toNat_inj.mp top
          exact full (last ▸ rfl)
        rw [UInt8.toNat_add]
        simp
        omega
      rw [if_pos full]
      simp only [List.reverse_cons, bytesValue_concat, sum, List.length_cons, and_true]
      omega

end Bytes

namespace Addr

theorem length_asSlice (a : Addr) : 8 * a.asSlice.length = a.bitLen := by
  cases a with
  | v4 bytes => simp [asSlice, bitLen]
  | v6 bytes zone => simp [asSlice, bitLen]

theorem value_lt (a : Addr) : a.value < 2 ^ a.bitLen := by
  have bound := bytesValue_lt a.asSlice
  rwa [← a.value_eq, show (256 : Nat) = 2 ^ 8 from rfl, ← Nat.pow_mul, a.length_asSlice] at bound

/-- An address is determined by family, zone and value. -/
theorem ext_value {a b : Addr} (family : a.bitLen = b.bitLen) (zone : a.zone = b.zone)
    (value : a.value = b.value) : a = b := by
  have sized : a.asSlice.length = b.asSlice.length := by
    have := a.length_asSlice
    have := b.length_asSlice
    omega
  rw [a.value_eq, b.value_eq] at value
  have bytes := bytesValue_injective sized value
  cases a with
  | v4 bytesA =>
    cases b with
    | v4 bytesB => exact congrArg v4 (Vector.toList_inj.mp bytes)
    | v6 bytesB zoneB => simp [bitLen] at family
  | v6 bytesA zoneA =>
    cases b with
    | v4 bytesB => simp [bitLen] at family
    | v6 bytesB zoneB => exact congrArg₂ v6 (Vector.toList_inj.mp bytes) zone

@[simp] theorem zone_withValue (a : Addr) (n : Nat) : (a.withValue n).zone = "" := by
  cases a with
  | v4 bytes => rfl
  | v6 bytes zone => rfl

theorem value_withValue (a : Addr) {n : Nat} (fits : n < 2 ^ a.bitLen) : (a.withValue n).value = n := by
  rw [value_eq]
  cases a with
  | v4 bytes => exact @bytesValue_bytesOf 4 n fits
  | v6 bytes zone => exact @bytesValue_bytesOf 16 n fits

theorem is4_eq_iff {a b : Addr} : a.is4 = b.is4 ↔ a.bitLen = b.bitLen := by
  cases a <;> cases b <;> simp [is4, bitLen]

end Addr

/-- As many bytes as an address has are an address of its family. -/
theorem addrFromSlice_spec {bytes : List UInt8} {a : Addr} (sized : bytes.length = a.asSlice.length) :
    ∃ b, addrFromSlice bytes = some b ∧ b.value = bytesValue bytes ∧ b.bitLen = a.bitLen ∧ b.zone = "" := by
  cases a with
  | v4 _ =>
    have four : bytes.length = 4 := by simpa [Addr.asSlice] using sized
    refine ⟨.v4 ⟨bytes.toArray, by simpa using four⟩, by simp [addrFromSlice, four], ?_, rfl, rfl⟩
    rw [Addr.value_eq]
    rfl
  | v6 _ _ =>
    have sixteen : bytes.length = 16 := by simpa [Addr.asSlice] using sized
    refine ⟨.v6 ⟨bytes.toArray, by simpa using sixteen⟩ "", by simp [addrFromSlice, sixteen], ?_, rfl, rfl⟩
    rw [Addr.value_eq]
    rfl

/-- The next address has the next value, unless there is none. -/
theorem nextAddr_spec (a : Addr) :
    (nextAddr a = none ∧ a.value + 1 = 2 ^ a.bitLen) ∨
      ∃ next, nextAddr a = some next ∧ next.value = a.value + 1 ∧ next.bitLen = a.bitLen ∧ next.zone = "" := by
  unfold nextAddr
  have carried := carry_spec a.asSlice.reverse
  cases found : carry a.asSlice.reverse with
  | none =>
    simp only [found, List.reverse_reverse, ← a.value_eq, List.length_reverse] at carried
    left
    refine ⟨rfl, ?_⟩
    rw [carried, show (256 : Nat) = 2 ^ 8 from rfl, ← Nat.pow_mul, a.length_asSlice]
  | some bytes =>
    simp only [found, List.reverse_reverse, ← a.value_eq, List.length_reverse] at carried
    right
    obtain ⟨next, made, value, family, zone⟩ :=
      @addrFromSlice_spec bytes.reverse a (by rw [List.length_reverse, carried.2])
    exact ⟨next, made, value.trans carried.1, family, zone⟩

namespace Prefix

variable (p : Prefix)

theorem value_network : p.network.value = p.addr.value / 2 ^ p.hostBits * 2 ^ p.hostBits :=
  p.addr.value_withValue ((Nat.div_mul_le_self ..).trans_lt p.addr.value_lt)

@[simp] theorem hostBits_masked : p.masked.hostBits = p.hostBits := by
  unfold hostBits masked network
  rw [Addr.bitLen_withValue]

theorem value_network_masked : p.masked.network.value = p.network.value := by
  have first : p.masked.addr.value = p.addr.value / 2 ^ p.hostBits * 2 ^ p.hostBits := p.value_network
  rw [value_network, value_network, hostBits_masked, first, Nat.mul_div_cancel _ (Nat.two_pow_pos _)]

/-- A prefix contains the addresses between its first and its last. -/
theorem contains_iff (a : Addr) : p.contains a = true ↔
    a.zone = "" ∧ a.bitLen = p.addr.bitLen ∧
      p.network.value ≤ a.value ∧ a.value < p.network.value + 2 ^ p.hostBits := by
  have positive : 0 < 2 ^ p.hostBits := Nat.two_pow_pos _
  simp only [contains, Bool.and_eq_true, decide_eq_true_eq, and_assoc, value_network]
  refine and_congr_right fun _ => and_congr_right fun _ => ?_
  generalize p.addr.value / 2 ^ p.hostBits = q
  rw [Nat.div_eq_iff positive]
  omega

theorem contains_masked (a : Addr) : p.masked.contains a = p.contains a := by
  have family : p.masked.addr.bitLen = p.addr.bitLen := by simp [masked, network]
  have quotient : p.masked.addr.value / 2 ^ p.hostBits = p.addr.value / 2 ^ p.hostBits := by
    have network : p.masked.addr.value = p.addr.value / 2 ^ p.hostBits * 2 ^ p.hostBits := p.value_network
    rw [network, Nat.mul_div_cancel _ (Nat.two_pow_pos _)]
  unfold contains
  rw [hostBits_masked, family, quotient]

end Prefix

end Rivora.Netip

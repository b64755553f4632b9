import Rivora.Bpf.Cells
import Rivora.Bpf.RangeTrie
import Rivora.ConfigLaws
import Rivora.Proofs.Program

/-! The endpoints VIPs answer for, as entries of the VIP maps. -/

namespace Rivora

variable {ip ip' : IP} {vip v : VIP} {c : Cell} {sid : Nat} {w : MapWrite}

section Addresses

theorem or_shiftLeft {low high width : Nat} (small : low < 2 ^ width) :
    low ||| high <<< width = low + high * 2 ^ width := by
  rw [Nat.or_comm, ← Nat.shiftLeft_add_eq_or_of_lt small, Nat.shiftLeft_eq, Nat.add_comm]

theorem toNat_ip4ToBE32 (ip : Vector UInt8 4) : (ip4ToBE32 ip).toNat = (ip.get 0).toNat +
    (ip.get 1).toNat * 2 ^ 8 + (ip.get 2).toNat * 2 ^ 16 + (ip.get 3).toNat * 2 ^ 24 := by
  change _ = ip[0].toNat + ip[1].toNat * 2 ^ 8 + ip[2].toNat * 2 ^ 16 + ip[3].toNat * 2 ^ 24
  have b0 : ip[0].toNat < 256 := ip[0].toNat_lt
  have b1 : ip[1].toNat < 256 := ip[1].toNat_lt
  have b2 : ip[2].toNat < 256 := ip[2].toNat_lt
  have b3 : ip[3].toNat < 256 := ip[3].toNat_lt
  -- No byte is shifted out of the word.
  have placed : ∀ (byte : UInt8) (k : UInt32), k.toNat ≤ 24 →
      (byte.toUInt32 <<< k).toNat = byte.toNat <<< k.toNat := by
    intro byte k inside
    have bound : byte.toNat < 256 := byte.toNat_lt
    have power : 2 ^ k.toNat ≤ 2 ^ 24 := Nat.pow_le_pow_right (by decide) inside
    have product : byte.toNat * 2 ^ k.toNat ≤ 255 * 2 ^ 24 := Nat.mul_le_mul (by omega) power
    rw [UInt32.toNat_shiftLeft, UInt8.toNat_toUInt32, Nat.mod_eq_of_lt (by omega : k.toNat < 32),
      Nat.shiftLeft_eq]
    exact Nat.mod_eq_of_lt (by omega)
  unfold ip4ToBE32
  rw [UInt32.toNat_or, UInt32.toNat_or, UInt32.toNat_or, placed _ 8 (by decide), placed _ 16 (by decide),
    placed _ 24 (by decide), UInt8.toNat_toUInt32]
  change ip[0].toNat ||| ip[1].toNat <<< 8 ||| ip[2].toNat <<< 16 ||| ip[3].toNat <<< 24 = _
  -- The bytes stand side by side, from the lowest on.
  have two : ip[0].toNat ||| ip[1].toNat <<< 8 = ip[0].toNat + ip[1].toNat * 2 ^ 8 :=
    or_shiftLeft (by omega)
  have three : ip[0].toNat + ip[1].toNat * 2 ^ 8 ||| ip[2].toNat <<< 16 =
      ip[0].toNat + ip[1].toNat * 2 ^ 8 + ip[2].toNat * 2 ^ 16 := or_shiftLeft (by omega)
  rw [two, three]
  exact or_shiftLeft (by omega)

/-- No two IPv4 addresses have one key. -/
theorem ip4ToBE32_injective : Function.Injective ip4ToBE32 := by
  intro a b same
  have sums := congrArg UInt32.toNat same
  rw [toNat_ip4ToBE32, toNat_ip4ToBE32] at sums
  change a[0].toNat + a[1].toNat * 2 ^ 8 + a[2].toNat * 2 ^ 16 + a[3].toNat * 2 ^ 24 =
    b[0].toNat + b[1].toNat * 2 ^ 8 + b[2].toNat * 2 ^ 16 + b[3].toNat * 2 ^ 24 at sums
  have bound : ∀ byte : UInt8, byte.toNat < 256 := fun byte => byte.toNat_lt
  have := bound a[0]
  have := bound a[1]
  have := bound a[2]
  have := bound a[3]
  have := bound b[0]
  have := bound b[1]
  have := bound b[2]
  have := bound b[3]
  -- Each byte is the remainder of the sum by its place, so they agree from the lowest on.
  ext i inside
  match i, inside with
  | 0, _ => omega
  | 1, _ => omega
  | 2, _ => omega
  | 3, _ => omega

/-- Addresses with one key are written alike. -/
theorem IP.text_of_toAddr (same : ip.toAddr = ip'.toAddr) : ip.text = ip'.text := by
  unfold IP.toAddr at same
  unfold IP.text
  cases first : ip.to4 with
  | none =>
    cases second : ip'.to4 with
    | none =>
      rw [first, second] at same
      rw [Addr.v6.inj same]
    | some ip4' =>
      rw [first, second] at same
      cases same
  | some ip4 =>
    cases second : ip'.to4 with
    | none =>
      rw [first, second] at same
      cases same
    | some ip4' =>
      rw [first, second] at same
      rw [ip4ToBE32_injective (Addr.v4.inj same)]
end Addresses

/-- An entry of the VIP maps, of either kind. -/
def Cell.IsKey (c : Cell) : Prop := (∃ key, c = .vip key) ∨ ∃ key, c = .vipRange key

/-- The entries of the VIP maps that belong to a VIP. -/
def vipCells (vip : VIP) (ip : IP) : List Cell :=
  if vip.isRange then
    (rangeBlocks vip.port vip.portEnd).map fun b =>
      .vipRange (rangeKey ip (protoByte vip.protocol) b)
  else [.vip (vipKey ip vip)]

/-- The entries of a VIP that are written. -/
theorem vipWrites_cells (vip : VIP) (ip : IP) (sid : Nat) :
    (vipWrites vip ip sid).map MapWrite.cell = vipCells vip ip := by
  unfold vipWrites vipCells
  split
  · rw [List.map_map]
    rfl
  · rfl

/-- The same ones are deleted. -/
theorem vipDeletes_cells (vip : VIP) (ip : IP) :
    (vipDeletes vip ip).map MapWrite.cell = vipCells vip ip := by
  unfold vipDeletes vipCells
  split
  · rw [List.map_map]
    rfl
  · rfl

theorem vipCells_kind (listed : c ∈ vipCells vip ip) : c.IsKey := by
  unfold vipCells at listed
  split at listed
  · obtain ⟨b, _, rfl⟩ := List.mem_map.mp listed
    exact Or.inr ⟨_, rfl⟩
  · exact Or.inl ⟨_, List.mem_singleton.mp listed⟩

theorem vipWrites_kind (member : w ∈ vipWrites vip ip sid) : w.cell.IsKey := by
  have listed := List.mem_map_of_mem (f := MapWrite.cell) member
  rw [vipWrites_cells] at listed
  exact vipCells_kind listed

theorem vipWrites_unique {v : MapWrite}
    (first : v ∈ vipWrites vip ip sid) (second : w ∈ vipWrites vip ip sid)
    (same : v.cell = w.cell) : v = w := by
  unfold vipWrites at first second
  split at first
  · rename_i range
    rw [if_pos range] at second
    obtain ⟨b, _, rfl⟩ := List.mem_map.mp first
    obtain ⟨b', _, rfl⟩ := List.mem_map.mp second
    rw [Cell.vipRange.inj same]
  · rename_i exact
    rw [if_neg exact] at second
    rw [List.mem_singleton.mp first, List.mem_singleton.mp second]

theorem vipDeletes_unique {v : MapWrite} (first : v ∈ vipDeletes vip ip)
    (second : w ∈ vipDeletes vip ip) (same : v.cell = w.cell) : v = w := by
  unfold vipDeletes at first second
  split at first
  · rename_i range
    rw [if_pos range] at second
    obtain ⟨b, _, rfl⟩ := List.mem_map.mp first
    obtain ⟨b', _, rfl⟩ := List.mem_map.mp second
    rw [Cell.vipRange.inj same]
  · rename_i exact
    rw [if_neg exact] at second
    rw [List.mem_singleton.mp first, List.mem_singleton.mp second]

/-- Two VIPs can be programmed side by side. -/
structure VIP.Compatible (v w : VIP) : Prop where
  /-- One address and protocol is written in one way. -/
  spelling : parseAddr v.address = parseAddr w.address →
    protoByte v.protocol = protoByte w.protocol → v.address = w.address ∧ v.protocol = w.protocol
  /-- Two ranges of one address and protocol are the same range or share no port. -/
  apart : v.address = w.address → v.protocol = w.protocol → v.isRange = true → w.isRange = true →
    (v.port = w.port ∧ v.portEnd = w.portEnd) ∨ v.portEnd < w.port ∨ w.portEnd < v.port

theorem vipKeyString_congr {w : VIP} (address : v.address = w.address) (port : v.port = w.port)
    (portEnd : v.portEnd = w.portEnd) (protocol : v.protocol = w.protocol) :
    vipKeyString v = vipKeyString w := by
  unfold vipKeyString VIP.portLabel VIP.isRange
  rw [address, port, portEnd, protocol]

/-- VIPs with one name have the same entries. -/
theorem vipCells_congr {w : VIP} (same : vipKeyString v = vipKeyString w) (ip : IP) :
    vipCells v ip = vipCells w ip := by
  obtain ⟨_, port, portEnd, protocol⟩ := vipKeyString_inj same
  unfold vipCells VIP.isRange vipKey
  rw [port, portEnd, protocol]

/-- A write that maps an endpoint to a service. -/
inductive MapWrite.IsKey : MapWrite → Prop
  | vip (key : VipKey) (sid : Nat) : (MapWrite.setVip key sid).IsKey
  | range (key : VipRangeKey) (sid : Nat) : (MapWrite.setVipRange key sid).IsKey

theorem vipWrites_isKey (member : w ∈ vipWrites vip ip sid) : w.IsKey := by
  unfold vipWrites at member
  split at member
  · obtain ⟨b, _, rfl⟩ := List.mem_map.mp member
    exact .range _ _
  · rw [List.mem_singleton.mp member]
    exact .vip _ _

theorem MapWrite.IsKey.cell (isKey : w.IsKey) : w.cell.IsKey := by
  cases isKey with
  | vip key _ => exact Or.inl ⟨key, rfl⟩
  | range key _ => exact Or.inr ⟨key, rfl⟩

theorem MapWrite.IsKey.unique {v : MapWrite} (first : v.IsKey) (second : w.IsKey)
    (same : v.cell = w.cell) {m : Maps} (holds : v.Holds m) (holds' : w.Holds m) : v = w := by
  cases first with
  | vip key sid =>
    cases second with
    | vip key' sid' =>
      cases same
      rw [Option.some.inj (Eq.trans (Eq.symm holds) holds')]
    | range => cases same
  | range key sid =>
    cases second with
    | vip => cases same
    | range key' sid' =>
      cases same
      rw [Option.some.inj (Eq.trans (Eq.symm holds) holds')]

theorem MapWrite.IsKey.not_deleted {v : MapWrite} {m : Maps} (isKey : w.IsKey)
    (deleted : v ∈ vipDeletes vip ip) (same : v.cell = w.cell) (gone : v.Holds m) : ¬ w.Holds m := by
  intro holds
  unfold vipDeletes at deleted
  -- Deleting and mapping one endpoint name the same map, which cannot hold both.
  split at deleted
  · obtain ⟨b, _, rfl⟩ := List.mem_map.mp deleted
    cases isKey with
    | vip => cases same
    | range key sid =>
      cases same
      exact Option.some_ne_none sid (Eq.trans (Eq.symm holds) gone)
  · rw [List.mem_singleton.mp deleted] at same gone
    cases isKey with
    | vip key sid =>
      cases same
      exact Option.some_ne_none sid (Eq.trans (Eq.symm holds) gone)
    | range => cases same

/-- VIPs that share an entry share address, protocol and a port. -/
theorem vipCells_common {w : VIP} (mine : c ∈ vipCells v ip)
    (theirs : c ∈ vipCells w ip') :
    ip.toAddr = ip'.toAddr ∧ protoByte v.protocol = protoByte w.protocol ∧
      ((v.isRange = false ∧ w.isRange = false ∧ v.port = w.port) ∨
        (v.isRange = true ∧ w.isRange = true ∧ v.port ≤ w.portEnd ∧ w.port ≤ v.portEnd)) := by
  unfold vipCells at mine theirs
  split at mine
  · rename_i range
    obtain ⟨b, member, rfl⟩ := List.mem_map.mp mine
    split at theirs
    · rename_i range'
      obtain ⟨b', member', same⟩ := List.mem_map.mp theirs
      simp only [Cell.vipRange.injEq, rangeKey, VipRangeKey.mk.injEq] at same
      obtain ⟨_, addr, proto, port⟩ := same
      have sharedPort := htons_inj port
      -- The first port of the common block lies in both ranges.
      obtain ⟨_, low, _, high⟩ := mem_rangeBlocks member
      obtain ⟨_, low', _, high'⟩ := mem_rangeBlocks member'
      have size : 0 < b.size := Nat.two_pow_pos _
      have size' : 0 < b'.size := Nat.two_pow_pos _
      rw [sharedPort] at low' high'
      refine ⟨addr.symm, proto.symm, Or.inr ⟨range, range', ?_, ?_⟩⟩
      · exact UInt16.le_iff_toNat_le.mpr (by omega)
      · exact UInt16.le_iff_toNat_le.mpr (by omega)
    · rw [List.mem_singleton] at theirs
      cases theirs
  · rename_i single
    rw [List.mem_singleton] at mine
    subst mine
    split at theirs
    · obtain ⟨b', _, same⟩ := List.mem_map.mp theirs
      cases same
    · rename_i single'
      simp only [List.mem_singleton, Cell.vip.injEq, vipKey, VipKey.mk.injEq] at theirs
      obtain ⟨addr, port, proto⟩ := theirs
      exact ⟨addr, proto, Or.inl ⟨Bool.eq_false_iff.mpr single, Bool.eq_false_iff.mpr single',
        htons_inj port⟩⟩

theorem portEnd_of_single (single : v.isRange = false) : v.portEnd = 0 := by
  simpa [VIP.isRange] using single

/-- Compatible VIPs with two names share no entry. -/
theorem vipCells_disjoint {w : VIP} (compatible : v.Compatible w)
    (differ : vipKeyString v ≠ vipKeyString w) (parsed : parseIP v.address = some ip)
    (parsed' : parseIP w.address = some ip') (mine : c ∈ vipCells v ip) :
    c ∉ vipCells w ip' := by
  intro theirs
  obtain ⟨addr, proto, ports⟩ := vipCells_common mine theirs
  -- One entry for both is one address and protocol, and so one spelling.
  have sameAddr : parseAddr v.address = parseAddr w.address := by
    simp only [parseAddr, parsed, parsed', Option.map_some, addr]
  obtain ⟨address, protocol⟩ := compatible.spelling sameAddr proto
  rcases ports with ⟨single, single', port⟩ | ⟨range, range', low, high⟩
  · have ends := (portEnd_of_single single).trans (portEnd_of_single single').symm
    exact differ (vipKeyString_congr address port ends protocol)
  · rcases compatible.apart address protocol range range' with ⟨start, stop⟩ | below | above
    · exact differ (vipKeyString_congr address start stop protocol)
    · exact absurd below (UInt16.not_lt.mpr high)
    · exact absurd above (UInt16.not_lt.mpr low)

end Rivora

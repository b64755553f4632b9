import Mathlib.Data.Nat.Log
import Mathlib.Tactic.Positivity
import Rivora.Net.Address

/-! Port ranges as the aligned power-of-two blocks a longest-prefix trie can hold. -/

namespace Rivora

/-- An aligned block of `2 ^ (16 - bits)` ports: the first `bits` bits of the port are fixed. -/
structure PortBlock where
  port : UInt16
  bits : Nat
  deriving DecidableEq, Repr

/-- How many ports a block holds. -/
def PortBlock.size (b : PortBlock) : Nat := 2 ^ (16 - b.bits)

/-- The largest power of two, from `size` on, that stays aligned at `cur` and inside the range. -/
def growBlock : (fuel : Nat) → (cur last size : Nat) → Nat
  | 0, _, _, size => size
  | fuel + 1, cur, last, size =>
    if size < 2 ^ 15 ∧ cur % (size * 2) = 0 ∧ cur + size * 2 - 1 ≤ last then
      growBlock fuel cur last (size * 2)
    else size

/-- The blocks from `cur` to `last`; each holds a port, so as many steps as ports suffice. -/
def rangeBlocksFrom : (fuel : Nat) → (cur last : Nat) → List PortBlock
  | 0, _, _ => []
  | fuel + 1, cur, last =>
    if cur ≤ last then
      -- Doubling stops at the fifteenth power at the latest.
      let size := growBlock 15 cur last 1
      ⟨UInt16.ofNat cur, 16 - Nat.log2 size⟩ :: rangeBlocksFrom fuel (cur + size) last
    else []

/-- The blocks that tile the ports from `lo` to `hi`. -/
def rangeBlocks (lo hi : UInt16) : List PortBlock :=
  rangeBlocksFrom (hi.toNat + 1 - lo.toNat) lo.toNat hi.toNat

theorem growBlock_spec {fuel cur last exponent : Nat} (small : exponent ≤ 15)
    (aligned : cur % 2 ^ exponent = 0) (inside : cur + 2 ^ exponent ≤ last + 1) :
    ∃ e, e ≤ 15 ∧ growBlock fuel cur last (2 ^ exponent) = 2 ^ e ∧ cur % 2 ^ e = 0 ∧
      cur + 2 ^ e ≤ last + 1 := by
  -- The exponent counts the doublings made so far.
  induction fuel generalizing exponent with
  | zero => exact ⟨exponent, small, rfl, aligned, inside⟩
  | succ fuel ih =>
    simp only [growBlock]
    split
    · rename_i grows
      obtain ⟨below, even, fits⟩ := grows
      have next : 2 ^ exponent * 2 = 2 ^ (exponent + 1) := (Nat.pow_succ _ _).symm
      have bound : exponent < 15 := (Nat.pow_lt_pow_iff_right (by omega)).mp below
      have positive : 0 < 2 ^ (exponent + 1) := by positivity
      rw [next] at even fits ⊢
      exact ih (by omega) even (by omega)
    · exact ⟨exponent, small, rfl, aligned, inside⟩

theorem le_growBlock {fuel cur last exponent k : Nat} (enough : k ≤ exponent + fuel) (small : k ≤ 15)
    (aligned : cur % 2 ^ k = 0) (inside : cur + 2 ^ k ≤ last + 1) :
    2 ^ k ≤ growBlock fuel cur last (2 ^ exponent) := by
  induction fuel generalizing exponent with
  | zero => exact Nat.pow_le_pow_right (by omega) enough
  | succ fuel ih =>
    simp only [growBlock]
    split
    · rw [← Nat.pow_succ]
      exact ih (by omega)
    · rename_i stops
      rcases Nat.lt_or_ge exponent k with smaller | reached
      · -- The next power divides the larger one, so the block could have been doubled.
        have next : 2 ^ (exponent + 1) ∣ 2 ^ k := Nat.pow_dvd_pow 2 smaller
        have narrower := Nat.le_of_dvd (Nat.two_pow_pos k) next
        have even := Nat.mod_eq_zero_of_dvd (next.trans (Nat.dvd_of_mod_eq_zero aligned))
        rw [← Nat.pow_succ] at stops
        exact absurd ⟨Nat.pow_lt_pow_right (by omega) (by omega), even, by omega⟩ stops
      · exact Nat.pow_le_pow_right (by omega) reached

theorem rangeBlocksFrom_succ {cur last : Nat} (fuel : Nat) (bounded : last < 2 ^ 16) (inside : cur ≤ last) :
    ∃ b : PortBlock, rangeBlocksFrom (fuel + 1) cur last = b :: rangeBlocksFrom fuel (cur + b.size) last ∧
      b.port.toNat = cur ∧ b.bits ≤ 16 ∧ cur % b.size = 0 ∧ cur + b.size ≤ last + 1 ∧
      ∀ k ≤ 15, cur % 2 ^ k = 0 → cur + 2 ^ k ≤ last + 1 → 2 ^ k ≤ b.size := by
  obtain ⟨e, small, grown, aligned, fits⟩ :=
    @growBlock_spec 15 cur last 0 (by omega) (by simp [Nat.mod_one]) (by omega)
  rw [Nat.pow_zero] at grown
  have width : PortBlock.size ⟨UInt16.ofNat cur, 16 - e⟩ = 2 ^ e := by
    rw [PortBlock.size, show 16 - (16 - e) = e by omega]
  have start : (UInt16.ofNat cur).toNat = cur := UInt16.toNat_ofNat_of_lt' (by rw [UInt16.size]; omega)
  refine ⟨⟨UInt16.ofNat cur, 16 - e⟩, ?_, start, Nat.sub_le _ _, ?_⟩
  · simp only [rangeBlocksFrom, if_pos inside, grown, Nat.log2_two_pow, width]
  · rw [width]
    refine ⟨aligned, fits, fun k below even within => ?_⟩
    rw [← grown]
    exact @le_growBlock 15 cur last 0 k (by omega) below even within

theorem mem_rangeBlocksFrom {fuel cur last : Nat} (bounded : last < 2 ^ 16) {b : PortBlock}
    (member : b ∈ rangeBlocksFrom fuel cur last) :
    b.bits ≤ 16 ∧ cur ≤ b.port.toNat ∧ b.port.toNat % b.size = 0 ∧
      b.port.toNat + b.size ≤ last + 1 := by
  induction fuel generalizing cur with
  | zero => cases member
  | succ fuel ih =>
    rcases Nat.lt_or_ge last cur with done | inside
    · rw [rangeBlocksFrom, if_neg (by omega)] at member
      cases member
    · obtain ⟨first, blocks, rfl, small, aligned, fits, -⟩ := rangeBlocksFrom_succ fuel bounded inside
      rw [blocks] at member
      obtain rfl | later := List.mem_cons.mp member
      · exact ⟨small, Nat.le_refl _, aligned, fits⟩
      · obtain ⟨bits, above, rest⟩ := ih later
        exact ⟨bits, by omega, rest⟩

theorem mem_rangeBlocks {lo hi : UInt16} {b : PortBlock} (member : b ∈ rangeBlocks lo hi) :
    b.bits ≤ 16 ∧ lo.toNat ≤ b.port.toNat ∧ b.port.toNat % b.size = 0 ∧
      b.port.toNat + b.size ≤ hi.toNat + 1 :=
  mem_rangeBlocksFrom hi.toNat_lt member

theorem rangeBlocksFrom_covers {fuel cur last port : Nat} (bounded : last < 2 ^ 16)
    (enough : last + 1 - cur ≤ fuel) (above : cur ≤ port) (below : port ≤ last) :
    ∃ b ∈ rangeBlocksFrom fuel cur last, b.port.toNat ≤ port ∧ port < b.port.toNat + b.size := by
  induction fuel generalizing cur with
  | zero => omega
  | succ fuel ih =>
    obtain ⟨first, blocks, rfl, -⟩ := rangeBlocksFrom_succ fuel bounded (above.trans below)
    rw [blocks]
    -- The port is in the first block, or in one of those that follow it.
    by_cases here : port < first.port.toNat + first.size
    · exact ⟨first, List.mem_cons_self, above, here⟩
    · have positive : 0 < first.size := Nat.two_pow_pos _
      obtain ⟨b, member, holds⟩ := ih (by omega) (Nat.le_of_not_lt here)
      exact ⟨b, List.mem_cons_of_mem _ member, holds⟩

theorem rangeBlocks_ports {lo hi port : UInt16} :
    (∃ b ∈ rangeBlocks lo hi, b.port.toNat ≤ port.toNat ∧ port.toNat < b.port.toNat + b.size) ↔
      lo ≤ port ∧ port ≤ hi := by
  rw [UInt16.le_iff_toNat_le, UInt16.le_iff_toNat_le]
  constructor
  · rintro ⟨b, member, from_, to_⟩
    obtain ⟨_, low, _, high⟩ := mem_rangeBlocks member
    omega
  · rintro ⟨above, below⟩
    exact rangeBlocksFrom_covers hi.toNat_lt (Nat.le_refl _) above below

example : rangeBlocks 30000 30100 =
    [⟨30000, 12⟩, ⟨30016, 10⟩, ⟨30080, 12⟩, ⟨30096, 14⟩, ⟨30100, 16⟩] := by decide

end Rivora

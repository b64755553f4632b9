import Rivora.Dataplane.Adopt

/-! The blocks a range of ports is stored as, and the range that adoption reads back from them. -/

namespace Rivora

namespace PortBlock

/-- A power of two of ports, from a multiple of it on. -/
def Aligned (b : PortBlock) : Prop := b.bits ≤ 16 ∧ b.port.toNat % b.size = 0

/-- A port of a block. -/
def Holds (b : PortBlock) (port : Nat) : Prop := b.port.toNat ≤ port ∧ port < b.port.toNat + b.size

theorem size_pos (b : PortBlock) : 0 < b.size := Nat.two_pow_pos _

theorem holds_first (b : PortBlock) : b.Holds b.port.toNat :=
  ⟨Nat.le_refl _, Nat.lt_add_of_pos_right b.size_pos⟩

/-- Aligned blocks between two ports that hold a port lie inside this block. -/
def Widest (lo last : Nat) (b : PortBlock) : Prop :=
  ∀ c : PortBlock, c.Aligned → lo ≤ c.port.toNat → c.port.toNat + c.size ≤ last + 1 → c.Holds b.port.toNat →
    b.port.toNat ≤ c.port.toNat ∧ c.port.toNat + c.size ≤ b.port.toNat + b.size

end PortBlock

/-- Aligned blocks between two ports that hold a port start with it. -/
def Starts (lo last cur : Nat) : Prop :=
  ∀ c : PortBlock, c.Aligned → lo ≤ c.port.toNat → c.port.toNat + c.size ≤ last + 1 → c.Holds cur →
    c.port.toNat = cur

section Tiling

variable {lo last cur fuel : Nat} {b c : PortBlock}

theorem add_le_of_dvd {g x y : Nat} (left : g ∣ x) (right : g ∣ y) (less : x < y) : x + g ≤ y := by
  have gap := Nat.le_of_dvd (by omega) (Nat.dvd_sub right left)
  omega

theorem PortBlock.Widest.next (widest : b.Widest lo last) (first : b.port.toNat = cur)
    (aligned : cur % b.size = 0) : Starts lo last (cur + b.size) := by
  intro c tidy low high holds
  obtain ⟨before, behind⟩ := holds
  by_contra apart
  have earlier : c.port.toNat < cur + b.size := by omega
  have start := Nat.dvd_of_mod_eq_zero tidy.2
  have stop : b.size ∣ cur + b.size := (Nat.dvd_of_mod_eq_zero aligned).add (Nat.dvd_refl _)
  -- Of two powers of two one divides the other.
  rcases Nat.le_total (16 - b.bits) (16 - c.bits) with narrow | wide
  · have divides : b.size ∣ c.size := Nat.pow_dvd_pow 2 narrow
    have room := add_le_of_dvd (divides.trans start) stop earlier
    have inside := widest c tidy low high ⟨by omega, by omega⟩
    omega
  · have divides : c.size ∣ b.size := Nat.pow_dvd_pow 2 wide
    have room := add_le_of_dvd start (divides.trans stop) earlier
    omega

theorem rangeBlocksFrom_widest (positive : 0 < lo) (bounded : last < 2 ^ 16) (starts : Starts lo last cur) :
    ∀ b ∈ rangeBlocksFrom fuel cur last, b.Widest lo last := by
  induction fuel generalizing cur with
  | zero => exact fun b member => by cases member
  | succ fuel ih =>
    intro b member
    rcases Nat.lt_or_ge last cur with done | inside
    · rw [rangeBlocksFrom, if_neg (by omega)] at member
      cases member
    · obtain ⟨first, blocks, rfl, -, aligned, -, largest⟩ := rangeBlocksFrom_succ fuel bounded inside
      have widest : first.Widest lo last := by
        intro c tidy low high holds
        have same := starts c tidy low high holds
        -- A block of half the ports or more that starts above zero ends with the last port.
        have narrow : 16 - c.bits ≤ 15 := by
          have multiple := Nat.le_of_dvd (by omega) (Nat.dvd_of_mod_eq_zero tidy.2)
          refine Nat.le_of_lt_succ ((Nat.pow_lt_pow_iff_right (show 1 < 2 by omega)).mp ?_)
          rw [PortBlock.size] at multiple high
          omega
        have fits := largest _ narrow (same ▸ tidy.2) (same ▸ high)
        exact ⟨same.ge, by rw [same]; exact Nat.add_le_add_left fits _⟩
      rw [blocks] at member
      obtain rfl | later := List.mem_cons.mp member
      · exact widest
      · exact ih (widest.next rfl aligned) b later

theorem rangeBlocksFrom_ordered (bounded : last < 2 ^ 16) :
    (rangeBlocksFrom fuel cur last).Pairwise fun b c => b.port.toNat + b.size ≤ c.port.toNat := by
  induction fuel generalizing cur with
  | zero => exact .nil
  | succ fuel ih =>
    rcases Nat.lt_or_ge last cur with done | inside
    · rw [rangeBlocksFrom, if_neg (by omega)]
      exact .nil
    · obtain ⟨first, blocks, rfl, -⟩ := rangeBlocksFrom_succ fuel bounded inside
      rw [blocks]
      exact List.pairwise_cons.mpr ⟨fun c later => (mem_rangeBlocksFrom bounded later).2.1, ih⟩

theorem rangeBlocksFrom_stable (enough : last + 1 - cur ≤ fuel) (more : Nat) :
    rangeBlocksFrom (fuel + more) cur last = rangeBlocksFrom fuel cur last := by
  induction fuel generalizing cur with
  | zero =>
    cases more with
    | zero => rfl
    | succ more => rw [Nat.zero_add, rangeBlocksFrom, rangeBlocksFrom, if_neg (by omega)]
  | succ fuel ih =>
    rw [Nat.add_right_comm, rangeBlocksFrom, rangeBlocksFrom]
    split
    · have positive : 1 ≤ growBlock 15 cur last 1 :=
        @le_growBlock 15 cur last 0 0 (by omega) (by omega) (Nat.mod_one _) (by omega)
      exact congrArg _ (ih (by omega))
    · rfl

theorem growBlock_stable {exponent : Nat} (enough : 15 ≤ exponent + fuel) (more : Nat) :
    growBlock (fuel + more) cur last (2 ^ exponent) = growBlock fuel cur last (2 ^ exponent) := by
  induction fuel generalizing exponent with
  | zero =>
    cases more with
    | zero => rfl
    | succ more =>
      have large : 2 ^ 15 ≤ 2 ^ exponent := Nat.pow_le_pow_right (by omega) (by omega)
      rw [Nat.zero_add, growBlock, growBlock, if_neg (by omega)]
  | succ fuel ih =>
    rw [Nat.add_right_comm, growBlock, growBlock, ← Nat.pow_succ, ih (by omega)]

theorem foldl_min_eq {α : Type} [LinearOrder α] {least start : α} {values : List α}
    (member : least ∈ start :: values) (below : ∀ x ∈ start :: values, least ≤ x) :
    values.foldl min start = least := by
  induction values generalizing start with
  | nil => exact (List.mem_singleton.mp member).symm
  | cons x values ih =>
    obtain ⟨first, second, rest⟩ : least ≤ start ∧ least ≤ x ∧ ∀ y ∈ values, least ≤ y := by simpa using below
    refine ih ?_ (List.forall_mem_cons.mpr ⟨le_min first second, rest⟩)
    obtain rfl | rfl | later := by simpa using member
    · rw [min_eq_left second]
      exact List.mem_cons_self
    · rw [min_eq_right first]
      exact List.mem_cons_self
    · exact List.mem_cons_of_mem _ later

end Tiling

/-- The blocks of a range: in order, tiling it, and as few as possible. -/
structure Tiling (lo hi : UInt16) (blocks : List PortBlock) : Prop where
  stops : ∀ more, rangeBlocksFrom (hi.toNat + 1 - lo.toNat + more) lo.toNat hi.toNat = blocks
  doubled : ∀ cur more, growBlock (15 + more) cur hi.toNat 1 = growBlock 15 cur hi.toNat 1
  aligned : ∀ b ∈ blocks, b.Aligned
  ordered : blocks.Pairwise fun b c => b.port.toNat + b.size ≤ c.port.toNat
  covers : ∀ port, (∃ b ∈ blocks, b.Holds port) ↔ lo.toNat ≤ port ∧ port ≤ hi.toNat
  fewest : ∀ cover : List PortBlock, (∀ b ∈ cover, b.Aligned) →
    (∀ port, (∃ b ∈ cover, b.Holds port) ↔ lo.toNat ≤ port ∧ port ≤ hi.toNat) → blocks.length ≤ cover.length

section Ranges

variable {lo hi : UInt16}

theorem holds_rangeBlocks (port : Nat) :
    (∃ b ∈ rangeBlocks lo hi, b.Holds port) ↔ lo.toNat ≤ port ∧ port ≤ hi.toNat := by
  constructor
  · rintro ⟨b, member, above, below⟩
    obtain ⟨-, low, -, high⟩ := mem_rangeBlocks member
    omega
  · rintro ⟨above, below⟩
    exact rangeBlocksFrom_covers hi.toNat_lt (Nat.le_refl _) above below

theorem rangeBlocks_nodup : (rangeBlocks lo hi).Nodup := by
  refine (rangeBlocksFrom_ordered hi.toNat_lt).imp fun {b c} behind => ?_
  rintro rfl
  have := b.size_pos
  omega

theorem rangeBlocks_fewest (positive : 1 ≤ lo) {cover : List PortBlock} (aligned : ∀ b ∈ cover, b.Aligned)
    (covers : ∀ port, (∃ b ∈ cover, b.Holds port) ↔ lo.toNat ≤ port ∧ port ≤ hi.toNat) :
    (rangeBlocks lo hi).length ≤ cover.length := by
  have above : 0 < lo.toNat := UInt16.le_iff_toNat_le.mp positive
  have widest : ∀ b ∈ rangeBlocks lo hi, b.Widest lo.toNat hi.toNat :=
    rangeBlocksFrom_widest above hi.toNat_lt fun c _ low _ holds => Nat.le_antisymm holds.1 low
  have inner : ∀ b ∈ rangeBlocks lo hi, ∃ c ∈ cover, b.Holds c.port.toNat := by
    intro b member
    obtain ⟨-, low, -, high⟩ := mem_rangeBlocks member
    have := b.size_pos
    obtain ⟨c, listed, holds⟩ := (covers b.port.toNat).mpr ⟨low, by omega⟩
    have first := (covers _).mp ⟨c, listed, c.holds_first⟩
    have last := (covers (c.port.toNat + c.size - 1)).mp ⟨c, listed, by
      have := c.size_pos
      constructor <;> omega⟩
    have inside := widest b member c (aligned c listed) first.1 (by omega) holds
    have := c.size_pos
    exact ⟨c, listed, inside.1, by omega⟩
  choose! pick picked holds using inner
  have distinct : ((rangeBlocks lo hi).map pick).Nodup := by
    refine List.pairwise_map.mpr ((rangeBlocksFrom_ordered hi.toNat_lt).imp_of_mem ?_)
    intro b c member member' behind same
    have first := holds b member
    have second := holds c member'
    rw [same] at first
    exact absurd (first.2.trans_le behind) (Nat.not_lt.mpr second.1)
  have among : (rangeBlocks lo hi).map pick ⊆ cover := fun c listed => by
    obtain ⟨b, member, rfl⟩ := List.mem_map.mp listed
    exact picked b member
  simpa using (distinct.subperm among).length_le

theorem rangeBlocks_tiling (positive : 1 ≤ lo) : Tiling lo hi (rangeBlocks lo hi) where
  stops := rangeBlocksFrom_stable (Nat.le_refl _)
  doubled := fun cur more => @growBlock_stable hi.toNat cur 15 0 (Nat.le_refl _) more
  aligned := fun _ member => ⟨(mem_rangeBlocks member).1, (mem_rangeBlocks member).2.2.1⟩
  ordered := rangeBlocksFrom_ordered hi.toNat_lt
  covers := holds_rangeBlocks
  fewest := fun _ => rangeBlocks_fewest positive

theorem blocksSpan_eq_some {blocks : List PortBlock} :
    blocksSpan blocks = some (lo, hi) ↔ 1 ≤ lo ∧ lo < hi ∧ blocks.Perm (rangeBlocks lo hi) := by
  constructor
  · intro accepted
    unfold blocksSpan at accepted
    dsimp only at accepted
    split at accepted
    · cases accepted
    · split at accepted
      · cases accepted
      · rename_i bounds
        split at accepted
        · cases accepted
        · rename_i sized
          split at accepted
          · rename_i found
            obtain ⟨rfl, rfl⟩ := Prod.mk.inj (Option.some.inj accepted)
            rw [UInt16.le_iff_toNat_le, UInt16.lt_iff_toNat_lt,
              UInt16.toNat_ofNat_of_lt' (by rw [UInt16.size]; omega),
              UInt16.toNat_ofNat_of_lt' (by rw [UInt16.size]; omega)]
            refine ⟨Nat.one_le_iff_ne_zero.mpr (by omega), by omega, List.Perm.symm ?_⟩
            -- As many blocks, none of them twice, and each of them found.
            refine (rangeBlocks_nodup.subperm fun b member => ?_).perm_of_length_le (by omega)
            simpa using List.all_eq_true.mp found b member
          · cases accepted
  · rintro ⟨positive, less, perm⟩
    have above : 1 ≤ lo.toNat := UInt16.le_iff_toNat_le.mp positive
    have apart : lo.toNat < hi.toNat := UInt16.lt_iff_toNat_lt.mp less
    have bound := hi.toNat_lt
    have inside : ∀ b ∈ blocks, b.bits ≤ 16 ∧ lo.toNat ≤ b.port.toNat ∧ b.port.toNat + b.size ≤ hi.toNat + 1 := by
      intro b member
      obtain ⟨bits, low, -, high⟩ := mem_rangeBlocks (perm.mem_iff.mp member)
      exact ⟨bits, low, high⟩
    obtain ⟨first, listed, start⟩ := (holds_rangeBlocks lo.toNat).mpr ⟨Nat.le_refl _, apart.le⟩
    obtain ⟨last, listed', stop⟩ := (holds_rangeBlocks hi.toNat).mpr ⟨apart.le, Nat.le_refl _⟩
    rw [← perm.mem_iff] at listed listed'
    have least : (blocks.map fun b => b.port.toNat).foldl min (2 ^ 16) = lo.toNat := by
      refine foldl_min_eq (List.mem_cons_of_mem _ (List.mem_map.mpr ⟨first, listed, ?_⟩)) ?_
      · exact Nat.le_antisymm start.1 (inside first listed).2.1
      · simpa using ⟨by omega, fun b member => (inside b member).2.1⟩
    -- The greatest is the least of the order turned around.
    have greatest : (blocks.map fun b => b.port.toNat + b.size - 1).foldl max 0 = hi.toNat := by
      refine foldl_min_eq (α := ℕᵒᵈ) (List.mem_cons_of_mem _ (List.mem_map.mpr ⟨last, listed', ?_⟩)) ?_
      · have := inside last listed'
        have := stop.2
        exact show last.port.toNat + last.size - 1 = hi.toNat by omega
      · refine List.forall_mem_cons.mpr ⟨Nat.zero_le _, fun x member => ?_⟩
        obtain ⟨b, listed, rfl⟩ := List.mem_map.mp member
        have := inside b listed
        exact show b.port.toNat + b.size - 1 ≤ hi.toNat by omega
    unfold blocksSpan
    dsimp only
    rw [least, greatest, UInt16.ofNat_toNat, UInt16.ofNat_toNat, if_neg, if_neg (by omega),
      if_neg (by simpa using perm.length_eq.symm), if_pos]
    · simpa using fun b member => perm.mem_iff.mpr member
    · simp only [not_or, List.any_eq_true, not_exists, not_and, decide_eq_true_eq, Nat.not_lt]
      exact ⟨List.ne_nil_of_mem listed, fun b member => (inside b member).1⟩

end Ranges

/-- The number of fixed bits is signed, and one below zero is refused with those above sixteen. -/
def blocksSpanSigned (blocks : List (UInt16 × Int)) : Option (UInt16 × UInt16) :=
  if blocks.any (fun b => b.2 < 0) then none
  else blocksSpan (blocks.map fun b => ⟨b.1, b.2.toNat⟩)

/-- A block with its number of fixed bits as the source has it. -/
def PortBlock.signed (b : PortBlock) : UInt16 × Int := (b.port, b.bits)

theorem PortBlock.signed_injective : Function.Injective PortBlock.signed := by
  rintro ⟨port, bits⟩ ⟨port', bits'⟩ same
  simpa [PortBlock.signed] using same

/-- A range is tiled by as few aligned blocks as can be, and only such a tiling is read back as the range. -/
theorem port_blocks_tile_ranges (lo hi : UInt16) :
    (1 ≤ lo → lo ≤ hi → Tiling lo hi (rangeBlocks lo hi)) ∧
      ∀ blocks, blocksSpanSigned blocks = some (lo, hi) ↔
        1 ≤ lo ∧ lo < hi ∧ blocks.Perm ((rangeBlocks lo hi).map PortBlock.signed) := by
  refine ⟨fun positive _ => rangeBlocks_tiling positive, fun blocks => ?_⟩
  unfold blocksSpanSigned
  split
  · rename_i negative
    obtain ⟨b, member, below⟩ := List.any_eq_true.mp negative
    refine ⟨(fun refused => by cases refused), fun tiled => ?_⟩
    obtain ⟨c, -, rfl⟩ := List.mem_map.mp (tiled.2.2.mem_iff.mp member)
    exact absurd (of_decide_eq_true below) (Int.not_lt.mpr (Int.natCast_nonneg _))
  · rename_i signs
    have plain : (blocks.map fun b => PortBlock.mk b.1 b.2.toNat).map PortBlock.signed = blocks := by
      rw [List.map_map]
      nth_rewrite 2 [← List.map_id blocks]
      refine List.map_congr_left fun b member => Prod.ext rfl (Int.toNat_of_nonneg ?_)
      simp only [List.any_eq_true, not_exists, not_and, decide_eq_true_eq, Int.not_lt] at signs
      exact signs b member
    rw [blocksSpan_eq_some, ← List.map_perm_map_iff PortBlock.signed_injective, plain]

/-- Five blocks, the last of them first. -/
theorem shuffled_blocks_accepted :
    blocksSpanSigned [(30100, 16), (30000, 12), (30016, 10), (30080, 12), (30096, 14)] = some (30000, 30100) :=
  ((port_blocks_tile_ranges 30000 30100).2 _).mpr ⟨by decide, by decide, by decide⟩

end Rivora

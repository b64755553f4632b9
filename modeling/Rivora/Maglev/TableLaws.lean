import Mathlib.Algebra.Field.ZMod
import Mathlib.Data.List.Count
import Mathlib.Data.List.ReduceOption
import Mathlib.Tactic.Ring
import Rivora.Maglev.Table

/-! A table of prime size is always completed, and its slots name the backends given. -/

namespace Rivora.Maglev

variable {ve : VirtualEntry} {n remaining : Nat} {table : List (Option Nat)}

/-- A table is complete up to `remaining` slots and names only the first `n` backends. -/
structure Filling (m n remaining : Nat) (table : List (Option Nat)) : Prop where
  sized : table.length = m
  left : table.count none = remaining
  named : ∀ i ∈ table.reduceOption, i < n

/-- A virtual entry permutes the slots of an `m`-slot table for one of `n` backends. -/
structure VirtualEntry.Valid (m n : Nat) (ve : VirtualEntry) : Prop where
  moves : 0 < ve.skip
  short : ve.skip < m
  named : ve.backendIdx < n

/-- With a prime size, the probes of an entry reach every slot. -/
theorem permutation_reaches {m : Nat} (prime : m.Prime)
    (valid : ve.Valid m n) (start slot : Nat) (inside : slot < m) :
    ∃ j < m, (ve.offset + (start + j) * ve.skip) % m = slot := by
  -- The step count solves a linear equation in the field of residues.
  have : Fact m.Prime := ⟨prime⟩
  have nonzero : (ve.skip : ZMod m) ≠ 0 := by
    intro vanishes
    rw [ZMod.natCast_eq_zero_iff] at vanishes
    exact absurd (Nat.le_of_dvd valid.moves vanishes) (by have := valid.short; omega)
  let j : ZMod m := ((slot : ZMod m) - ve.offset - start * ve.skip) * (ve.skip : ZMod m)⁻¹
  refine ⟨j.val, ZMod.val_lt j, ?_⟩
  have solved : ((ve.offset + (start + j.val) * ve.skip : Nat) : ZMod m) = (slot : Nat) := by
    push_cast
    rw [ZMod.natCast_zmod_val]
    have cancel : j * (ve.skip : ZMod m) = (slot : ZMod m) - ve.offset - start * ve.skip := by
      simp only [j]
      rw [mul_assoc, inv_mul_cancel₀ nonzero, mul_one]
    rw [add_mul, cancel]
    ring
  rw [ZMod.natCast_eq_natCast_iff'] at solved
  rw [solved, Nat.mod_eq_of_lt inside]

/-- A probe that meets an empty slot ends. -/
theorem probe_of_empty {m : Nat}
    {fuel next j : Nat} (within : j < fuel)
    (empty : table[(ve.offset + (next + j) * ve.skip) % m]? = some none) :
    ∃ slot n, probe m table ve fuel next = some (slot, n) := by
  induction fuel generalizing next j with
  | zero => omega
  | succ fuel ih =>
    simp only [probe]
    split
    · exact ⟨_, _, rfl⟩
    · rename_i taken
      cases j with
      | zero => exact absurd (by simpa using empty) taken
      | succ j =>
        apply ih (j := j) (by omega)
        rwa [show next + 1 + j = next + (j + 1) by omega]

/-- It ends at an empty slot. -/
theorem probe_slot {m : Nat}
    {fuel next slot : Nat} (found : probe m table ve fuel next = some (slot, n)) :
    table[slot]? = some none := by
  induction fuel generalizing next with
  | zero => cases found
  | succ fuel ih =>
    simp only [probe] at found
    split at found
    · rename_i empty
      cases found
      exact empty
    · exact ih found

/-- One more slot is taken. -/
theorem Filling.set {m slot : Nat} {i : Nat}
    (filling : Filling m n (remaining + 1) table) (empty : table[slot]? = some none) (bound : i < n) :
    Filling m n remaining (table.set slot (some i)) := by
  obtain ⟨inside, value⟩ := List.getElem?_eq_some_iff.mp empty
  refine ⟨by rw [List.length_set, filling.sized], ?_, ?_⟩
  · rw [List.count_set inside, filling.left]
    simp [value]
  · intro k member
    rw [List.reduceOption_mem_iff] at member
    rcases List.mem_or_eq_of_mem_set member with old | new
    · exact filling.named k (List.reduceOption_mem_iff.mpr old)
    · cases new
      exact bound

theorem Filling.exists_empty {m : Nat}
    (filling : Filling m n (remaining + 1) table) : ∃ slot < m, table[slot]? = some none := by
  have member : none ∈ table := List.count_pos_iff.mp (by rw [filling.left]; omega)
  obtain ⟨slot, inside, value⟩ := List.mem_iff_getElem.mp member
  exact ⟨slot, filling.sized ▸ inside, List.getElem?_eq_some_iff.mpr ⟨inside, value⟩⟩

/-- The table is filled as long as it has empty slots. -/
theorem fill_completes {m : Nat} (prime : m.Prime) {vs : List VirtualEntry}
    (valid : ∀ ve ∈ vs, ve.Valid m n) {v : Nat}
    (next : List Nat) (within : v < vs.length) (filling : Filling m n remaining table) :
    ∃ result, fill m vs remaining v table next = some result ∧ Filling m n 0 result := by
  -- Each round of the loop fills one slot, so the induction is on the slots left.
  induction remaining generalizing v table next with
  | zero => exact ⟨table, rfl, filling⟩
  | succ remaining ih =>
    have entry : vs[v]? = some vs[v] := List.getElem?_eq_getElem within
    have good : vs[v].Valid m n := valid _ (List.getElem_mem within)
    obtain ⟨slot, inside, empty⟩ := filling.exists_empty
    obtain ⟨j, steps, reached⟩ := permutation_reaches prime good (next.getD v 0) slot inside
    obtain ⟨hit, count, found⟩ := probe_of_empty steps (reached.symm ▸ empty)
    simp only [fill, entry, found]
    refine ih _ ?_ (filling.set (probe_slot found) good.named)
    split <;> omega

/-- Every skip is at least one and below the size. -/
theorem virtuals_valid {hash : String → UInt32 → UInt64} {m : Nat} (large : 2 ≤ m)
    {backends : List Member} : ∀ ve ∈ virtuals hash m backends, ve.Valid m backends.length := by
  intro ve member
  simp only [virtuals, List.mem_flatMap, List.mem_map] at member
  obtain ⟨⟨b, i⟩, listed, c, _, rfl⟩ := member
  have position := (List.mem_zipIdx' listed).1
  refine ⟨by simp [virtualEntry], ?_, by simpa [virtualEntry] using position⟩
  have := Nat.mod_lt (hash (virtualKey b.name c) 0x5eedbeef).toNat (show m - 1 > 0 by omega)
  simp only [virtualEntry]
  omega

theorem virtuals_ne_nil {hash : String → UInt32 → UInt64} {m : Nat} {backends : List Member}
    (some_backend : backends ≠ []) : 0 < (virtuals hash m backends).length := by
  obtain ⟨b, rest, rfl⟩ := List.exists_cons_of_ne_nil some_backend
  have weighty : 0 < normalizeWeight b.weight := by unfold normalizeWeight; split <;> omega
  simp [virtuals, List.zipIdx_cons, List.length_flatMap]
  omega

theorem length_virtuals (hash : String → UInt32 → UInt64) (m : Nat) (backends : List Member) :
    (virtuals hash m backends).length = (backends.map fun b => normalizeWeight b.weight).sum := by
  simp only [virtuals, List.length_flatMap, List.length_map, List.length_range]
  have unzipped := congrArg (List.map fun b : Member => normalizeWeight b.weight)
    (List.zipIdx_map_fst 0 backends)
  rw [List.map_map] at unzipped
  exact congrArg List.sum unzipped

theorem filling_empty (m n : Nat) : Filling m n m (List.replicate m none) :=
  ⟨by simp, by simp, by simp [List.reduceOption]⟩

theorem Filling.reduceOption_length {m : Nat}
    (filling : Filling m n 0 table) : table.reduceOption.length = m := by
  have full : ∀ o ∈ table, o.isSome = true := by
    intro o member
    cases o with
    | none => exact absurd (List.count_pos_iff.mpr member) (by rw [filling.left]; omega)
    | some i => rfl
  rw [(List.reduceOption_length_eq_iff).mpr full, filling.sized]

section Tables

variable {hash : String → UInt32 → UInt64} {m : Nat} {backends : List Member}

/-- A table that is built is full, and its entries are backends. -/
theorem buildTableWith_ok (prime : m.Prime) {table : List Nat}
    (built : buildTableWith hash m backends = .ok table) :
    backends ≠ [] ∧ (backends.map fun b => normalizeWeight b.weight).sum < m ∧
      table.length = m ∧ ∀ i ∈ table, i < backends.length := by
  unfold buildTableWith at built
  split at built
  · cases built
  rename_i some_backend
  rw [if_neg (by have := prime.two_le; omega)] at built
  dsimp only at built
  split at built
  · cases built
  rename_i fits
  obtain ⟨result, completes, filling⟩ := fill_completes prime
    (@virtuals_valid hash m prime.two_le backends)
    (List.replicate (virtuals hash m backends).length 0)
    (virtuals_ne_nil some_backend) (filling_empty m backends.length)
  rw [completes] at built
  cases built
  refine ⟨some_backend, ?_, filling.reduceOption_length, filling.named⟩
  rw [← length_virtuals hash m]
  omega

/-- It is built if there are backends and their weights fit. -/
theorem buildTableWith_succeeds (prime : m.Prime) (some_backend : backends ≠ [])
    (fits : (backends.map fun b => normalizeWeight b.weight).sum < m) :
    ∃ table, buildTableWith hash m backends = .ok table := by
  obtain ⟨result, completes, _⟩ := fill_completes prime
    (@virtuals_valid hash m prime.two_le backends)
    (List.replicate (virtuals hash m backends).length 0)
    (virtuals_ne_nil some_backend) (filling_empty m backends.length)
  refine ⟨result.reduceOption, ?_⟩
  unfold buildTableWith
  rw [if_neg some_backend, if_neg (by have := prime.two_le; omega)]
  rw [← length_virtuals hash m] at fits
  dsimp only
  rw [if_neg (by omega), completes]

/-- What a table takes from a backend: its name, and its weight with zero counted as one. -/
def Member.share (b : Member) : String × Nat := (b.name, normalizeWeight b.weight)

theorem virtuals_congr (hash : String → UInt32 → UInt64) (m : Nat) {backends' : List Member}
    (same : backends.map Member.share = backends'.map Member.share) :
    virtuals hash m backends = virtuals hash m backends' := by
  -- Written over the shares, both lists are one and the same.
  have overShares : ∀ bs : List Member, virtuals hash m bs =
      (bs.map Member.share).zipIdx.flatMap fun (s, i) =>
        (List.range s.2).map fun c => virtualEntry hash m ⟨s.1, s.2⟩ i c := by
    intro bs
    rw [List.zipIdx_map, List.flatMap_map]
    rfl
  rw [overShares, overShares, same]

/-- It depends on names and weights only. -/
theorem buildTableWith_congr {backends' : List Member}
    (same : backends.map Member.share = backends'.map Member.share) :
    buildTableWith hash m backends = buildTableWith hash m backends' := by
  have empty : backends = [] ↔ backends' = [] := by
    rw [← List.map_eq_nil_iff (f := Member.share), same, List.map_eq_nil_iff]
  unfold buildTableWith
  simp only [virtuals_congr hash m same, empty]

end Tables

end Rivora.Maglev

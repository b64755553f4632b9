import Rivora.Maglev.TableLaws

/-! Where the search for an empty slot ends, and where it never does. -/

namespace Rivora.Maglev

variable {m next remaining v : Nat} {table : List (Option Nat)} {ve : VirtualEntry}
   {hash : String → UInt32 → UInt64}

theorem probe_eq_none {fuel : Nat} :
    probe m table ve fuel next = none ↔
      ∀ j < fuel, table[(ve.offset + (next + j) * ve.skip) % m]? ≠ some none := by
  induction fuel generalizing next with
  | zero => simp [probe]
  | succ fuel ih =>
    simp only [probe]
    split
    · -- The first slot is empty, so the search ends there.
      rename_i empty
      simp only [reduceCtorEq, false_iff, not_forall, not_not]
      exact ⟨0, by omega, empty⟩
    · rename_i taken
      rw [ih]
      constructor
      · intro later j within
        cases j with
        | zero => exact taken
        | succ j =>
          have := later j (by omega)
          rwa [show next + 1 + j = next + (j + 1) by omega] at this
      · intro all j within
        have := all (j + 1) (by omega)
        rwa [show next + (j + 1) = next + 1 + j by omega] at this

theorem walk_repeats (m offset skip next j : Nat) :
    (offset + (next + j) * skip) % m = (offset + (next + j % m) * skip) % m := by
  have : (next + j) * skip = (next + j % m) * skip + m * (j / m * skip) := by
    conv_lhs => rw [← Nat.mod_add_div j m]
    ring
  rw [this, ← Nat.add_assoc, Nat.add_mul_mod_self_left]

theorem probe_fails_forever (positive : 0 < m)
    (failed : probe m table ve m next = none) (fuel : Nat) :
    probe m table ve fuel next = none := by
  rw [probe_eq_none] at failed ⊢
  intro j _
  rw [walk_repeats]
  exact failed _ (Nat.mod_lt j positive)

theorem fill_filling {n : Nat} {vs : List VirtualEntry} (valid : ∀ ve ∈ vs, ve.Valid m n)
    {result : List (Option Nat)} {next : List Nat}
    (filling : Filling m n remaining table) (filled : fill m vs remaining v table next = some result) :
    Filling m n 0 result := by
  induction remaining generalizing v table next with
  | zero =>
    cases filled
    exact filling
  | succ remaining ih =>
    simp only [fill] at filled
    split at filled
    · cases filled
    rename_i ve entry
    split at filled
    · cases filled
    rename_i slot n found
    exact ih (filling.set (probe_slot found) (valid ve (List.mem_of_getElem? entry)).named) filled

theorem probe_on_way {fuel slot n : Nat} (found : probe m table ve fuel next = some (slot, n)) :
    slot = (ve.offset + n * ve.skip) % m := by
  induction fuel generalizing next with
  | zero => cases found
  | succ fuel ih =>
    simp only [probe] at found
    split at found
    · cases found
      rfl
    · exact ih found

theorem fill_residue {g : Nat} (step : g ∣ ve.skip) (size : g ∣ m)
    {result : List (Option Nat)} {next : List Nat}
    (residue : ∀ slot i : Nat, table[slot]? = some (some i) → slot % g = ve.offset % g)
    (filled : fill m [ve] remaining v table next = some result) :
    ∀ slot i : Nat, result[slot]? = some (some i) → slot % g = ve.offset % g := by
  induction remaining generalizing v table next with
  | zero =>
    cases filled
    exact residue
  | succ remaining ih =>
    simp only [fill] at filled
    split at filled
    · cases filled
    rename_i other entry
    obtain rfl : other = ve := by simpa using List.mem_of_getElem? entry
    split at filled
    · cases filled
    rename_i hit n found
    refine ih ?_ filled
    intro slot i holds
    -- Either the slot was filled before, or it is the one the search has just found.
    by_cases same : slot = hit
    · rw [same, probe_on_way found, Nat.mod_mod_of_dvd _ size]
      obtain ⟨k, multiple⟩ := step
      rw [multiple, show other.offset + n * (g * k) = other.offset + g * (n * k) by ring,
        Nat.add_mul_mod_self_left]
    · rw [List.getElem?_set_ne (fun equal => same equal.symm)] at holds
      exact residue slot i holds

theorem buildTableWith_diverges {b : Member} (large : 2 ≤ m)
    (light : normalizeWeight b.weight = 1)
    (shared : 1 < Nat.gcd (virtualEntry hash m b 0 0).skip m) :
    buildTableWith hash m [b] = .error .diverges := by
  have lone : virtuals hash m [b] = [virtualEntry hash m b 0 0] := by
    simp [virtuals, light, List.range_succ]
  unfold buildTableWith
  rw [if_neg (by simp), if_neg (by omega)]
  dsimp only
  rw [lone, if_neg (by simp only [List.length_singleton]; omega)]
  cases filled : fill m [virtualEntry hash m b 0 0] m 0 (List.replicate m none)
      (List.replicate [virtualEntry hash m b 0 0].length 0) with
  | none => rfl
  | some result =>
    exfalso
    have valid := @virtuals_valid hash m large [b]
    rw [lone] at valid
    have complete := fill_filling valid (filling_empty m [b].length) filled
    have residue := fill_residue (Nat.gcd_dvd_left _ _) (Nat.gcd_dvd_right _ _)
      (by simp [List.getElem?_replicate]) filled
    -- The slot behind the first one is of another residue, yet no slot is empty.
    have inside : ((virtualEntry hash m b 0 0).offset + 1) % m < result.length := by
      rw [complete.sized]
      exact Nat.mod_lt _ (by omega)
    cases value : result[((virtualEntry hash m b 0 0).offset + 1) % m] with
    | none =>
      have := List.count_pos_iff.mpr (value ▸ List.getElem_mem inside : none ∈ result)
      rw [complete.left] at this
      omega
    | some i =>
      have same := residue _ i (List.getElem?_eq_some_iff.mpr ⟨inside, value⟩)
      rw [Nat.mod_mod_of_dvd _ (Nat.gcd_dvd_right _ _)] at same
      have := Nat.sub_mod_eq_zero_of_mod_eq same
      rw [Nat.add_sub_cancel_left, Nat.mod_eq_of_lt shared] at this
      omega

theorem fill_stuck (positive : 0 < m) {vs : List VirtualEntry}
    {next : List Nat} (within : v < vs.length)
    (stuck : fill m vs remaining v table next = none) :
    ∃ ve ∈ vs, ∃ table' start, ∀ fuel, probe m table' ve fuel start = none := by
  induction remaining generalizing v table next with
  | zero => cases stuck
  | succ remaining ih =>
    have entry : vs[v]? = some vs[v] := List.getElem?_eq_getElem within
    simp only [fill, entry] at stuck
    split at stuck
    · rename_i failed
      exact ⟨vs[v], List.getElem_mem within, table, next.getD v 0, probe_fails_forever positive failed⟩
    · exact ih (by split <;> omega) stuck

theorem buildTableWith_stuck {backends : List Member}
    (diverges : buildTableWith hash m backends = .error .diverges) :
    ∃ ve ∈ virtuals hash m backends, ∃ table start, ∀ fuel, probe m table ve fuel start = none := by
  unfold buildTableWith at diverges
  split at diverges
  · cases diverges
  rename_i some_backend
  split at diverges
  · cases diverges
  dsimp only at diverges
  split at diverges
  · cases diverges
  split at diverges
  · rename_i stuck
    exact fill_stuck (by omega) (virtuals_ne_nil some_backend) stuck
  · cases diverges

theorem buildTableWith_returns (prime : m.Prime)
    (backends : List Member) :
    (∃ table, buildTableWith hash m backends = .ok table ∧ table.length = m) ∨
      buildTableWith hash m backends = .error .noBackends ∨
      ∃ total, buildTableWith hash m backends = .error (.tooSmall m total) := by
  by_cases none_listed : backends = []
  · exact Or.inr (Or.inl (by simp [buildTableWith, none_listed]))
  rcases Nat.lt_or_ge (backends.map fun b => normalizeWeight b.weight).sum m with fits | heavy
  · obtain ⟨table, built⟩ := @buildTableWith_succeeds hash m backends prime none_listed fits
    exact Or.inl ⟨table, built, (buildTableWith_ok prime built).2.2.1⟩
  · refine Or.inr (Or.inr ⟨(virtuals hash m backends).length, ?_⟩)
    rw [← length_virtuals hash m] at heavy
    have := prime.two_le
    simp only [buildTableWith, none_listed, ↓reduceIte]
    rw [if_neg (by omega), if_pos heavy]

end Rivora.Maglev

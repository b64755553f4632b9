import Mathlib.Algebra.Order.Floor.Div
import Mathlib.Data.Nat.Count
import Mathlib.Data.Nat.Periodic
import Rivora.Maglev.TableLaws

/-! How many slots each backend owns: the virtual entries take turns, one slot a turn. -/

namespace Rivora.Maglev

section Turns

variable {p : Nat → Prop} [DecidablePred p] {period : Nat}

theorem count_periods (periodic : Function.Periodic p period) (rounds rest : Nat) :
    Nat.count p (rounds * period + rest) = rounds * Nat.count p period + Nat.count p rest := by
  induction rounds with
  | zero => simp
  | succ rounds ih =>
    -- The first period is split off, and what follows it repeats the sequence from its start.
    have shifted : (fun k => p (period + k)) = p := by
      funext k
      rw [Nat.add_comm period k, periodic k]
    have split : (rounds + 1) * period + rest = period + (rounds * period + rest) := by ring
    rw [split, Nat.count_add]
    simp only [shifted]
    rw [ih]
    ring

theorem count_share (periodic : Function.Periodic p period) (positive : 0 < period) (turns : Nat) :
    Nat.count p period * (turns / period) ≤ Nat.count p turns ∧
      Nat.count p turns ≤ Nat.count p period * (turns ⌈/⌉ period) := by
  have counted : Nat.count p turns =
      turns / period * Nat.count p period + Nat.count p (turns % period) := by
    rw [← count_periods periodic, Nat.div_add_mod']
  refine ⟨by rw [counted, Nat.mul_comm]; omega, ?_⟩
  rw [Nat.ceilDiv_eq_add_pred_div]
  -- Either the turns are whole periods, or the part left over counts for at most one more.
  rcases Nat.eq_zero_or_pos (turns % period) with whole | part
  · rw [counted, whole, Nat.count_zero, Nat.mul_comm, Nat.add_zero]
    exact Nat.mul_le_mul_left _ (Nat.div_le_div_right (by omega))
  · have rounded : turns / period + 1 ≤ (turns + period - 1) / period := by
      rw [Nat.le_div_iff_mul_le positive]
      have := Nat.div_add_mod' turns period
      rw [Nat.add_mul]
      omega
    calc Nat.count p turns
        ≤ turns / period * Nat.count p period + Nat.count p period := by
          rw [counted]
          have := Nat.count_monotone p (Nat.mod_lt turns positive).le
          omega
      _ = Nat.count p period * (turns / period + 1) := by ring
      _ ≤ Nat.count p period * ((turns + period - 1) / period) := Nat.mul_le_mul_left _ rounded

end Turns

/-- Whether the entry whose turn is the `k`-th fills slots for backend `i`. -/
def Serves (vs : List VirtualEntry) (i k : Nat) : Prop :=
  (vs.map VirtualEntry.backendIdx)[k % vs.length]? = some i

instance (vs : List VirtualEntry) (i : Nat) : DecidablePred (Serves vs i) :=
  fun _ => inferInstanceAs (Decidable (_ = _))

theorem serves_periodic (vs : List VirtualEntry) (i : Nat) :
    Function.Periodic (Serves vs i) vs.length := by
  intro k
  simp only [Serves, Nat.add_mod_right]

theorem count_serves_round (vs : List VirtualEntry) (i : Nat) :
    Nat.count (Serves vs i) vs.length = (vs.map VirtualEntry.backendIdx).count i := by
  -- Reading a list position by position gives the list back.
  have positions : (List.range vs.length).map (fun k => (vs.map VirtualEntry.backendIdx)[k % vs.length]?) =
      (vs.map VirtualEntry.backendIdx).map some := by
    apply List.ext_getElem?
    intro k
    simp only [List.getElem?_map]
    rcases Nat.lt_or_ge k vs.length with inside | outside
    · rw [List.getElem?_range inside]
      simp [Nat.mod_eq_of_lt inside, List.getElem?_eq_getElem inside]
    · rw [List.getElem?_eq_none (by simpa using outside), List.getElem?_eq_none outside]
      rfl
  calc Nat.count (Serves vs i) vs.length
      = ((List.range vs.length).map
          (fun k => (vs.map VirtualEntry.backendIdx)[k % vs.length]?)).countP (· = some i) := by
        rw [List.countP_map]
        rfl
    _ = (vs.map VirtualEntry.backendIdx).count i := by
        rw [positions, List.countP_map, List.count]
        congr 1
        funext k
        simp [beq_eq_decide]

theorem count_virtuals (hash : String → UInt32 → UInt64) (m : Nat) {backends : List Member}
    {i : Nat} {b : Member} (listed : backends[i]? = some b) :
    ((virtuals hash m backends).map VirtualEntry.backendIdx).count i = normalizeWeight b.weight := by
  -- Each position contributes a block of its own number, as long as its weight.
  have blocks : (virtuals hash m backends).map VirtualEntry.backendIdx =
      backends.zipIdx.flatMap fun entry => List.replicate (normalizeWeight entry.1.weight) entry.2 := by
    rw [virtuals, List.map_flatMap]
    congr 1
    funext entry
    obtain ⟨b, i⟩ := entry
    simp [List.map_map, Function.comp_def, virtualEntry, List.map_const']
  have counted : ∀ (bs : List Member) (start k : Nat) (b : Member), bs[k]? = some b →
      ((bs.zipIdx start).flatMap fun entry =>
        List.replicate (normalizeWeight entry.1.weight) entry.2).count (start + k) =
          normalizeWeight b.weight := by
    intro bs
    induction bs with
    | nil => intro start k b absent; simp at absent
    | cons first rest ih =>
      intro start k b listed
      rw [List.zipIdx_cons, List.flatMap_cons, List.count_append]
      cases k with
      | zero =>
        -- No later block carries the number of the first.
        simp only [List.getElem?_cons_zero, Option.some.injEq] at listed
        subst listed
        have later : start + 0 ∉ (rest.zipIdx (start + 1)).flatMap
            fun entry => List.replicate (normalizeWeight entry.1.weight) entry.2 := by
          intro member
          obtain ⟨⟨b, i⟩, position, inside⟩ := List.mem_flatMap.mp member
          have := List.le_snd_of_mem_zipIdx position
          have := List.eq_of_mem_replicate inside
          simp only at *
          omega
        rw [List.count_eq_zero.mpr later]
        simp
      | succ k =>
        simp only [List.getElem?_cons_succ] at listed
        have shifted := ih (start + 1) k b listed
        rw [show start + 1 + k = start + (k + 1) by omega] at shifted
        rw [shifted, List.count_eq_zero.mpr]
        · omega
        · intro inside
          have := List.eq_of_mem_replicate inside
          omega
  rw [blocks]
  simpa using counted backends 0 i b listed

theorem serves_next (vs : List VirtualEntry) (v i k : Nat) :
    Serves vs i ((if v + 1 = vs.length then 0 else v + 1) + k) ↔ Serves vs i (v + 1 + k) := by
  split
  · rename_i last
    rw [last, Nat.add_comm vs.length k, Nat.zero_add, serves_periodic]
  · rfl

theorem count_reduceOption (table : List (Option Nat)) (i : Nat) :
    table.reduceOption.count i = table.count (some i) := by
  induction table with
  | nil => rfl
  | cons slot rest ih =>
    cases slot with
    | none => simp [ih]
    | some k => simp [ih, List.count_cons]

theorem fill_counts {m : Nat} {vs : List VirtualEntry} {remaining v : Nat}
    {table result : List (Option Nat)} {next : List Nat} (within : v < vs.length)
    (filled : fill m vs remaining v table next = some result) (i : Nat) :
    result.count (some i) =
      table.count (some i) + Nat.count (fun k => Serves vs i (v + k)) remaining := by
  -- Each turn of the loop fills one slot, so the induction is on the slots left.
  induction remaining generalizing v table next with
  | zero =>
    cases filled
    simp
  | succ remaining ih =>
    have entry : vs[v]? = some vs[v] := List.getElem?_eq_getElem within
    simp only [fill, entry] at filled
    split at filled
    · cases filled
    rename_i slot n found
    -- The slot was empty, so the entry's backend gains one and no other backend loses any.
    obtain ⟨inside, empty⟩ := List.getElem?_eq_some_iff.mp (probe_slot found)
    have gained : (table.set slot (some vs[v].backendIdx)).count (some i) =
        table.count (some i) + if Serves vs i (v + 0) then 1 else 0 := by
      have turn : Serves vs i (v + 0) ↔ vs[v].backendIdx = i := by
        simp [Serves, Nat.mod_eq_of_lt within, entry]
      rw [List.count_set inside, empty]
      simp only [turn]
      simp
    have rest := ih (by split <;> omega) filled
    rw [rest, gained, Nat.count_succ']
    simp only [serves_next]
    have order : (fun k => Serves vs i (v + (k + 1))) = fun k => Serves vs i (v + 1 + k) := by
      funext k
      rw [Nat.add_assoc, Nat.add_comm 1 k]
    simp only [order]
    omega

/--
A table of prime size above the total weight is built, whatever the hash.

Every slot names a backend, and each backend owns its share of the slots, rounded down or up.
-/
theorem every_backend_owns_its_share (hash : String → UInt32 → UInt64) {m : Nat} (prime : m.Prime)
    {backends : List Member} (some_backend : backends ≠ [])
    (fits : (backends.map fun b => normalizeWeight b.weight).sum < m) :
    ∃ table, buildTableWith hash m backends = .ok table ∧
      table.length = m ∧ (∀ slot ∈ table, slot < backends.length) ∧
      ∀ i b, backends[i]? = some b →
        let total := (backends.map fun b => normalizeWeight b.weight).sum
        normalizeWeight b.weight * (m / total) ≤ table.count i ∧
          table.count i ≤ normalizeWeight b.weight * (m ⌈/⌉ total) ∧ 0 < table.count i := by
  obtain ⟨result, completes, filling⟩ := fill_completes prime
    (@virtuals_valid hash m prime.two_le backends)
    (List.replicate (virtuals hash m backends).length 0)
    (virtuals_ne_nil some_backend) (filling_empty m backends.length)
  have positive := @virtuals_ne_nil hash m _ some_backend
  have total := length_virtuals hash m backends
  refine ⟨result.reduceOption, ?_, filling.reduceOption_length, filling.named, ?_⟩
  · unfold buildTableWith
    rw [if_neg some_backend, if_neg (by have := prime.two_le; omega)]
    dsimp only
    rw [if_neg (by omega), completes]
  intro i b listed
  -- The slots of a backend are the turns of its virtual entries, in rounds of all entries.
  have owned : result.reduceOption.count i =
      Nat.count (Serves (virtuals hash m backends) i) m := by
    rw [count_reduceOption, fill_counts positive completes i]
    simp [List.count_replicate]
  have share := count_share (serves_periodic (virtuals hash m backends) i) positive m
  rw [count_serves_round, count_virtuals hash m listed, ← owned, total] at share
  refine ⟨share.1, share.2, ?_⟩
  -- A share rounded down is still at least one slot, as the table exceeds the weights.
  have weighty : 0 < normalizeWeight b.weight := by unfold normalizeWeight; split <;> omega
  have round : 0 < m / (backends.map fun b => normalizeWeight b.weight).sum :=
    Nat.div_pos fits.le (by omega)
  exact lt_of_lt_of_le (Nat.mul_pos weighty round) share.1

/-- Two backends of weights one and two share a table of seven slots. -/
theorem seven_slots_are_shared :
    ∃ table, buildTableWith hash 7 [⟨"10.0.0.1:80", 0⟩, ⟨"10.0.0.2:80", 2⟩] = .ok table ∧
      table.length = 7 ∧ 2 ≤ table.count 0 ∧ table.count 1 ≤ 6 := by
  obtain ⟨table, built, sized, _, shares⟩ := every_backend_owns_its_share hash Nat.prime_seven
    (show [Member.mk "10.0.0.1:80" 0, ⟨"10.0.0.2:80", 2⟩] ≠ [] by simp) (by decide)
  exact ⟨table, built, sized, (shares 0 _ rfl).1, (shares 1 _ rfl).2.1⟩

end Rivora.Maglev

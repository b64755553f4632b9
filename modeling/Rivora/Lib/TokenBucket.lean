import Mathlib.Algebra.Order.Ring.Int

/-!
Token buckets.

A bucket has a level. Each arrival refills it by what is due since the arrival before, up to a capacity, and
takes a unit if there is one.
-/

namespace Rivora.TokenBucket

variable (unit cap : Nat)

/-- Take a unit if there is one: how many were taken, and the level that is left. -/
def take (level : Nat) : Nat × Nat := if unit ≤ level then (1, level - unit) else (0, level)

/-- An arrival at the exact bucket. -/
def offer (level due : Nat) : Nat × Nat := take unit (min cap (level + due))

/-- How many units the exact bucket gives, and the level that is left in the end. -/
def serve (level : Nat) : List Nat → Nat × Nat
  | [] => (0, level)
  | due :: rest =>
    let (given, level) := offer unit cap level due
    let (more, level) := serve level rest
    (given + more, level)

theorem serve_nil (level : Nat) : serve unit cap level [] = (0, level) := rfl

theorem serve_cons (level due : Nat) (rest : List Nat) :
    serve unit cap level (due :: rest) =
      ((offer unit cap level due).1 + (serve unit cap (offer unit cap level due).2 rest).1,
        (serve unit cap (offer unit cap level due).2 rest).2) := rfl

variable {unit cap}

/-- What is taken and what is left is what there was. -/
theorem take_conserves (level : Nat) : (take unit level).1 * unit + (take unit level).2 = level := by
  unfold take
  split
  · omega
  · omega

section Sustained

variable {level : Nat}

/-- Nothing is lost as long as arrivals come often. -/
theorem offer_conserves {due : Nat} (positive : 2 * unit ≤ cap) (room : level + unit ≤ cap) (slow : due ≤ unit) :
    (offer unit cap level due).1 * unit + (offer unit cap level due).2 = level + due ∧
      (offer unit cap level due).2 + unit ≤ cap := by
  -- Nothing is cut off at the capacity.
  have fits : min cap (level + due) = level + due := by omega
  unfold offer
  rw [fits]
  refine ⟨take_conserves _, ?_⟩
  unfold take
  split
  · dsimp only
    omega
  · dsimp only
    omega

theorem serve_conserves {dues : List Nat} (positive : 2 * unit ≤ cap) (room : level + unit ≤ cap)
    (slow : ∀ due ∈ dues, due ≤ unit) :
    (serve unit cap level dues).1 * unit + (serve unit cap level dues).2 = level + dues.sum ∧
      (serve unit cap level dues).2 + unit ≤ cap := by
  induction dues generalizing level with
  | nil => exact ⟨by simp [serve_nil], room⟩
  | cons due rest ih =>
    obtain ⟨first, room⟩ := offer_conserves positive room (slow due List.mem_cons_self)
    obtain ⟨others, room⟩ := ih room fun due mem => slow due (List.mem_cons_of_mem _ mem)
    rw [serve_cons, List.sum_cons]
    refine ⟨?_, room⟩
    dsimp only
    rw [Nat.add_mul]
    omega

/-- What becomes due is served, if arrivals come often. -/
theorem sum_le_serve {burst : Nat} {dues : List Nat} (two : 2 ≤ burst) (often : ∀ due ∈ dues, due ≤ unit) :
    dues.sum ≤ (serve unit (burst * unit) (burst * unit) (0 :: dues)).1 * unit := by
  have room : unit ≤ burst * unit := Nat.le_mul_of_pos_left _ (by omega)
  -- The first arrival takes a unit of the full bucket.
  have start : offer unit (burst * unit) (burst * unit) 0 = (1, burst * unit - unit) := by
    unfold offer take
    rw [Nat.add_zero, Nat.min_self, if_pos room]
  obtain ⟨given, left⟩ := serve_conserves (Nat.mul_le_mul_right unit two) (Nat.sub_add_cancel room).le often
  rw [serve_cons, start, Nat.add_mul]
  dsimp only
  omega

end Sustained

/-- A bucket that holds whole units gives one if it has any. -/
theorem take_units (positive : 0 < unit) (n : Nat) : take unit (n * unit) = (min 1 n, (n - 1) * unit) := by
  unfold take
  by_cases empty : n = 0
  · simp [empty, Nat.not_le.mpr positive]
  · have one : unit ≤ n * unit := Nat.le_mul_of_pos_left _ (Nat.pos_of_ne_zero empty)
    rw [if_pos one, Nat.sub_mul, Nat.one_mul, Nat.min_eq_left (Nat.pos_of_ne_zero empty)]

end Rivora.TokenBucket

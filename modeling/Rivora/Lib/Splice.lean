import Mathlib.Data.List.Basic

/-! Parts of a list, and a list with one part replaced in place. -/

namespace Splice

variable {α : Type}

/-- The `n` items from a position on. -/
def slice (l : List α) (off n : Nat) : List α := (l.drop off).take n

/-- A list with the items from a position on replaced by others. -/
def patch (l : List α) (off : Nat) (new : List α) : List α :=
  l.take off ++ new ++ l.drop (off + new.length)

@[simp] theorem getElem?_slice (l : List α) (off n i : Nat) :
    (slice l off n)[i]? = if i < n then l[off + i]? else none := by
  simp [slice, List.getElem?_take]

theorem length_slice {l : List α} {off n : Nat} (inside : off + n ≤ l.length) :
    (slice l off n).length = n := by
  simp only [slice, List.length_take, List.length_drop]
  omega

theorem split_at_slice (l : List α) (off n : Nat) :
    l = l.take off ++ (slice l off n ++ l.drop (off + n)) := by
  rw [slice, ← List.drop_drop, List.take_append_drop, List.take_append_drop]

theorem length_patch {l : List α} {off : Nat} {new : List α} (inside : off + new.length ≤ l.length) :
    (patch l off new).length = l.length := by
  simp only [patch, List.length_append, List.length_take, List.length_drop]
  omega

/-- A patch is read where it lies. -/
theorem getElem?_patch {l : List α} {off : Nat} {new : List α} (inside : off + new.length ≤ l.length)
    (i : Nat) :
    (patch l off new)[i]? =
      if off ≤ i ∧ i < off + new.length then new[i - off]? else l[i]? := by
  have front : (l.take off).length = off := by
    rw [List.length_take]
    omega
  simp only [patch, List.append_assoc]
  rcases Nat.lt_or_ge i off with before | behind
  · rw [List.getElem?_append_left (by omega), List.getElem?_take, if_pos before, if_neg (by omega)]
  · rw [List.getElem?_append_right (by omega), front]
    rcases Nat.lt_or_ge (i - off) new.length with within | past
    · rw [List.getElem?_append_left within, if_pos (by omega)]
    · rw [List.getElem?_append_right past, List.getElem?_drop, if_neg (by omega)]
      congr 1
      omega

theorem getElem?_patch_of_apart {l : List α} {off : Nat} {new : List α}
    (inside : off + new.length ≤ l.length) {i : Nat} (apart : i < off ∨ off + new.length ≤ i) :
    (patch l off new)[i]? = l[i]? := by
  rw [getElem?_patch inside, if_neg (by omega)]

/-- A patch is read back. -/
theorem slice_patch_self {l : List α} {off : Nat} {new : List α} (inside : off + new.length ≤ l.length) :
    slice (patch l off new) off new.length = new := by
  apply List.ext_getElem?
  intro i
  rw [getElem?_slice, getElem?_patch inside]
  split
  · rw [if_pos (by omega), Nat.add_sub_cancel_left]
  · rw [List.getElem?_eq_none (by omega)]

/-- What lies apart from it stays. -/
theorem slice_patch_of_apart {l : List α} {off start n : Nat} {new : List α}
    (inside : off + new.length ≤ l.length) (apart : start + n ≤ off ∨ off + new.length ≤ start) :
    slice (patch l off new) start n = slice l start n := by
  apply List.ext_getElem?
  intro i
  rw [getElem?_slice, getElem?_slice]
  split
  · exact getElem?_patch_of_apart inside (by omega)
  · rfl

theorem slice_patch_of_inside {l : List α} {off start n : Nat} {new : List α} (before : start ≤ off)
    (behind : off + new.length ≤ start + n) (inside : start + n ≤ l.length) :
    slice (patch l off new) start n = patch (slice l start n) (off - start) new := by
  have length := length_slice inside
  apply List.ext_getElem?
  intro i
  rw [getElem?_slice, getElem?_patch (by omega), getElem?_patch (by omega), getElem?_slice]
  -- Inside the part, positions differ by its start.
  split
  · split
    · rw [if_pos (by omega)]
      congr 1
      omega
    · rw [if_neg (by omega)]
  · rw [if_neg (by omega)]

theorem patch_append {l tail : List α} {off : Nat} {new : List α} (inside : off + new.length ≤ l.length) :
    patch (l ++ tail) off new = patch l off new ++ tail := by
  simp only [patch]
  rw [List.take_append_of_le_length (by omega), List.drop_append_of_le_length inside]
  simp

theorem slice_append {l tail : List α} {off n : Nat} (inside : off + n ≤ l.length) :
    slice (l ++ tail) off n = slice l off n := by
  simp only [slice]
  rw [List.drop_append_of_le_length (by omega), List.take_append_of_le_length]
  rw [List.length_drop]
  omega

theorem slice_slice {l : List α} {start n off m : Nat} (inside : off + m ≤ n) :
    slice (slice l start n) off m = slice l (start + off) m := by
  apply List.ext_getElem?
  intro i
  simp only [getElem?_slice]
  split
  · rw [if_pos (by omega), Nat.add_assoc]
  · rfl

/-- One list differs from another of the same length in the given places only. -/
structure Confined (places : List (Nat × Nat)) (l l' : List α) : Prop where
  length : l'.length = l.length
  same : ∀ i, (∀ p ∈ places, i < p.1 ∨ p.1 + p.2 ≤ i) → l'[i]? = l[i]?

namespace Confined

variable {places : List (Nat × Nat)} {l l' : List α}

theorem refl (places : List (Nat × Nat)) (l : List α) : Confined places l l := ⟨rfl, fun _ _ => rfl⟩

theorem trans {l'' : List α} (first : Confined places l l') (second : Confined places l' l'') :
    Confined places l l'' :=
  ⟨second.length.trans first.length, fun i apart => (second.same i apart).trans (first.same i apart)⟩

theorem mono {places' : List (Nat × Nat)} (confined : Confined places l l') (sub : places ⊆ places') :
    Confined places' l l' :=
  ⟨confined.length, fun i apart => confined.same i fun p place => apart p (sub place)⟩

theorem patch (confined : Confined places l l') {off : Nat} {new : List α}
    (place : (off, new.length) ∈ places) (inside : off + new.length ≤ l.length) :
    Confined places l (patch l' off new) := by
  have inside' : off + new.length ≤ l'.length := by
    rw [confined.length]
    exact inside
  refine ⟨by rw [length_patch inside', confined.length], fun i apart => ?_⟩
  rw [getElem?_patch_of_apart inside' (apart _ place), confined.same i apart]

theorem slice (confined : Confined places l l') {start n : Nat}
    (apart : ∀ p ∈ places, start + n ≤ p.1 ∨ p.1 + p.2 ≤ start) :
    slice l' start n = slice l start n := by
  apply List.ext_getElem?
  intro i
  rw [getElem?_slice, getElem?_slice]
  split
  · apply confined.same
    intro p place
    have := apart p place
    omega
  · rfl

end Confined

end Splice

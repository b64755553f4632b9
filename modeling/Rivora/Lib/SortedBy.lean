import Mathlib.Data.List.Sort
import Mathlib.Data.Prod.Lex

/-!
Lists sorted by a key.

A sort that compares two fields in turn sorts by a pair of them. Items of one key can stand in any order, but
what is the same for all items of a key stands in one order only.
-/

namespace SortedBy

variable {α κ β : Type} [LinearOrder κ] {key : α → κ} {before : α → α → Prop}

theorem key_eq (compares : ∀ a b, before a b ↔ key a < key b) {a b : α} (first : ¬ before b a)
    (second : ¬ before a b) : key a = key b := by
  rw [compares, not_lt] at first second
  exact le_antisymm first second

theorem asymm (compares : ∀ a b, before a b ↔ key a < key b) {a b : α} (first : before a b) : ¬ before b a := by
  rw [compares] at first ⊢
  exact lt_asymm first

theorem pairwise_insertionSort [DecidableRel before] (compares : ∀ a b, before a b ↔ key a < key b)
    (l : List α) : (l.insertionSort fun a b => ¬ before b a).Pairwise fun a b => ¬ before b a := by
  have total : Std.Total fun a b : α => ¬ before b a := by
    refine ⟨fun a b => ?_⟩
    rw [compares, compares, not_lt, not_lt]
    exact le_total _ _
  have trans : IsTrans α fun a b => ¬ before b a := by
    refine ⟨fun a b c first second => ?_⟩
    rw [compares, not_lt] at first second ⊢
    exact first.trans second
  exact List.pairwise_insertionSort _ l

/-- A view that is the same for all items of a key is in the same order in every sorted list of the items. -/
theorem map_eq {l l' : List α} (compares : ∀ a b, before a b ↔ key a < key b)
    (sorted : l.Pairwise fun a b => ¬ before b a) (sorted' : l'.Pairwise fun a b => ¬ before b a)
    (perm : l.Perm l') {view : α → β} (agree : ∀ a ∈ l, ∀ b ∈ l, key a = key b → view a = view b) :
    l.map view = l'.map view := by
  -- Keys and views together are sorted by the keys, and there is only one way to do that.
  have ordered : ∀ {l : List α}, l.Pairwise (fun a b => ¬ before b a) →
      (l.map fun a => (key a, view a)).Pairwise fun x y => x.1 ≤ y.1 := by
    intro l sorted
    refine List.pairwise_map.mpr (sorted.imp fun {a b} inOrder => ?_)
    rwa [compares, not_lt] at inOrder
  have pairs : (l.map fun a => (key a, view a)) = l'.map fun a => (key a, view a) := by
    refine List.Perm.eq_of_pairwise ?_ (ordered sorted) (ordered sorted') (perm.map _)
    intro x y member member' first second
    obtain ⟨a, mine, rfl⟩ := List.mem_map.mp member
    obtain ⟨b, mine', rfl⟩ := List.mem_map.mp member'
    have keys : key a = key b := le_antisymm first second
    exact Prod.ext keys (agree a mine b (perm.mem_iff.mpr mine') keys)
  have views := congrArg (List.map Prod.snd) pairs
  rwa [List.map_map, List.map_map] at views

end SortedBy

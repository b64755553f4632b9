import Mathlib.Data.List.Induction
import Mathlib.Data.List.Nodup
import Mathlib.Data.List.Perm.Basic

/-!
Keeping the first item of each key.

Which item is kept depends on the order, unless the items of a key are all the same.
-/

namespace FirstSeen

variable {α κ : Type} (key : α → κ)

/-- Items of one key are the same item. -/
def Agree (l : List α) : Prop := ∀ x ∈ l, ∀ y ∈ l, key x = key y → x = y

theorem Agree.perm {key : α → κ} {l l' : List α} (agree : Agree key l) (perm : l.Perm l') : Agree key l' :=
  fun x mem y mem' => agree x (perm.mem_iff.mpr mem) y (perm.mem_iff.mpr mem')

variable [DecidableEq κ]

/-- Keep an item whose key was not seen before. -/
def keep (kept : List α) (x : α) : List α := if key x ∈ kept.map key then kept else kept ++ [x]

/-- The items that are the first of their key, in order. -/
def firsts (l : List α) : List α := l.foldl (keep key) []

variable {key} {l l' : List α}

@[simp] theorem firsts_nil : firsts key ([] : List α) = [] := rfl

theorem firsts_concat (l : List α) (x : α) : firsts key (l ++ [x]) = keep key (firsts key l) x := by
  rw [firsts, List.foldl_append]
  rfl

/-- Only members are kept. -/
theorem mem_of_mem_firsts {x : α} : x ∈ firsts key l → x ∈ l := by
  induction l using List.reverseRecOn with
  | nil => exact id
  | append_singleton l y ih =>
    rw [firsts_concat, keep, List.mem_append, List.mem_singleton]
    split
    · exact fun kept => .inl (ih kept)
    · rw [List.mem_append, List.mem_singleton]
      exact Or.imp_left ih

/-- Every key is kept. -/
theorem mem_keys_firsts {k : κ} : k ∈ (firsts key l).map key ↔ k ∈ l.map key := by
  induction l using List.reverseRecOn with
  | nil => rfl
  | append_singleton l y ih =>
    rw [firsts_concat, keep, List.map_append, List.mem_append, List.map_singleton, List.mem_singleton]
    split
    · next seen =>
      -- The key of the new item is among those of the list.
      rw [ih]
      exact ⟨.inl, fun either => either.elim id fun same => ih.mp (same ▸ seen)⟩
    · rw [List.map_append, List.mem_append, List.map_singleton, List.mem_singleton, ih]

/-- It is kept once. -/
theorem keys_firsts_nodup (l : List α) : ((firsts key l).map key).Nodup := by
  induction l using List.reverseRecOn with
  | nil => exact List.nodup_nil
  | append_singleton l y ih =>
    rw [firsts_concat, keep]
    split
    · exact ih
    · next unseen =>
      rw [List.map_append, List.map_singleton]
      refine ih.append (List.nodup_singleton _) fun k kept same => unseen ?_
      rw [← List.mem_singleton.mp same]
      exact kept

theorem firsts_nodup (l : List α) : (firsts key l).Nodup := (keys_firsts_nodup l).of_map

/-- Where members of one key agree, all are kept. -/
theorem mem_firsts (agree : Agree key l) {x : α} : x ∈ firsts key l ↔ x ∈ l := by
  refine ⟨mem_of_mem_firsts, fun mem => ?_⟩
  obtain ⟨y, kept, same⟩ := List.mem_map.mp (mem_keys_firsts.mpr (List.mem_map_of_mem (f := key) mem))
  -- The item that was kept under its key is the item itself.
  rw [agree x mem y (mem_of_mem_firsts kept) same.symm]
  exact kept

/-- In a sorted list the item that is kept stands before all others of its key. -/
theorem first_of_mem_firsts {r : α → α → Prop} (sorted : l.Pairwise r) {x y : α} (kept : x ∈ firsts key l)
    (mem : y ∈ l) (same : key y = key x) : y = x ∨ r x y := by
  induction l using List.reverseRecOn with
  | nil => cases mem
  | append_singleton l z ih =>
    obtain ⟨before, -, last⟩ := List.pairwise_append.mp sorted
    rw [firsts_concat, keep] at kept
    rw [List.mem_append, List.mem_singleton] at mem
    split at kept
    · rcases mem with mem | rfl
      · exact ih before kept mem
      · exact .inr (last x (mem_of_mem_firsts kept) y (List.mem_singleton.mpr rfl))
    · next unseen =>
      rcases List.mem_append.mp kept with stays | new
      · rcases mem with mem | rfl
        · exact ih before stays mem
        · exact .inr (last x (mem_of_mem_firsts stays) y (List.mem_singleton.mpr rfl))
      · -- A new item is the only one of its key so far.
        rw [List.mem_singleton.mp new] at same ⊢
        rcases mem with mem | rfl
        · exact absurd (mem_keys_firsts.mpr (same ▸ List.mem_map_of_mem (f := key) mem)) unseen
        · exact .inl rfl

/-- In a sorted list, the least one of each key is kept. -/
theorem mem_firsts_of_sorted {r : α → α → Prop} (sorted : l.Pairwise r)
    (antisymm : ∀ x ∈ l, ∀ y ∈ l, r x y → r y x → x = y) {x : α} :
    x ∈ firsts key l ↔ x ∈ l ∧ ∀ y ∈ l, key y = key x → y = x ∨ r x y := by
  refine ⟨fun kept => ⟨mem_of_mem_firsts kept, fun y => first_of_mem_firsts sorted kept⟩, ?_⟩
  rintro ⟨mem, first⟩
  obtain ⟨y, kept, same⟩ := List.mem_map.mp (mem_keys_firsts.mpr (List.mem_map_of_mem (f := key) mem))
  -- The item kept under the key and this one stand before each other.
  rcases first y (mem_of_mem_firsts kept) same with rfl | before
  · exact kept
  · rcases first_of_mem_firsts sorted kept mem same.symm with rfl | after
    · exact kept
    · rw [antisymm x mem y (mem_of_mem_firsts kept) before after]
      exact kept

/-- Two items that are kept under one key are one item. -/
theorem unique_of_mem_firsts {x y : α} (kept : x ∈ firsts key l) (kept' : y ∈ firsts key l)
    (same : key x = key y) : x = y :=
  List.inj_on_of_nodup_map (keys_firsts_nodup l) kept kept' same

/-- Some item is kept under the key of each. -/
theorem exists_first (key : α → κ) {x : α} (mem : x ∈ l) : ∃ y ∈ firsts key l, key y = key x :=
  List.mem_map.mp (mem_keys_firsts.mpr (List.mem_map_of_mem mem))

/-- What is kept of two lists is kept of the first, or of the second under a key the first has not. -/
theorem mem_firsts_append {x : α} :
    x ∈ firsts key (l ++ l') ↔ x ∈ firsts key l ∨ key x ∉ l.map key ∧ x ∈ firsts key l' := by
  induction l' using List.reverseRecOn with
  | nil => simp
  | append_singleton l' y ih =>
    have keep_iff : ∀ kept, x ∈ keep key kept y ↔ x ∈ kept ∨ x = y ∧ key y ∉ kept.map key := by
      intro kept
      unfold keep
      split
      · next seen => simp [seen]
      · next unseen => simp [unseen]
    rw [← List.append_assoc, firsts_concat, firsts_concat, keep_iff, keep_iff, ih, mem_keys_firsts,
      mem_keys_firsts, List.map_append, List.mem_append, not_or]
    constructor
    · rintro ((first | second) | ⟨rfl, unseen⟩)
      · exact .inl first
      · exact .inr ⟨second.1, .inl second.2⟩
      · exact .inr ⟨unseen.1, .inr ⟨rfl, unseen.2⟩⟩
    · rintro (first | ⟨unseen, second | ⟨rfl, unseen'⟩⟩)
      · exact .inl (.inl first)
      · exact .inl (.inr ⟨unseen, second⟩)
      · exact .inr ⟨rfl, unseen, unseen'⟩

section Blocks

variable {β : Type} {f : β → List α} {blocks : List β} {x : α}

/-- What is kept of several lists is kept of one of them. -/
theorem exists_block (kept : x ∈ firsts key (blocks.flatMap f)) : ∃ b ∈ blocks, x ∈ firsts key (f b) := by
  induction blocks with
  | nil => cases kept
  | cons b rest ih =>
    rw [List.flatMap_cons] at kept
    rcases mem_firsts_append.mp kept with first | ⟨_, later⟩
    · exact ⟨b, List.mem_cons_self, first⟩
    · obtain ⟨b', mem, kept'⟩ := ih later
      exact ⟨b', List.mem_cons_of_mem b mem, kept'⟩

/-- What is kept of a list is kept of several if the list stands in front. -/
theorem mem_firsts_front [DecidableEq β] {b : β} (kept : x ∈ firsts key (f b)) :
    x ∈ firsts key ((b :: blocks.erase b).flatMap f) := by
  rw [List.flatMap_cons]
  exact mem_firsts_append.mpr (.inl kept)

end Blocks

/-- Where they agree, the order does not matter. -/
theorem firsts_perm (agree : Agree key l) (perm : l.Perm l') : (firsts key l).Perm (firsts key l') := by
  rw [List.perm_ext_iff_of_nodup (firsts_nodup l) (firsts_nodup l')]
  intro x
  rw [mem_firsts agree, mem_firsts (agree.perm perm), perm.mem_iff]

end FirstSeen

import Mathlib.Algebra.Order.Ring.Int
import Mathlib.Data.List.Range
import Rivora.Lib.FiniteMap

/-! The allocator that gives text keys small stable numbers and hands freed numbers out again. -/

namespace Rivora

variable {id : Nat} {key : String} {a a' : IdAllocator}

/-- An allocator of IDs below `max`: those in use, those freed, and the next one never used. -/
structure IdAllocator where
  max : Nat
  ids : FMap String Nat
  free : List Nat
  next : Nat
  /-- Every ID handed out so far is either in use under one key or free, and only once. -/
  tracked : (ids.values ++ free).Perm (List.range next)
  /-- No ID at or above the capacity was handed out. -/
  bounded : next ≤ max

namespace IdAllocator

/-- An allocator without keys has given out nothing. -/
theorem tracked_empty : ((FMap.empty : FMap String Nat).values ++ []).Perm (List.range 0) := .refl _

/-- An allocator that has handed nothing out. -/
def new (max : Nat) : IdAllocator :=
  ⟨max, FMap.empty, [], 0, tracked_empty, Nat.zero_le max⟩

/-- The error of an allocator whose capacity is exhausted. -/
def exhausted (a : IdAllocator) : String :=
  "no IDs left (capacity " ++ toString a.max ++ " exhausted)"

/-- The ID last freed, taken from the end of the free list. -/
def reuse (a : IdAllocator) (key : String) (id : Nat) (absent : a.ids.get? key = none)
    (last : a.free.getLast? = some id) : IdAllocator :=
  { a with
    ids := a.ids.insert key id
    free := a.free.dropLast
    tracked := by
      -- The ID moves from the end of the free list to the front of those in use.
      rw [FMap.values_insert_of_absent absent]
      have split : a.free.dropLast ++ [id] = a.free := List.dropLast_append_getLast? id last
      refine List.Perm.trans ?_ a.tracked
      rw [← split, List.dropLast_concat, ← List.append_assoc]
      exact (List.perm_append_singleton id _).symm }

/-- The next ID never used. -/
def grow (a : IdAllocator) (key : String) (absent : a.ids.get? key = none)
    (room : a.next < a.max) : IdAllocator :=
  { a with
    ids := a.ids.insert key a.next
    next := a.next + 1
    tracked := by
      rw [FMap.values_insert_of_absent absent, List.range_succ]
      exact (List.Perm.cons _ a.tracked).trans (List.perm_append_singleton _ _).symm
    bounded := room }

/-- A key's ID, assigning one on first sight: the last freed, else the next never used. -/
def alloc (a : IdAllocator) (key : String) : Except String Nat × IdAllocator :=
  match found : a.ids.get? key with
  | some id => (.ok id, a)
  | none =>
    match last : a.free.getLast? with
    | some id => (.ok id, a.reuse key id found last)
    | none =>
      if room : a.next < a.max then (.ok a.next, a.grow key found room) else (.error a.exhausted, a)

/-- Give a key's ID back for reuse; nothing happens to a key without one. -/
def release (a : IdAllocator) (key : String) : IdAllocator :=
  match found : a.ids.get? key with
  | none => a
  | some id =>
    { a with
      ids := a.ids.erase key
      free := a.free ++ [id]
      tracked := by
        refine List.Perm.trans ?_ a.tracked
        rw [← List.append_assoc]
        exact (List.perm_append_singleton id _).trans
          ((FMap.values_perm_of_get? found).append_right a.free).symm }

/-- No ID is held twice. -/
theorem values_nodup (a : IdAllocator) : a.ids.values.Nodup :=
  (a.tracked.nodup_iff.mpr List.nodup_range).of_append_left

/-- An ID is held by one key. -/
theorem key_unique (a : IdAllocator) {j k : String} (left : a.ids.get? j = some id)
    (right : a.ids.get? k = some id) : j = k :=
  FMap.key_unique_of_nodup a.values_nodup left right

/-- An ID that is held is below the limit. -/
theorem id_lt_max (a : IdAllocator) (found : a.ids.get? key = some id) :
    id < a.max := by
  have member : id ∈ List.range a.next :=
    a.tracked.mem_iff.mp (List.mem_append_left _ (FMap.mem_values_of_get? found))
  have := List.mem_range.mp member
  have := a.bounded
  omega

/-- A free ID is held by no key. -/
theorem not_used_of_free (a : IdAllocator) (free : id ∈ a.free) (key : String) :
    a.ids.get? key ≠ some id := by
  intro used
  have distinct := a.tracked.nodup_iff.mpr List.nodup_range
  exact List.disjoint_of_nodup_append distinct (FMap.mem_values_of_get? used) free

/-- Nor is one that has never been given out. -/
theorem not_used_of_next (a : IdAllocator) (fresh : a.next ≤ id) (key : String) :
    a.ids.get? key ≠ some id := by
  intro used
  have member : id ∈ List.range a.next :=
    a.tracked.mem_iff.mp (List.mem_append_left _ (FMap.mem_values_of_get? used))
  have := List.mem_range.mp member
  omega

/-- A key keeps the ID it has, or gets one that no key holds. -/
theorem alloc_cases (allocated : a.alloc key = (.ok id, a')) :
    (a.ids.get? key = some id ∧ a' = a) ∨
      (a.ids.get? key = none ∧ (∀ other, a.ids.get? other ≠ some id) ∧ id < a.max ∧
        a'.max = a.max ∧ a'.ids = a.ids.insert key id) := by
  unfold alloc at allocated
  split at allocated
  · rename_i known found
    cases allocated
    exact Or.inl ⟨found, rfl⟩
  · rename_i absent
    split at allocated
    · -- The last freed ID is taken again.
      rename_i freed last
      cases allocated
      have member : id ∈ a.free := List.mem_of_getLast? last
      have below : id < a.next := by
        have := a.tracked.mem_iff.mp (List.mem_append_right _ member)
        exact List.mem_range.mp this
      have := a.bounded
      exact Or.inr ⟨absent, a.not_used_of_free member, by omega, rfl, rfl⟩
    · split at allocated
      · rename_i room
        cases allocated
        exact Or.inr ⟨absent, a.not_used_of_next (by omega), room, rfl, rfl⟩
      · cases allocated

/-- The key holds the ID it is given. -/
theorem get?_of_alloc (allocated : a.alloc key = (.ok id, a')) : a'.ids.get? key = some id := by
  rcases alloc_cases allocated with ⟨found, rfl⟩ | ⟨_, _, _, _, ids⟩
  · exact found
  · rw [ids, FMap.get?_insert_self]

/-- The other keys keep theirs. -/
theorem get?_alloc_of_ne (allocated : a.alloc key = (.ok id, a')) {other : String} (differ : other ≠ key) :
    a'.ids.get? other = a.ids.get? other := by
  rcases alloc_cases allocated with ⟨_, rfl⟩ | ⟨_, _, _, _, ids⟩
  · rfl
  · rw [ids, FMap.get?_insert_of_ne _ _ differ]

/-- The limit stays. -/
theorem max_alloc (allocated : a.alloc key = (.ok id, a')) : a'.max = a.max := by
  rcases alloc_cases allocated with ⟨_, rfl⟩ | ⟨_, _, _, capacity, _⟩
  · rfl
  · exact capacity

/-- Every ID ever given out is held or free. -/
theorem size_add_free (a : IdAllocator) : a.ids.size + a.free.length = a.next := by
  have length := a.tracked.length_eq
  rw [List.length_append, List.length_range, FMap.values, List.length_map] at length
  exact length

/-- A key gets no ID exactly if it has none and all are held. -/
theorem alloc_error_iff (a : IdAllocator) (key : String) :
    (∃ e, (a.alloc key).1 = .error e) ↔ a.ids.size = a.max ∧ a.ids.get? key = none := by
  have counted := a.size_add_free
  have bounded := a.bounded
  constructor
  · rintro ⟨e, failed⟩
    unfold alloc at failed
    split at failed
    · cases failed
    · rename_i absent
      split at failed
      · cases failed
      · rename_i none_free
        split at failed
        · cases failed
        · rename_i full
          rw [List.getLast?_eq_none_iff] at none_free
          rw [none_free, List.length_nil] at counted
          exact ⟨by omega, absent⟩
  · rintro ⟨full, absent⟩
    -- No ID is left over: neither a free one nor one above the mark.
    have none_free : a.free = [] := List.eq_nil_of_length_eq_zero (by omega)
    unfold alloc
    split
    · rename_i found
      cases absent.symm.trans found
    · split
      · rename_i last
        rw [none_free] at last
        cases last
      · rw [dif_neg (by omega)]
        exact ⟨_, rfl⟩

/-- As long as not all IDs are held, a key gets one. -/
theorem alloc_of_room (a : IdAllocator) (key : String) (room : a.ids.size < a.max) :
    ∃ id a', a.alloc key = (.ok id, a') := by
  rcases allocated : a.alloc key with ⟨e | id, a'⟩
  · have full := ((a.alloc_error_iff key).mp ⟨e, by rw [allocated]⟩).1
    omega
  · exact ⟨id, a', rfl⟩

/-- An allocation that fails leaves the allocator as it was. -/
theorem alloc_unchanged {e : String} (failed : a.alloc key = (.error e, a')) : a' = a := by
  unfold alloc at failed
  split at failed
  · cases failed
  · split at failed
    · cases failed
    · split at failed
      · cases failed
      · cases failed
        rfl

/-- At most one more ID is held. -/
theorem size_alloc_le (allocated : a.alloc key = (.ok id, a')) : a'.ids.size ≤ a.ids.size + 1 := by
  rcases alloc_cases allocated with ⟨_, rfl⟩ | ⟨absent, _, _, _, ids⟩
  · omega
  · rw [ids, FMap.size_insert_of_absent absent]

/-- A release takes the key's ID and no other. -/
theorem get?_release (a : IdAllocator) (key other : String) :
    (a.release key).ids.get? other = if other = key then none else a.ids.get? other := by
  unfold release
  split
  · rename_i absent
    by_cases same : other = key
    · rw [if_pos same, same, absent]
    · rw [if_neg same]
  · exact FMap.get?_erase _ _ _

/-- No more IDs are held afterwards. -/
theorem size_release_le (a : IdAllocator) (key : String) :
    (a.release key).ids.size ≤ a.ids.size := by
  unfold release
  split
  · omega
  · exact FMap.size_erase_le _ _

/-- A release keeps the limit. -/
theorem max_release (a : IdAllocator) (key : String) : (a.release key).max = a.max := by
  unfold release
  split <;> rfl

end IdAllocator

end Rivora

import Mathlib.Algebra.Order.Ring.Int
import Mathlib.Data.List.Range
import Mathlib.Data.List.Sort

/-! The allocator of slices of the shared lookup table, first-fit and merging what is freed. -/

namespace Rivora

variable {e : Extent} {free : List Extent} {size : Nat} {a : ExtentAllocator}

/-- A range of the shared table: `size` slots from `offset` on. -/
structure Extent where
  offset : Nat
  size : Nat
  deriving DecidableEq, Repr, Inhabited

/-- The slots of a range. -/
def Extent.slots (e : Extent) : List Nat := List.range' e.offset e.size

/-- The sizes a VIP's range can have. -/
def maglevSizeClasses : List Nat := [1031, 4099, 16411, 65537]

/-- The smallest size class that fits a number of backends with good distribution. -/
def maglevClassFor (backendCount : Nat) : Nat :=
  -- The product is taken in 32 bits.
  let want := backendCount % 2 ^ 32 * 100 % 2 ^ 32
  let want := if want < 1024 then 1024 else want
  (maglevSizeClasses.find? fun c => want ≤ c).getD 65537

/-- A first-fit allocator over the slots below `total`. -/
structure ExtentAllocator where
  total : Nat
  free : List Extent
  deriving DecidableEq, Repr

namespace ExtentAllocator

/-- An allocator that has handed nothing out. -/
def new (total : Nat) : ExtentAllocator := ⟨total, [⟨0, total⟩]⟩

/-- The first range that is large enough, cut from the front, and what is left of the list. -/
def takeFirst (size : Nat) : List Extent → Option (Extent × List Extent)
  | [] => none
  | e :: rest =>
    if e.size < size then (takeFirst size rest).map fun (found, rest) => (found, e :: rest)
    else
      -- A range that fits exactly leaves nothing behind.
      if e.size - size = 0 then some (⟨e.offset, size⟩, rest)
      else some (⟨e.offset, size⟩, ⟨e.offset + size, e.size - size⟩ :: rest)

/-- The error of a table without a free range of a size. -/
def exhausted (size : Nat) : String :=
  "no free maglev_table extent of size " ++ toString size ++ " available (table exhausted)"

/-- Hand out the first range of a size. -/
def alloc (a : ExtentAllocator) (size : Nat) : Except String Extent × ExtentAllocator :=
  match takeFirst size a.free with
  | some (found, free) => (.ok found, { a with free := free })
  | none => (.error (exhausted size), a)

/-- Join each range to the one in front of it where the two touch. -/
def mergeAdjacent : (last : Extent) → List Extent → List Extent
  | last, [] => [last]
  | last, cur :: rest =>
    if last.offset + last.size = cur.offset then
      mergeAdjacent ⟨last.offset, last.size + cur.size⟩ rest
    else last :: mergeAdjacent cur rest

/-- Take a range back, keeping the free ranges ordered and merged. -/
def freeExtent (a : ExtentAllocator) (e : Extent) : ExtentAllocator :=
  if e.size = 0 then a
  else
    match (a.free ++ [e]).insertionSort fun x y => x.offset ≤ y.offset with
    | [] => { a with free := [] }
    | first :: rest => { a with free := mergeAdjacent first rest }

/-- The slots no VIP owns. -/
def slots (a : ExtentAllocator) : List Nat := a.free.flatMap Extent.slots

/-- Free ranges in order, none of them empty, with a slot between each two that is not free. -/
structure Tidy (free : List Extent) : Prop where
  apart : free.Pairwise fun x y => x.offset + x.size < y.offset
  nonempty : ∀ e ∈ free, 0 < e.size

/-- What is left of the free ranges when a range is cut out of one of them. -/
inductive Cut (e : Extent) : List Extent → List Extent → Prop where
  | here {f : Extent} {rest : List Extent} (pieces : List Extent)
      (room : f.offset ≤ e.offset ∧ e.offset + e.size ≤ f.offset + f.size)
      (inside : ∀ p ∈ pieces, f.offset ≤ p.offset ∧ p.offset + p.size ≤ f.offset + f.size) (tidy : Tidy pieces)
      (slots : f.slots.Perm (e.slots ++ pieces.flatMap Extent.slots)) : Cut e (f :: rest) (pieces ++ rest)
  | behind {f : Extent} {free left : List Extent} (later : Cut e free left) : Cut e (f :: free) (f :: left)

theorem Cut.slots {left : List Extent} (cut : Cut e free left) :
    (free.flatMap Extent.slots).Perm (e.slots ++ left.flatMap Extent.slots) := by
  induction cut with
  | here pieces _ _ _ slots =>
    rw [List.flatMap_cons, List.flatMap_append, ← List.append_assoc]
    exact slots.append_right _
  | behind _ ih =>
    rw [List.flatMap_cons, List.flatMap_cons]
    refine (ih.append_left _).trans ?_
    rw [← List.append_assoc, ← List.append_assoc]
    exact List.perm_append_comm.append_right _

theorem takeFirst_cut {left : List Extent} {found : Extent}
    (taken : takeFirst size free = some (found, left)) : found.size = size ∧ Cut found free left := by
  -- The induction follows the search over the free list.
  induction free generalizing left with
  | nil => cases taken
  | cons e rest ih =>
    simp only [takeFirst] at taken
    split at taken
    · obtain ⟨⟨found', left'⟩, later, same⟩ := Option.map_eq_some_iff.mp taken
      cases same
      exact ⟨(ih later).1, (ih later).2.behind⟩
    · split at taken
      · cases taken
        obtain rfl : size = e.size := by omega
        exact ⟨rfl, .here [] (by simp) (by simp) ⟨.nil, by simp⟩ (by simp)⟩
      · cases taken
        refine ⟨rfl, .here [_] ?_ ?_ ⟨List.pairwise_singleton _ _, ?_⟩ ?_⟩
        · dsimp only
          omega
        · simp
          omega
        · simp
          omega
        · have whole : size + (e.size - size) = e.size := by omega
          rw [List.flatMap_singleton, Extent.slots, Extent.slots, Extent.slots, List.range'_append_1, whole]

theorem alloc_cut {a' : ExtentAllocator} (allocated : a.alloc size = (.ok e, a')) :
    e.size = size ∧ a'.total = a.total ∧ Cut e a.free a'.free := by
  unfold alloc at allocated
  split at allocated
  · rename_i taken
    cases allocated
    obtain ⟨sized, cut⟩ := takeFirst_cut taken
    exact ⟨sized, rfl, cut⟩
  · cases allocated

theorem alloc_slots {a' : ExtentAllocator}
    (allocated : a.alloc size = (.ok e, a')) :
    e.size = size ∧ a'.total = a.total ∧ a.slots.Perm (e.slots ++ a'.slots) := by
  obtain ⟨sized, total, cut⟩ := alloc_cut allocated
  exact ⟨sized, total, cut.slots⟩

theorem mergeAdjacent_slots (last : Extent) (rest : List Extent) :
    (mergeAdjacent last rest).flatMap Extent.slots = last.slots ++ rest.flatMap Extent.slots := by
  induction rest generalizing last with
  | nil => simp [mergeAdjacent]
  | cons cur rest ih =>
    simp only [mergeAdjacent]
    split
    · rename_i touching
      rw [ih, List.flatMap_cons, ← List.append_assoc]
      congr 1
      rw [Extent.slots, Extent.slots, Extent.slots, ← touching, List.range'_append_1]
    · rw [List.flatMap_cons, ih, List.flatMap_cons]

theorem freeExtent_slots (a : ExtentAllocator) (e : Extent) :
    (a.freeExtent e).slots.Perm (e.slots ++ a.slots) := by
  unfold freeExtent
  split
  · rename_i nothing
    simp [Extent.slots, nothing]
  · have sorted := List.perm_insertionSort (fun x y : Extent => x.offset ≤ y.offset) (a.free ++ [e])
    have perm := sorted.flatMap_right Extent.slots
    simp only [List.flatMap_append, List.flatMap_cons, List.flatMap_nil, List.append_nil] at perm
    refine List.Perm.trans ?_ (perm.trans List.perm_append_comm)
    split
    · rename_i none
      rw [none]
      exact List.Perm.refl _
    · rename_i first rest ordered
      rw [ordered, slots, mergeAdjacent_slots]
      exact List.Perm.refl _

theorem takeFirst_of_room (room : ∃ e ∈ free, size ≤ e.size) : ∃ result, takeFirst size free = some result := by
  induction free with
  | nil => simp at room
  | cons e rest ih =>
    simp only [takeFirst]
    split
    · rename_i small
      have later : ∃ e ∈ rest, size ≤ e.size := by
        obtain ⟨other, member, fits⟩ := room
        rcases List.mem_cons.mp member with rfl | behind
        · omega
        · exact ⟨other, behind, fits⟩
      obtain ⟨result, found⟩ := ih later
      exact ⟨_, by rw [found]; rfl⟩
    · split <;> exact ⟨_, rfl⟩

theorem alloc_of_room (room : ∃ e ∈ a.free, size ≤ e.size) :
    ∃ e a', a.alloc size = (.ok e, a') := by
  obtain ⟨⟨found, left⟩, taken⟩ := takeFirst_of_room room
  exact ⟨found, { a with free := left }, by rw [alloc, taken]⟩

end ExtentAllocator

theorem maglevClassFor_mem (backendCount : Nat) :
    maglevClassFor backendCount ∈ maglevSizeClasses := by
  unfold maglevClassFor
  dsimp only
  cases found : maglevSizeClasses.find? fun c =>
      decide ((if backendCount % 2 ^ 32 * 100 % 2 ^ 32 < 1024 then 1024
        else backendCount % 2 ^ 32 * 100 % 2 ^ 32) ≤ c) with
  | none => simp [maglevSizeClasses]
  | some size => exact List.mem_of_find?_eq_some found

end Rivora

import Rivora.Dataplane.Adopt
import Rivora.Lib.Run

/-! The two allocators of the control plane over whole histories: of IDs, and of ranges of the shared table. -/

namespace Rivora

/-- The calls of an allocator of IDs. -/
inductive IdCall where
  | alloc (key : String)
  | release (key : String)
  | reserve (key : String) (id : Nat)

namespace IdAllocator

/-- The allocator after a call, whether or not it fails. -/
def step (a : IdAllocator) : IdCall → IdAllocator
  | .alloc key => (a.alloc key).2
  | .release key => a.release key
  | .reserve key id => (a.reserve key id).2

/-- The allocator after some calls. -/
def after (max : Nat) (calls : List IdCall) : IdAllocator := Run.run step (new max) calls

theorem max_reserve (a : IdAllocator) (key : String) (id : Nat) : (a.reserve key id).2.max = a.max := by
  unfold reserve
  split
  · split
    · split <;> rfl
    · split
      · rfl
      · split <;> rfl
  · rfl

/-- A reservation that fails leaves the allocator as it was. -/
theorem reserve_unchanged {a a' : IdAllocator} {key e : String} {id : Nat}
    (failed : a.reserve key id = (.error e, a')) : a' = a := by
  unfold reserve at failed
  split at failed
  · split at failed
    · split at failed <;> cases failed
      rfl
    · split at failed
      · cases failed
        rfl
      · split at failed <;> cases failed
  · cases failed
    rfl

theorem max_step (a : IdAllocator) (call : IdCall) : (a.step call).max = a.max := by
  cases call with
  | alloc key =>
    change (a.alloc key).2.max = a.max
    rcases allocated : a.alloc key with ⟨e | id, a'⟩
    · rw [alloc_unchanged allocated]
    · exact max_alloc allocated
  | release key => exact a.max_release key
  | reserve key id => exact a.max_reserve key id

theorem max_after (max : Nat) (calls : List IdCall) : (after max calls).max = max :=
  Run.invariant (P := fun a : IdAllocator => a.max = max) (fun same _ => (max_step _ _).trans same) rfl
    (Run.along_of_forall (fun _ _ => trivial : ∀ call ∈ calls, True) _)

/--
Each ID below the mark is held by one key or free, once, whatever was called before.

An allocation fails only when the keys hold all IDs, and a refused reservation changes nothing.
-/
theorem ids_are_accounted_for (max : Nat) (calls : List IdCall) :
    (∀ j k id, (after max calls).ids.get? j = some id → (after max calls).ids.get? k = some id → j = k) ∧
      (after max calls).free.Nodup ∧
      (∀ key id, (after max calls).ids.get? key = some id → id ∉ (after max calls).free) ∧
      (∀ id, (∃ key, (after max calls).ids.get? key = some id) ∨ id ∈ (after max calls).free ↔
        id < (after max calls).next) ∧
      (after max calls).next ≤ max ∧
      (∀ key, (∃ e, ((after max calls).alloc key).1 = .error e) ↔
        (after max calls).ids.size = max ∧ (after max calls).ids.get? key = none) ∧
      ∀ key id e, ((after max calls).reserve key id).1 = .error e →
        (after max calls).step (.reserve key id) = after max calls := by
  have capacity := max_after max calls
  generalize after max calls = a at capacity ⊢
  have distinct := a.tracked.nodup_iff.mpr List.nodup_range
  refine ⟨fun j k id left right => a.key_unique left right, distinct.of_append_right,
    fun key id held free => a.not_used_of_free free key held, fun id => ?_, capacity ▸ a.bounded,
    fun key => capacity ▸ a.alloc_error_iff key, fun key id e refused => reserve_unchanged (Prod.ext refused rfl)⟩
  rw [← List.mem_range, ← a.tracked.mem_iff, List.mem_append]
  refine or_congr_left ⟨?_, fun value => ?_⟩
  · rintro ⟨key, held⟩
    exact FMap.mem_values_of_get? held
  · obtain ⟨⟨key, id⟩, entry, rfl⟩ := List.mem_map.mp value
    exact ⟨key, FMap.get?_eq_some.mpr entry⟩

end IdAllocator

@[simp] theorem Extent.mem_slots {e : Extent} {slot : Nat} :
    slot ∈ e.slots ↔ e.offset ≤ slot ∧ slot < e.offset + e.size := List.mem_range'_1

namespace ExtentAllocator

section Lists

variable {free left : List Extent} {e f : Extent} {start size : Nat}

theorem Cut.room (cut : Cut e free left) :
    ∃ f ∈ free, f.offset ≤ e.offset ∧ e.offset + e.size ≤ f.offset + f.size := by
  induction cut with
  | here pieces room => exact ⟨_, List.mem_cons_self, room⟩
  | behind _ ih =>
    obtain ⟨f, member, room⟩ := ih
    exact ⟨f, List.mem_cons_of_mem _ member, room⟩

theorem Cut.inside (cut : Cut e free left) {p : Extent} (kept : p ∈ left) :
    ∃ f ∈ free, f.offset ≤ p.offset ∧ p.offset + p.size ≤ f.offset + f.size := by
  induction cut with
  | here pieces _ inside =>
    obtain piece | later := List.mem_append.mp kept
    · exact ⟨_, List.mem_cons_self, inside p piece⟩
    · exact ⟨p, List.mem_cons_of_mem _ later, Nat.le_refl _, Nat.le_refl _⟩
  | behind _ ih =>
    obtain rfl | later := List.mem_cons.mp kept
    · exact ⟨p, List.mem_cons_self, Nat.le_refl _, Nat.le_refl _⟩
    · obtain ⟨f, member, room⟩ := ih later
      exact ⟨f, List.mem_cons_of_mem _ member, room⟩

theorem Tidy.cons_iff : Tidy (f :: free) ↔
    (∀ g ∈ free, f.offset + f.size < g.offset) ∧ 0 < f.size ∧ Tidy free := by
  constructor
  · rintro ⟨apart, nonempty⟩
    obtain ⟨next, later⟩ := List.pairwise_cons.mp apart
    exact ⟨next, nonempty f List.mem_cons_self, later, fun g member => nonempty g (List.mem_cons_of_mem _ member)⟩
  · rintro ⟨next, filled, apart, nonempty⟩
    exact ⟨List.pairwise_cons.mpr ⟨next, apart⟩, List.forall_mem_cons.mpr ⟨filled, nonempty⟩⟩

/-- A free list stays tidy when a piece is cut from it. -/
theorem Cut.tidy (cut : Cut e free left) (tidy : Tidy free) : Tidy left := by
  induction cut with
  | here pieces _ inside within =>
    obtain ⟨next, _, apart, nonempty⟩ := Tidy.cons_iff.mp tidy
    refine ⟨List.pairwise_append.mpr ⟨within.apart, apart, fun p piece g later => ?_⟩, fun g member => ?_⟩
    · have := inside p piece
      have := next g later
      omega
    · exact (List.mem_append.mp member).elim (within.nonempty g) (nonempty g)
  | behind later ih =>
    obtain ⟨next, filled, tidy⟩ := Tidy.cons_iff.mp tidy
    refine Tidy.cons_iff.mpr ⟨fun g member => ?_, filled, ih tidy⟩
    obtain ⟨f, among, _⟩ := later.inside member
    have := next f among
    omega

theorem Tidy.same_or_apart (tidy : Tidy free) (first : e ∈ free) (second : f ∈ free) :
    e = f ∨ e.offset + e.size < f.offset ∨ f.offset + f.size < e.offset := by
  obtain ⟨i, here, rfl⟩ := List.getElem_of_mem first
  obtain ⟨j, there, rfl⟩ := List.getElem_of_mem second
  have apart := List.pairwise_iff_getElem.mp tidy.apart
  rcases Nat.lt_trichotomy i j with before | rfl | behind
  · exact .inr (.inl (apart i j here there before))
  · exact .inl rfl
  · exact .inr (.inr (apart j i there here behind))

theorem Tidy.row (tidy : Tidy free) (positive : 0 < size)
    (row : ∀ slot ∈ (Extent.mk start size).slots, slot ∈ free.flatMap Extent.slots) :
    ∃ f ∈ free, f.offset ≤ start ∧ start + size ≤ f.offset + f.size := by
  -- The range of the first slot holds the next one as well, as no other range touches it.
  induction size with
  | zero => omega
  | succ n ih =>
    obtain ⟨g, among, inside⟩ := List.mem_flatMap.mp (row (start + n) (by simp))
    rw [Extent.mem_slots] at inside
    rcases Nat.eq_zero_or_pos n with rfl | longer
    · exact ⟨g, among, by omega⟩
    · obtain ⟨f, member, first, last⟩ := ih longer fun slot held => row slot (by
        simp only [Extent.mem_slots] at held ⊢
        omega)
      obtain rfl | apart := tidy.same_or_apart member among
      · exact ⟨f, member, by omega⟩
      · omega

/-- A reservation cuts its range from the free list. -/
theorem carve_cut (positive : 0 < e.size) (carved : carve e free = some left) : Cut e free left := by
  induction free generalizing left with
  | nil => cases carved
  | cons f rest ih =>
    simp only [carve] at carved
    split at carved
    · obtain ⟨left', later, rfl⟩ := Option.map_eq_some_iff.mp carved
      exact (ih later).behind
    · obtain rfl := Option.some.inj carved
      refine .here _ (by omega) ?_ ⟨?_, ?_⟩ ?_
      · split <;> split <;> simp <;> omega
      · split <;> split <;> simp
        omega
      · split <;> split <;> simp <;> omega
      · -- In front of the range, the range, and behind it.
        obtain ⟨k, place⟩ : ∃ k, e.offset = f.offset + k := ⟨e.offset - f.offset, by omega⟩
        obtain ⟨n, rest⟩ : ∃ n, f.size = k + (e.size + n) := ⟨f.size - (k + e.size), by omega⟩
        have front : (if e.offset > f.offset then [Extent.mk f.offset (e.offset - f.offset)]
            else []).flatMap Extent.slots = List.range' f.offset k := by
          rw [show e.offset - f.offset = k by omega]
          split
          · simp [Extent.slots]
          · simp [show k = 0 by omega]
        have back : (if e.offset + e.size < f.offset + f.size then
            [Extent.mk (e.offset + e.size) (f.offset + f.size - (e.offset + e.size))]
            else []).flatMap Extent.slots = List.range' (f.offset + k + e.size) n := by
          rw [show f.offset + f.size - (e.offset + e.size) = n by omega, place]
          split
          · simp [Extent.slots]
          · simp [show n = 0 by omega]
        rw [List.flatMap_append, front, back, Extent.slots, Extent.slots, place, rest, ← List.range'_append_1,
          ← List.range'_append_1, ← List.append_assoc, ← List.append_assoc]
        exact List.perm_append_comm.append_right _

/-- It succeeds within a free range. -/
theorem carve_of_inside (member : f ∈ free)
    (inside : f.offset ≤ e.offset ∧ e.offset + e.size ≤ f.offset + f.size) : ∃ left, carve e free = some left := by
  induction free with
  | nil => cases member
  | cons g rest ih =>
    rw [carve]
    split
    · rename_i outside
      obtain rfl | later := List.mem_cons.mp member
      · omega
      · obtain ⟨left, carved⟩ := ih later
        exact ⟨_, by rw [carved]; rfl⟩
    · exact ⟨_, rfl⟩

/-- Merging neighbours leaves a tidy list. -/
theorem mergeAdjacent_tidy {last : Extent} {rest : List Extent}
    (ordered : (last :: rest).Pairwise fun x y => x.offset + x.size ≤ y.offset)
    (nonempty : ∀ e ∈ last :: rest, 0 < e.size) :
    Tidy (mergeAdjacent last rest) ∧ ∀ e ∈ mergeAdjacent last rest, last.offset ≤ e.offset := by
  induction rest generalizing last with
  | nil => exact ⟨⟨List.pairwise_singleton _ _, nonempty⟩, by simp [mergeAdjacent]⟩
  | cons cur rest ih =>
    obtain ⟨next, later⟩ := List.pairwise_cons.mp ordered
    obtain ⟨next', later'⟩ := List.pairwise_cons.mp later
    have room := next cur List.mem_cons_self
    have filled := nonempty last List.mem_cons_self
    rw [mergeAdjacent]
    split
    · -- The joined range ends where the second did.
      refine ih (List.pairwise_cons.mpr ⟨fun y behind => ?_, later'⟩) ?_
      · have := next' y behind
        dsimp only
        omega
      · intro x member
        obtain rfl | behind := List.mem_cons.mp member
        · exact Nat.add_pos_left filled _
        · exact nonempty x (List.mem_cons_of_mem _ (List.mem_cons_of_mem _ behind))
    · obtain ⟨tidy, behind⟩ := ih later fun x member => nonempty x (List.mem_cons_of_mem _ member)
      refine ⟨Tidy.cons_iff.mpr ⟨fun y member => ?_, filled, tidy⟩, List.forall_mem_cons.mpr ⟨Nat.le_refl _, ?_⟩⟩
      · have := behind y member
        omega
      · intro x member
        have := behind x member
        omega

/-- So does a range that is given back. -/
theorem freeExtent_tidy {a : ExtentAllocator} (tidy : Tidy a.free) (distinct : (e.slots ++ a.slots).Nodup) :
    Tidy (a.freeExtent e).free := by
  unfold freeExtent
  split
  · exact tidy
  · rename_i filled
    have sorted := List.pairwise_insertionSort (fun x y : Extent => x.offset ≤ y.offset) (a.free ++ [e])
    have perm := List.perm_insertionSort (fun x y : Extent => x.offset ≤ y.offset) (a.free ++ [e])
    generalize (a.free ++ [e]).insertionSort (fun x y => x.offset ≤ y.offset) = ranges at sorted perm ⊢
    have nonempty : ∀ x ∈ ranges, 0 < x.size := by
      intro x member
      obtain free | given := List.mem_append.mp (perm.mem_iff.mp member)
      · exact tidy.nonempty x free
      · cases List.mem_singleton.mp given
        exact Nat.pos_of_ne_zero filled
    -- Ranges without a common slot that are sorted by their starts follow each other.
    have once : (ranges.flatMap Extent.slots).Nodup := by
      refine (perm.flatMap_right Extent.slots).nodup_iff.mpr ?_
      rw [List.flatMap_append, List.flatMap_singleton]
      exact (List.perm_append_comm.nodup_iff).mp distinct
    have ordered : ranges.Pairwise fun x y => x.offset + x.size ≤ y.offset := by
      refine (sorted.and (List.nodup_flatMap.mp once).2).imp_of_mem ?_
      rintro x y - member ⟨before, disjoint⟩
      have := nonempty y member
      have outside : y.offset ∉ x.slots := fun shared => disjoint shared (by simp; omega)
      rw [Extent.mem_slots] at outside
      omega
    cases ranges with
    | nil => exact ⟨.nil, by simp⟩
    | cons first rest => exact (mergeAdjacent_tidy ordered nonempty).1

theorem freeExtent_total (a : ExtentAllocator) (e : Extent) : (a.freeExtent e).total = a.total := by
  unfold freeExtent
  split
  · rfl
  · split <;> rfl

end Lists

/-- An allocation that fails leaves the table as it was. -/
theorem alloc_unchanged {a a' : ExtentAllocator} {size : Nat} {text : String}
    (failed : a.alloc size = (.error text, a')) : a' = a := by
  unfold alloc at failed
  split at failed
  · cases failed
  · cases failed
    rfl

/-- A reservation that fails leaves the table as it was. -/
theorem reserve_unchanged {a a' : ExtentAllocator} {e : Extent} {text : String}
    (failed : a.reserve e = (.error text, a')) : a' = a := by
  unfold reserve at failed
  dsimp only at failed
  split at failed
  · cases failed
    rfl
  · split at failed
    · cases failed
    · cases failed
      rfl

end ExtentAllocator

/-- The allocator of the table with the ranges it has handed out. -/
structure TableUse where
  table : ExtentAllocator
  live : List Extent

/-- The calls of the allocator of ranges; all numbers have 32 bits. -/
inductive TableCall where
  | alloc (size : UInt32)
  | reserve (offset size : UInt32)
  | free (e : Extent)

namespace TableUse

/-- A call; a range is live once it was handed out. -/
def step (s : TableUse) : TableCall → TableUse
  | .alloc size =>
    match s.table.alloc size.toNat with
    | (.ok e, table) => ⟨table, e :: s.live⟩
    | (.error _, table) => ⟨table, s.live⟩
  | .reserve offset size =>
    match s.table.reserve ⟨offset.toNat, size.toNat⟩ with
    | (.ok _, table) => ⟨table, ⟨offset.toNat, size.toNat⟩ :: s.live⟩
    | (.error _, table) => ⟨table, s.live⟩
  | .free e => ⟨s.table.freeExtent e, s.live.erase e⟩

/-- Only a range that was handed out is given back. -/
def FreesLive (s : TableUse) : TableCall → Prop
  | .free e => e ∈ s.live
  | _ => True

/-- A call that returns an error. -/
def Refused (s : TableUse) : TableCall → Prop
  | .alloc size => ∃ e, (s.table.alloc size.toNat).1 = .error e
  | .reserve offset size => ∃ e, (s.table.reserve ⟨offset.toNat, size.toNat⟩).1 = .error e
  | .free _ => False

/-- An allocator that has handed nothing out. -/
def start (total : Nat) : TableUse := ⟨ExtentAllocator.new total, []⟩

/-- A range of the table without a slot of a live range. -/
def Vacant (total : Nat) (s : TableUse) (e : Extent) : Prop :=
  e.offset + e.size ≤ total ∧ ∀ slot ∈ e.slots, ∀ other ∈ s.live, slot ∉ other.slots

/-- Each slot of the table is live or free, once. -/
structure Exact (total : Nat) (s : TableUse) : Prop where
  sized : s.table.total = total
  tidy : ExtentAllocator.Tidy s.table.free
  accounted : (s.live.flatMap Extent.slots ++ s.table.slots).Perm (List.range total)
  inside : ∀ e ∈ s.live, e.offset + e.size ≤ total

section Steps

variable {total : Nat} {s : TableUse} {table : ExtentAllocator} {e f : Extent} {size : Nat}

theorem Exact.start (positive : 0 < total) : Exact total (start total) :=
  ⟨rfl, ⟨List.pairwise_singleton _ _, by simpa [TableUse.start, ExtentAllocator.new] using positive⟩,
    by simp [TableUse.start, ExtentAllocator.new, ExtentAllocator.slots, Extent.slots, List.range_eq_range'],
    by simp [TableUse.start]⟩

theorem Exact.slot_lt (exact : Exact total s) {slot : Nat} (free : slot ∈ s.table.slots) : slot < total :=
  List.mem_range.mp (exact.accounted.mem_iff.mp (List.mem_append_right _ free))

theorem Exact.free_inside (exact : Exact total s) (free : f ∈ s.table.free) : f.offset + f.size ≤ total := by
  have filled := exact.tidy.nonempty f free
  have last := exact.slot_lt (List.mem_flatMap.mpr ⟨f, free, show f.offset + f.size - 1 ∈ f.slots by
    rw [Extent.mem_slots]; omega⟩)
  omega

theorem Exact.hand_out (exact : Exact total s) (sized : table.total = s.table.total)
    (cut : ExtentAllocator.Cut e s.table.free table.free) : Exact total ⟨table, e :: s.live⟩ := by
  obtain ⟨f, free, room⟩ := cut.room
  refine ⟨sized.trans exact.sized, cut.tidy exact.tidy, ?_,
    List.forall_mem_cons.mpr ⟨room.2.trans (exact.free_inside free), exact.inside⟩⟩
  rw [List.flatMap_cons]
  refine List.Perm.trans ?_ ((cut.slots.append_left _).symm.trans exact.accounted)
  rw [← List.append_assoc]
  exact List.perm_append_comm.append_right _

/-- An allocation keeps the partition. -/
theorem Exact.alloc (exact : Exact total s) (allocated : s.table.alloc size = (.ok e, table)) :
    Exact total ⟨table, e :: s.live⟩ := by
  obtain ⟨_, sized, cut⟩ := ExtentAllocator.alloc_cut allocated
  exact exact.hand_out sized cut

/-- So does a reservation. -/
theorem Exact.reserve (exact : Exact total s) (reserved : s.table.reserve e = (.ok (), table)) :
    0 < e.size ∧ Exact total ⟨table, e :: s.live⟩ := by
  unfold ExtentAllocator.reserve at reserved
  dsimp only at reserved
  split at reserved
  · cases reserved
  · have filled : 0 < e.size := by omega
    split at reserved
    · rename_i carved
      cases reserved
      exact ⟨filled, exact.hand_out rfl (ExtentAllocator.carve_cut filled carved)⟩
    · cases reserved

/-- So does a range that is given back. -/
theorem Exact.free (exact : Exact total s) (live : e ∈ s.live) :
    Exact total ⟨s.table.freeExtent e, s.live.erase e⟩ := by
  have moved : (s.live.flatMap Extent.slots ++ s.table.slots).Perm
      ((s.live.erase e).flatMap Extent.slots ++ (e.slots ++ s.table.slots)) := by
    rw [← List.append_assoc]
    refine (((List.perm_cons_erase live).flatMap_right Extent.slots).trans ?_).append_right _
    exact List.perm_append_comm
  have once := (moved.symm.trans exact.accounted).nodup_iff.mpr List.nodup_range
  exact ⟨(s.table.freeExtent_total e).trans exact.sized,
    ExtentAllocator.freeExtent_tidy exact.tidy once.of_append_right,
    (((s.table.freeExtent_slots e).append_left _).trans moved.symm).trans exact.accounted,
    fun x member => exact.inside x (List.mem_of_mem_erase member)⟩

theorem refused_step {call : TableCall} (refused : s.Refused call) : s.step call = s := by
  cases call with
  | alloc size =>
    obtain ⟨e, failed⟩ := refused
    rcases allocated : s.table.alloc size.toNat with ⟨text | e, table⟩
    · simp only [TableUse.step, allocated, ExtentAllocator.alloc_unchanged allocated]
    · rw [allocated] at failed
      cases failed
  | reserve offset size =>
    obtain ⟨e, failed⟩ := refused
    rcases reserved : s.table.reserve ⟨offset.toNat, size.toNat⟩ with ⟨text | _, table⟩
    · simp only [TableUse.step, reserved, ExtentAllocator.reserve_unchanged reserved]
    · rw [reserved] at failed
      cases failed
  | free e => cases refused

/-- So does every orderly call. -/
theorem Exact.step {call : TableCall} (exact : Exact total s) (orderly : s.FreesLive call) :
    Exact total (s.step call) := by
  -- A refused call changes nothing; the others hand a range out or take it back.
  cases call with
  | alloc size =>
    rcases allocated : s.table.alloc size.toNat with ⟨text | e, table⟩
    · rw [@refused_step s (.alloc size) ⟨text, by rw [allocated]⟩]
      exact exact
    · simp only [TableUse.step, allocated]
      exact exact.alloc allocated
  | reserve offset size =>
    rcases reserved : s.table.reserve ⟨offset.toNat, size.toNat⟩ with ⟨text | _, table⟩
    · rw [@refused_step s (.reserve offset size) ⟨text, by rw [reserved]⟩]
      exact exact
    · simp only [TableUse.step, reserved]
      exact (exact.reserve reserved).2
  | free e => exact exact.free orderly

end Steps

/-- The live and the free ranges share the table, and a call succeeds wherever the live ones leave it room. -/
structure Partition (total : Nat) (s : TableUse) : Prop where
  disjoint : s.live.Pairwise fun x y => List.Disjoint x.slots y.slots
  inside : ∀ e ∈ s.live, e.offset + e.size ≤ total
  ordered : s.table.free.Pairwise fun x y => x.offset + x.size < y.offset
  nonempty : ∀ e ∈ s.table.free, 0 < e.size
  complement : ∀ slot, slot ∈ s.table.slots ↔ slot < total ∧ ∀ e ∈ s.live, slot ∉ e.slots
  alloc : ∀ size : UInt32, 0 < size →
    ((∃ e, (s.table.alloc size.toNat).1 = .ok e) ↔ ∃ start, Vacant total s ⟨start, size.toNat⟩)
  reserve : ∀ offset size : UInt32, (s.table.reserve ⟨offset.toNat, size.toNat⟩).1 = .ok () ↔
    0 < size ∧ Vacant total s ⟨offset.toNat, size.toNat⟩
  refused : ∀ call, s.Refused call → s.step call = s
  drained : s.live = [] → s.table.free = [⟨0, total⟩]

section Account

variable {total : Nat} {s : TableUse} {e f : Extent}

/-- A slot is free if no live range has it. -/
theorem Exact.complement (exact : Exact total s) (slot : Nat) :
    slot ∈ s.table.slots ↔ slot < total ∧ ∀ e ∈ s.live, slot ∉ e.slots := by
  have once := exact.accounted.nodup_iff.mpr List.nodup_range
  rw [← List.mem_range, ← exact.accounted.mem_iff, List.mem_append, List.mem_flatMap]
  constructor
  · intro free
    refine ⟨.inr free, fun e live held => ?_⟩
    exact List.disjoint_of_nodup_append once (List.mem_flatMap.mpr ⟨e, live, held⟩) free
  · rintro ⟨⟨e, live, held⟩ | free, outside⟩
    · exact absurd held (outside e live)
    · exact free

theorem Exact.vacant_iff (exact : Exact total s) (filled : 0 < e.size) :
    Vacant total s e ↔ ∃ f ∈ s.table.free, f.offset ≤ e.offset ∧ e.offset + e.size ≤ f.offset + f.size := by
  constructor
  · rintro ⟨inside, outside⟩
    refine exact.tidy.row filled fun slot held => (exact.complement slot).mpr ⟨?_, outside slot held⟩
    rw [Extent.mem_slots] at held
    exact held.2.trans_le inside
  · rintro ⟨f, free, first, last⟩
    refine ⟨last.trans (exact.free_inside free), fun slot held => ?_⟩
    refine ((exact.complement slot).mp (List.mem_flatMap.mpr ⟨f, free, ?_⟩)).2
    rw [Extent.mem_slots] at held ⊢
    omega

theorem Exact.vacant {table : ExtentAllocator} (exact : Exact total ⟨table, e :: s.live⟩) : Vacant total s e := by
  have once := exact.accounted.nodup_iff.mpr List.nodup_range
  have apart := List.pairwise_cons.mp (List.nodup_flatMap.mp once.of_append_left).2
  exact ⟨exact.inside _ List.mem_cons_self, fun slot held other live shared => apart.1 other live held shared⟩

/-- An allocation succeeds if some row of slots is vacant. -/
theorem Exact.alloc_iff (exact : Exact total s) {size : Nat} (positive : 0 < size) :
    (∃ e, (s.table.alloc size).1 = .ok e) ↔ ∃ start, Vacant total s ⟨start, size⟩ := by
  constructor
  · rintro ⟨e, granted⟩
    have allocated : s.table.alloc size = (.ok e, (s.table.alloc size).2) := Prod.ext granted rfl
    obtain ⟨rfl, _⟩ := ExtentAllocator.alloc_cut allocated
    exact ⟨e.offset, (exact.alloc allocated).vacant⟩
  · rintro ⟨start, vacant⟩
    obtain ⟨f, free, first, last⟩ := (exact.vacant_iff positive).mp vacant
    dsimp only at first last
    obtain ⟨e, table, allocated⟩ := ExtentAllocator.alloc_of_room ⟨f, free, show size ≤ f.size by omega⟩
    exact ⟨e, by rw [allocated]⟩

/-- A reservation succeeds if its range is vacant. -/
theorem Exact.reserve_iff (exact : Exact total s) (narrow : total < 2 ^ 32) (offset size : UInt32) :
    (s.table.reserve ⟨offset.toNat, size.toNat⟩).1 = .ok () ↔
      0 < size ∧ Vacant total s ⟨offset.toNat, size.toNat⟩ := by
  have positive : 0 < size ↔ 0 < size.toNat := UInt32.lt_iff_toNat_lt
  rw [positive]
  constructor
  · intro granted
    have reserved : s.table.reserve ⟨offset.toNat, size.toNat⟩ =
        (.ok (), (s.table.reserve ⟨offset.toNat, size.toNat⟩).2) := Prod.ext granted rfl
    exact (exact.reserve reserved).imp_right Exact.vacant
  · rintro ⟨filled, vacant⟩
    obtain ⟨f, free, inside⟩ := (exact.vacant_iff filled).mp vacant
    obtain ⟨left, carved⟩ := ExtentAllocator.carve_of_inside free inside
    have room := vacant.1
    dsimp only at room
    unfold ExtentAllocator.reserve
    dsimp only
    rw [Nat.mod_eq_of_lt (by omega), if_neg (by rw [exact.sized]; omega), carved]

theorem Exact.drained (exact : Exact total s) (positive : 0 < total) (idle : s.live = []) :
    s.table.free = [⟨0, total⟩] := by
  have vacant : Vacant total s ⟨0, total⟩ := ⟨by simp, by simp [idle]⟩
  obtain ⟨f, free, first, last⟩ := (exact.vacant_iff positive).mp vacant
  have inside := exact.free_inside free
  have same : f = ⟨0, total⟩ := by
    cases f
    simp only at first last inside
    simp only [Extent.mk.injEq]
    omega
  -- Another free range would lie outside the table.
  have only : ∀ g ∈ s.table.free, g = ⟨0, total⟩ := by
    intro g other
    have within := exact.free_inside other
    have filled := exact.tidy.nonempty g other
    obtain rfl | apart := exact.tidy.same_or_apart free other
    · exact same
    · rw [same] at apart
      dsimp only at apart
      omega
  obtain ⟨n, replicated⟩ : ∃ n, s.table.free = List.replicate n ⟨0, total⟩ :=
    ⟨_, List.eq_replicate_of_mem only⟩
  have apart := exact.tidy.apart
  rw [replicated] at apart free ⊢
  obtain _ | _ | n := n
  · cases free
  · rfl
  · have := (List.pairwise_cons.mp apart).1 _ List.mem_cons_self
    dsimp only at this
    omega

theorem Exact.partition (exact : Exact total s) (positive : 0 < total) (narrow : total < 2 ^ 32) :
    Partition total s where
  disjoint := (List.nodup_flatMap.mp (exact.accounted.nodup_iff.mpr List.nodup_range).of_append_left).2
  inside := exact.inside
  ordered := exact.tidy.apart
  nonempty := exact.tidy.nonempty
  complement := exact.complement
  alloc := fun _ filled => exact.alloc_iff (UInt32.lt_iff_toNat_lt.mp filled)
  reserve := exact.reserve_iff narrow
  refused := fun _ => refused_step
  drained := exact.drained positive

end Account

/-- In every history in which only live ranges are freed, the live and the free ranges share the table. -/
theorem extents_share_table (total : UInt32) (positive : 0 < total) (calls : List TableCall)
    (orderly : Run.Along step FreesLive (start total.toNat) calls) :
    Partition total.toNat (Run.run step (start total.toNat) calls) :=
  (Run.invariant (P := Exact total.toNat) Exact.step (Exact.start (UInt32.lt_iff_toNat_lt.mp positive))
    orderly).partition (UInt32.lt_iff_toNat_lt.mp positive) total.toNat_lt

/-- A reservation in the middle of ten slots, given back, leaves them in one row. -/
theorem reserved_middle_returns :
    (Run.run step (start 10) [.reserve 3 4, .alloc 2, .free ⟨3, 4⟩, .free ⟨0, 2⟩]).table.free = [⟨0, 10⟩] :=
  (extents_share_table 10 (by decide) [.reserve 3 4, .alloc 2, .free ⟨3, 4⟩, .free ⟨0, 2⟩]
    ⟨trivial, trivial, show _ ∈ _ by decide, show _ ∈ _ by decide, trivial⟩).drained (by decide)

/-- A table without slots starts with an empty free range. -/
theorem empty_table_lists_empty : (start 0).table.free = [⟨0, 0⟩] ∧ ¬ Partition 0 (start 0) :=
  ⟨rfl, fun shared => absurd (shared.nonempty ⟨0, 0⟩ (by decide)) (by decide)⟩

end TableUse

end Rivora

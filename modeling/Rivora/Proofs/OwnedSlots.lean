import Rivora.Proofs.Owned

/-! Ownership of service IDs by entries, and of the slots of the shared table by extents. -/

namespace Rivora

variable {key : String} {entry : ServiceEntry} {e : Extent} {slot : Nat}

/-- Exactly the programmed VIPs hold service IDs. -/
structure ServicesOwned (p : Dataplane) : Prop where
  capacity : p.serviceAlloc.max = maxVIPs
  ids : ∀ key, p.serviceAlloc.ids.get? key = (p.services.get? key).map ServiceEntry.serviceID

namespace ServicesOwned

variable {p : Dataplane}

/-- A VIP holds its service ID. -/
theorem id_of_found (owned : ServicesOwned p)
    (found : p.services.get? key = some entry) :
    p.serviceAlloc.ids.get? key = some entry.serviceID := by
  rw [owned.ids, found, Option.map_some]

/-- No two VIPs share a service ID. -/
theorem key_unique (owned : ServicesOwned p) {k₁ k₂ : String} {e₁ e₂ : ServiceEntry}
    (first : p.services.get? k₁ = some e₁) (second : p.services.get? k₂ = some e₂)
    (same : e₁.serviceID = e₂.serviceID) : k₁ = k₂ :=
  p.serviceAlloc.key_unique (owned.id_of_found first) (same ▸ owned.id_of_found second)

theorem id_lt (owned : ServicesOwned p)
    (found : p.services.get? key = some entry) : entry.serviceID < maxVIPs :=
  owned.capacity ▸ p.serviceAlloc.id_lt_max (owned.id_of_found found)

/-- A new VIP gets an ID of its own. -/
theorem create (owned : ServicesOwned p) {id : Nat} {alloc : IdAllocator}
    (absent : p.services.get? key = none) (allocated : p.serviceAlloc.alloc key = (.ok id, alloc))
    (entry : ServiceEntry) (named : entry.serviceID = id) :
    ServicesOwned { p with serviceAlloc := alloc, services := p.services.insert key entry } ∧
      id < maxVIPs ∧ ∀ k e, p.services.get? k = some e → e.serviceID ≠ id := by
  have unknown : p.serviceAlloc.ids.get? key = none := by rw [owned.ids, absent, Option.map_none]
  rcases IdAllocator.alloc_cases allocated with ⟨known, _⟩ | ⟨_, unused, room, capacity, ids⟩
  · rw [unknown] at known
    cases known
  · refine ⟨⟨capacity.trans owned.capacity, ?_⟩, owned.capacity ▸ room, ?_⟩
    · intro other
      simp only [ids, FMap.get?_insert]
      split
      · rw [Option.map_some, named]
      · exact owned.ids other
    · intro k e found same
      exact unused k (same ▸ owned.id_of_found found)

theorem congr (owned : ServicesOwned p) {q : Dataplane}
    (ids : ∀ key, (q.services.get? key).map ServiceEntry.serviceID =
      (p.services.get? key).map ServiceEntry.serviceID)
    (alloc : q.serviceAlloc = p.serviceAlloc) : ServicesOwned q := by
  refine ⟨alloc ▸ owned.capacity, ?_⟩
  intro key
  rw [ids, alloc]
  exact owned.ids key

theorem modifyEntry (owned : ServicesOwned p) {f : ServiceEntry → ServiceEntry}
    (kept : ∀ e, (f e).serviceID = e.serviceID) : ServicesOwned (p.modifyEntry key f) := by
  unfold Dataplane.modifyEntry
  split
  · exact owned
  · rename_i entry found
    refine ⟨owned.capacity, ?_⟩
    intro other
    simp only [FMap.get?_insert]
    split
    · rename_i same
      rw [same, owned.ids, found, Option.map_some, Option.map_some, kept]
    · exact owned.ids other

/-- A VIP that goes gives its ID back. -/
theorem drop (owned : ServicesOwned p) (key : String) :
    ServicesOwned
      { p with serviceAlloc := p.serviceAlloc.release key, services := p.services.erase key } := by
  refine ⟨(p.serviceAlloc.max_release key).trans owned.capacity, ?_⟩
  intro other
  simp only [IdAllocator.get?_release, FMap.get?_erase]
  split
  · rfl
  · exact owned.ids other

end ServicesOwned

/-- The ranges of the table the VIPs own. -/
def Dataplane.extents (p : Dataplane) : List Extent := p.services.values.map ServiceEntry.extent

/-- The free slots, those of the VIPs and those of some further ranges are the table, each once. -/
def Tiled (extra : List Extent) (p : Dataplane) : Prop :=
  (p.maglevAlloc.slots ++ (p.extents ++ extra).flatMap Extent.slots).Perm (List.range maglevM)

namespace Tiled

variable {extra : List Extent} {p : Dataplane}

/-- A range that is given out leaves the free ones. -/
theorem alloc (tiled : Tiled extra p) {size : Nat} {a : ExtentAllocator}
    (allocated : p.maglevAlloc.alloc size = (.ok e, a)) :
    Tiled (e :: extra) { p with maglevAlloc := a } := by
  obtain ⟨_, _, perm⟩ := ExtentAllocator.alloc_slots allocated
  refine List.Perm.trans ?_ ((perm.symm.append_right _).trans tiled)
  show (a.slots ++ (p.extents ++ e :: extra).flatMap Extent.slots).Perm _
  simp only [List.flatMap_append, List.flatMap_cons]
  -- The new range moves from between the VIPs' ranges to the front.
  have moved : (p.extents.flatMap Extent.slots ++ (e.slots ++ extra.flatMap Extent.slots)).Perm
      (e.slots ++ (p.extents.flatMap Extent.slots ++ extra.flatMap Extent.slots)) := by
    rw [← List.append_assoc, ← List.append_assoc]
    exact List.perm_append_comm.append_right _
  refine (moved.append_left a.slots).trans ?_
  rw [← List.append_assoc]
  exact List.perm_append_comm.append_right _

/-- A range that is given back joins them. -/
theorem free (tiled : Tiled (e :: extra) p) :
    Tiled extra { p with maglevAlloc := p.maglevAlloc.freeExtent e } := by
  refine List.Perm.trans ?_ tiled
  refine ((ExtentAllocator.freeExtent_slots p.maglevAlloc e).append_right _).trans ?_
  show (_ ++ (p.extents ++ extra).flatMap Extent.slots).Perm _
  simp only [List.flatMap_append, List.flatMap_cons]
  rw [List.append_assoc]
  refine List.perm_append_comm.trans ?_
  simp only [List.append_assoc]
  exact (List.perm_append_comm.append_left _).append_left _

theorem dropEmpty (tiled : Tiled (e :: extra) p) (empty : e.size = 0) :
    Tiled extra p := by
  unfold Tiled at tiled ⊢
  have none : e.slots = [] := by simp [Extent.slots, empty]
  simpa only [List.flatMap_append, List.flatMap_cons, none, List.nil_append] using tiled

theorem congr (tiled : Tiled extra p) {q : Dataplane}
    (extents : ∀ key, (q.services.get? key).map ServiceEntry.extent =
      (p.services.get? key).map ServiceEntry.extent)
    (alloc : q.maglevAlloc = p.maglevAlloc) : Tiled extra q := by
  refine List.Perm.trans ?_ tiled
  rw [alloc]
  refine List.Perm.append_left _ (List.Perm.flatMap_right _ (List.Perm.append_right _ ?_))
  exact FMap.values_perm_of_views extents

/-- A VIP moves to a new range, and its old one is left over. -/
theorem exchange {entry' : ServiceEntry}
    (tiled : Tiled (entry'.extent :: extra) p) (found : p.services.get? key = some entry) :
    Tiled (entry.extent :: extra) { p with services := p.services.insert key entry' } := by
  refine List.Perm.trans ?_ tiled
  refine List.Perm.append_left _ (List.Perm.flatMap_right _ ?_)
  have before : p.extents.Perm (entry.extent :: (p.services.erase key).values.map _) :=
    (FMap.values_perm_of_get? found).map ServiceEntry.extent
  show ((entry'.extent :: (p.services.erase key).values.map ServiceEntry.extent) ++ _).Perm _
  refine List.Perm.trans ?_ (before.symm.append_right _)
  simp only [List.cons_append]
  refine List.Perm.trans (List.Perm.cons _ List.perm_middle) ?_
  exact (List.Perm.swap _ _ _).trans (List.Perm.cons _ List.perm_middle.symm)

theorem modifyEntry (tiled : Tiled extra p) {f : ServiceEntry → ServiceEntry}
    (kept : ∀ e, (f e).extent = e.extent) : Tiled extra (p.modifyEntry key f) := by
  unfold Dataplane.modifyEntry
  split
  · exact tiled
  · rename_i entry found
    refine List.Perm.trans ?_ tiled
    refine List.Perm.append_left _ (List.Perm.flatMap_right _ (List.Perm.append_right _ ?_))
    have before : p.extents.Perm (entry.extent :: (p.services.erase key).values.map _) :=
      (FMap.values_perm_of_get? found).map ServiceEntry.extent
    show ((f entry).extent :: (p.services.erase key).values.map ServiceEntry.extent).Perm _
    rw [kept]
    exact before.symm

theorem create (tiled : Tiled extra p) {a : IdAllocator}
    (absent : p.services.get? key = none) (empty : entry.extent.size = 0) :
    Tiled extra { p with serviceAlloc := a, services := p.services.insert key entry } := by
  refine List.Perm.trans ?_ tiled
  refine List.Perm.append_left _ ?_
  show (((p.services.insert key entry).values.map ServiceEntry.extent ++ extra).flatMap _).Perm _
  rw [FMap.values_insert_of_absent absent, List.map_cons, List.cons_append, List.flatMap_cons]
  have none : entry.extent.slots = [] := by simp [Extent.slots, empty]
  rw [none, List.nil_append]
  exact List.Perm.refl _

theorem drop (tiled : Tiled extra p) {a : IdAllocator}
    (found : p.services.get? key = some entry) :
    Tiled (entry.extent :: extra) { p with serviceAlloc := a, services := p.services.erase key } := by
  refine List.Perm.trans ?_ tiled
  refine List.Perm.append_left _ (List.Perm.flatMap_right _ ?_)
  have before : p.extents.Perm (entry.extent :: (p.services.erase key).values.map _) :=
    (FMap.values_perm_of_get? found).map ServiceEntry.extent
  exact List.perm_middle.trans (before.symm.append_right _)

/-- No slot is given out twice. -/
theorem owned_nodup (tiled : Tiled extra p) :
    ((p.extents ++ extra).flatMap Extent.slots).Nodup :=
  (tiled.nodup_iff.mpr List.nodup_range).of_append_right

theorem slot_lt (tiled : Tiled extra p)
    (found : p.services.get? key = some entry) (member : slot ∈ entry.extent.slots) :
    slot < maglevM := by
  refine List.mem_range.mp (tiled.mem_iff.mp (List.mem_append_right _ ?_))
  refine List.mem_flatMap.mpr ⟨entry.extent, List.mem_append_left _ ?_, member⟩
  exact List.mem_map.mpr ⟨entry, FMap.mem_values_of_get? found, rfl⟩

theorem extra_slot_lt (tiled : Tiled extra p) (listed : e ∈ extra)
    (member : slot ∈ e.slots) : slot < maglevM := by
  refine List.mem_range.mp (tiled.mem_iff.mp (List.mem_append_right _ ?_))
  exact List.mem_flatMap.mpr ⟨e, List.mem_append_right _ listed, member⟩

theorem extra_disjoint (tiled : Tiled (e :: extra) p)
    (found : p.services.get? key = some entry)
    (mine : slot ∈ entry.extent.slots) : slot ∉ e.slots := by
  have distinct := tiled.owned_nodup
  rw [List.flatMap_append, List.nodup_append'] at distinct
  intro theirs
  refine distinct.2.2 (List.mem_flatMap.mpr ⟨entry.extent, ?_, mine⟩)
    (List.mem_flatMap.mpr ⟨e, List.mem_cons_self, theirs⟩)
  exact List.mem_map.mpr ⟨entry, FMap.mem_values_of_get? found, rfl⟩

/-- Two VIPs share no slot. -/
theorem disjoint (tiled : Tiled extra p) {k₁ k₂ : String} {e₁ e₂ : ServiceEntry}
    (first : p.services.get? k₁ = some e₁) (second : p.services.get? k₂ = some e₂)
    (differ : k₁ ≠ k₂) (mine : slot ∈ e₁.extent.slots) : slot ∉ e₂.extent.slots := by
  -- Removing the second VIP leaves its range as a further one next to the first VIP.
  have apart := tiled.drop (a := p.serviceAlloc) second
  exact apart.extra_disjoint ((FMap.get?_erase_of_ne _ differ).trans first) mine

end Tiled

end Rivora

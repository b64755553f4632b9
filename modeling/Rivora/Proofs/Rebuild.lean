import Mathlib.Tactic.NormNum.Prime
import Rivora.Maglev.TableLaws
import Rivora.Proofs.SettleRuns

/-! Rebuilding a VIP's slice of the shared table, in place or in a new range. -/

namespace Rivora

variable {ids : FMap String Nat} {table : List Nat} {desired : FMap String Backend} {p : Dataplane}
   {key : String}

theorem prime_of_class {size : Nat} (listed : size ∈ maglevSizeClasses) : size.Prime := by
  simp only [maglevSizeClasses, List.mem_cons, List.not_mem_nil, or_false] at listed
  rcases listed with rfl | rfl | rfl | rfl <;> norm_num

/-- A loop of writes logs them all, or a beginning of them. -/
theorem forEach_writes_run {α : Type} (front : α → String) (w : α → MapWrite) (items : List α)
    (inside : ∀ x ∈ items, (w x).inBounds = true) (env : Env) (s : World) :
    ∃ s' ws, s'.plane = s.plane ∧ Logged s s' ws ∧
      ((Effect.forEach items (fun x => Effect.mapError (GoError.wrap (front x)) (write (w x))) env s =
          (.ok (), s') ∧ ws = items.map w) ∨
        ((∃ e, Effect.forEach items
            (fun x => Effect.mapError (GoError.wrap (front x)) (write (w x))) env s = (.error e, s')) ∧
          ws <+: items.map w ∧ ∃ x ∈ items, env.Fails (w x))) := by
  induction items generalizing s with
  | nil => exact ⟨s, [], rfl, by simp [Logged], Or.inl ⟨rfl, rfl⟩⟩
  | cons x rest ih =>
    obtain ⟨s₁, plane₁, ⟨run₁, logged₁⟩ | ⟨fails, ⟨e, run₁⟩, logged₁⟩⟩ :=
      wrapped_write_run (front x) (w x) (inside x List.mem_cons_self) env s
    · obtain ⟨s', ws, plane, logged, outcome⟩ :=
        ih (fun y member => inside y (List.mem_cons_of_mem x member)) s₁
      refine ⟨s', w x :: ws, plane.trans plane₁, logged₁.trans logged, ?_⟩
      simp only [Effect.forEach, Effect.bind_apply, run₁, List.map_cons]
      rcases outcome with ⟨run, rfl⟩ | ⟨failed, before, y, member, fails⟩
      · exact Or.inl ⟨run, rfl⟩
      · exact Or.inr ⟨failed, List.cons_prefix_cons.mpr ⟨rfl, before⟩,
          y, List.mem_cons_of_mem x member, fails⟩
    · refine ⟨s₁, [], plane₁, logged₁, Or.inr ⟨⟨e, ?_⟩, List.nil_prefix, x, List.mem_cons_self, fails⟩⟩
      simp only [Effect.forEach, Effect.bind_apply, run₁]

/-- The writes that put a table into a range. -/
def slotWrites (target : Extent) (ids : List Nat) : List MapWrite :=
  ids.zipIdx.map fun (id, slot) => .setMaglev (target.offset + slot) id

theorem mem_slotWrites {target : Extent} {ids : List Nat} (fits : ids.length ≤ target.size)
    {w : MapWrite} (member : w ∈ slotWrites target ids) :
    ∃ slot id, w = .setMaglev slot id ∧ slot ∈ target.slots ∧ id ∈ ids := by
  obtain ⟨⟨id, i⟩, listed, rfl⟩ := List.mem_map.mp member
  obtain ⟨below, value⟩ := List.mem_zipIdx' listed
  refine ⟨target.offset + i, id, rfl, ?_, value ▸ List.getElem_mem below⟩
  simp only [Extent.slots, List.mem_range'_1]
  omega

theorem mem_tableIDs {members : List Maglev.Member}
    (listed : ∀ b ∈ members, ∃ id, ids.get? b.name = some id)
    (bounded : ∀ i ∈ table, i < members.length) {id : Nat} (member : id ∈ tableIDs ids members table) :
    ∃ b ∈ members, ids.get? b.name = some id := by
  obtain ⟨i, inTable, rfl⟩ := List.mem_map.mp member
  have below := bounded i inTable
  refine ⟨members[i], List.getElem_mem below, ?_⟩
  obtain ⟨id, found⟩ := listed members[i] (List.getElem_mem below)
  rw [List.getElem?_eq_getElem below, Option.map_some, Option.bind_some, found, Option.getD_some]

theorem mem_tableMembers {b : Maglev.Member}
    (member : b ∈ tableMembers ids desired) : ∃ id, ids.get? b.name = some id := by
  obtain ⟨name, sorted, rfl⟩ := List.mem_map.mp member
  exact FMap.mem_keys.mp ((List.mem_insertionSort _).mp sorted)

theorem length_tableMembers (ids : FMap String Nat) (desired : FMap String Backend) :
    (tableMembers ids desired).length = ids.size := by
  rw [tableMembers, List.length_map, List.length_insertionSort, FMap.length_keys]

/-- The slots hold IDs of the VIP's own backends. -/
theorem tableIDs_listed {size : Nat}
    (sized : size ∈ maglevSizeClasses)
    (built : Maglev.buildTable size (tableMembers ids desired) = .ok table) :
    (tableIDs ids (tableMembers ids desired) table).length = size ∧
      ∀ id ∈ tableIDs ids (tableMembers ids desired) table, ∃ name, ids.get? name = some id := by
  obtain ⟨_, _, length, bounded⟩ := Maglev.buildTableWith_ok (prime_of_class sized) built
  refine ⟨by rw [tableIDs, List.length_map, length], ?_⟩
  intro id member
  obtain ⟨b, _, found⟩ := mem_tableIDs (fun b member => mem_tableMembers member) bounded member
  exact ⟨b.name, found⟩

/-- A VIP's backends have outgrown its range, or it has none. -/
def ServiceEntry.Outgrown (entry : ServiceEntry) : Prop :=
  entry.extent.size = 0 ∨ maglevClassFor entry.backendIDs.size > entry.extent.size

instance (entry : ServiceEntry) : Decidable entry.Outgrown :=
  inferInstanceAs (Decidable (_ ∨ _))

/-- The size of the range a rebuild of a VIP's slice fills. -/
def ServiceEntry.rebuildSize (entry : ServiceEntry) : Nat :=
  if entry.Outgrown then maglevClassFor entry.backendIDs.size else entry.extent.size

/-- The range a rebuild fills: the VIP's own while it is large enough, else one that was free. -/
structure RebuildTarget (p : Dataplane) (entry : ServiceEntry) (target : Extent) : Prop where
  size : target.size = entry.rebuildSize
  listed : target.size ∈ maglevSizeClasses
  inside : ∀ slot ∈ target.slots, slot < maglevM
  inPlace : ¬ entry.Outgrown → target = entry.extent
  moved : entry.Outgrown → ∀ k e, p.services.get? k = some e →
    ∀ slot ∈ e.extent.slots, slot ∉ target.slots

/-- A rebuild changes the range of its VIP, and nothing else of the control state. -/
structure Rebuilt (key : String) (entry : ServiceEntry) (target : Extent) (p q : Dataplane) :
    Prop where
  rest : q = { p with services := q.services, maglevAlloc := q.maglevAlloc }
  others : ∀ k, k ≠ key → q.services.get? k = p.services.get? k
  entry : q.services.get? key = some { entry with extent := target }
  tiled : Tiled [] q

/-- The members of the table a VIP's entry asks for. -/
def ServiceEntry.members (entry : ServiceEntry) (desired : FMap String Backend) :
    List Maglev.Member :=
  tableMembers entry.backendIDs desired

/-- The writes of a VIP's whole table. -/
def ServiceEntry.tableWrites (entry : ServiceEntry) (desired : FMap String Backend)
    (target : Extent) (table : List Nat) : List MapWrite :=
  slotWrites target (tableIDs entry.backendIDs (entry.members desired) table)

/-- How a rebuild can stop: before any write, or at a write of a slot. -/
inductive RebuildStopped (env : Env) (desired : FMap String Backend) (entry : ServiceEntry)
    (s s' : World) : Prop
  | refused (logged : Logged s s' [])
    (reason : (entry.Outgrown ∧ ∀ e ∈ s.plane.maglevAlloc.free, e.size < entry.rebuildSize) ∨
      ∃ err, Maglev.buildTable entry.rebuildSize (entry.members desired) = .error err)
  | failed {target : Extent} {table : List Nat} {ws : List MapWrite} (logged : Logged s s' ws)
    (aim : RebuildTarget s.plane entry target)
    (built : Maglev.buildTable target.size (entry.members desired) = .ok table)
    (before : ws <+: entry.tableWrites desired target table)
    (reason : ∃ w ∈ entry.tableWrites desired target table, env.Fails w)

/-- The slots that are written are those of the new range. -/
theorem mem_tableWrites {entry : ServiceEntry}
    {target : Extent} (aim : RebuildTarget p entry target)
    (built : Maglev.buildTable target.size (entry.members desired) = .ok table) {w : MapWrite}
    (member : w ∈ entry.tableWrites desired target table) :
    ∃ slot id name, w = .setMaglev slot id ∧ slot ∈ target.slots ∧
      entry.backendIDs.get? name = some id := by
  obtain ⟨length, listed⟩ := tableIDs_listed aim.listed built
  obtain ⟨slot, id, rfl, inside, stored⟩ := mem_slotWrites (Nat.le_of_eq length) member
  obtain ⟨name, found⟩ := listed id stored
  exact ⟨slot, id, name, rfl, inside, found⟩

theorem fillExtent_run {entry : ServiceEntry} (desired : FMap String Backend)
    {target : Extent} (aim : RebuildTarget p entry target) (env : Env) (s : World) :
    (∃ err e, Maglev.buildTable target.size (entry.members desired) = .error err ∧
      fillExtent target entry.backendIDs (entry.members desired) env s = (.error e, s)) ∨
    ∃ table s' ws, Maglev.buildTable target.size (entry.members desired) = .ok table ∧
      s'.plane = s.plane ∧ Logged s s' ws ∧
      ((fillExtent target entry.backendIDs (entry.members desired) env s = (.ok (), s') ∧
          ws = entry.tableWrites desired target table) ∨
        ((∃ e, fillExtent target entry.backendIDs (entry.members desired) env s = (.error e, s')) ∧
          ws <+: entry.tableWrites desired target table ∧
          ∃ w ∈ entry.tableWrites desired target table, env.Fails w)) := by
  unfold fillExtent
  cases built : Maglev.buildTable target.size (entry.members desired) with
  | error err => exact Or.inl ⟨err, _, rfl, rfl⟩
  | ok table =>
    refine Or.inr ⟨table, ?_⟩
    have inside : ∀ x ∈ (tableIDs entry.backendIDs (entry.members desired) table).zipIdx,
        (MapWrite.setMaglev (target.offset + x.2) x.1).inBounds = true := by
      intro x member
      obtain ⟨slot, id, _, same, covered, _⟩ :=
        mem_tableWrites aim built (List.mem_map.mpr ⟨x, member, rfl⟩)
      cases same
      simpa [MapWrite.inBounds] using aim.inside _ covered
    obtain ⟨s', ws, plane, logged, outcome⟩ := forEach_writes_run
      (fun x : Nat × Nat => "update maglev_table[" ++ toString (target.offset + x.2) ++ "]: ")
      (fun x => .setMaglev (target.offset + x.2) x.1)
      (tableIDs entry.backendIDs (entry.members desired) table).zipIdx inside env s
    refine ⟨s', ws, rfl, plane, logged, ?_⟩
    rcases outcome with ⟨run, all⟩ | ⟨failed, before, x, member, fails⟩
    · exact Or.inl ⟨run, all⟩
    · exact Or.inr ⟨failed, before, _, List.mem_map.mpr ⟨x, member, rfl⟩, fails⟩

/-- A VIP may be built into its own range. -/
theorem RebuildTarget.own {entry : ServiceEntry} (tiled : Tiled [] p)
    (found : p.services.get? key = some entry)
    (sized : entry.extent.size = 0 ∨ entry.extent.size ∈ maglevSizeClasses)
    (fits : ¬ entry.Outgrown) : RebuildTarget p entry entry.extent := by
  refine ⟨by rw [ServiceEntry.rebuildSize, if_neg fits], ?_, ?_, fun _ => rfl, ?_⟩
  · rcases sized with zero | listed
    · exact absurd (Or.inl zero) fits
    · exact listed
  · exact fun slot member => tiled.slot_lt found member
  · exact fun outgrown => absurd outgrown fits

/-- Or into one that was free. -/
theorem RebuildTarget.free {entry : ServiceEntry} (tiled : Tiled [] p)
    (outgrown : entry.Outgrown) {target : Extent} {a : ExtentAllocator}
    (allocated : p.maglevAlloc.alloc (maglevClassFor entry.backendIDs.size) = (.ok target, a)) :
    RebuildTarget p entry target := by
  obtain ⟨size, _, _⟩ := ExtentAllocator.alloc_slots allocated
  have apart := tiled.alloc allocated
  refine ⟨by rw [ServiceEntry.rebuildSize, if_pos outgrown, size], ?_, ?_, ?_, ?_⟩
  · rw [size]
    exact maglevClassFor_mem _
  · exact fun slot member => apart.extra_slot_lt List.mem_cons_self member
  · exact fun fits => absurd outgrown fits
  · exact fun _ k e stored slot mine => apart.extra_disjoint stored mine

/-- How a rebuild can end. -/
def RebuildEnds (env : Env) (key : String) (desired : FMap String Backend) (entry : ServiceEntry)
    (s : World) (result : Except GoError Unit × World) : Prop :=
  (∃ target table s', result = (.ok (), s') ∧ RebuildTarget s.plane entry target ∧
    Maglev.buildTable target.size (entry.members desired) = .ok table ∧
    Logged s s' (entry.tableWrites desired target table) ∧
    Rebuilt key entry target s.plane s'.plane) ∨
  ∃ e s', result = (.error e, s') ∧
    s'.plane = { s.plane with maglevAlloc := s'.plane.maglevAlloc } ∧ Tiled [] s'.plane ∧
    RebuildStopped env desired entry s s'

/-- The entry of a VIP that has moved to another range. -/
def ServiceEntry.moveTo (target : Extent) (e : ServiceEntry) : ServiceEntry :=
  { e with extent := target }

theorem moveExtent_run {s s₁ : World} {entry : ServiceEntry} {target : Extent}
    {a : ExtentAllocator} (found : s.plane.services.get? key = some entry)
    (aim : RebuildTarget s.plane entry target)
    (plane₁ : s₁.plane = { s.plane with maglevAlloc := a }) (logged₁ : Logged s s₁ [])
    (taken : Tiled [target] s₁.plane) (desired : FMap String Backend) (env : Env) :
    RebuildEnds env key desired entry s
      ((do
        Effect.onError (fillExtent target entry.backendIDs (entry.members desired))
          fun s => s.freeExtent target
        modifyEntry key (ServiceEntry.moveTo target)
        if entry.extent.size > 0 then Effect.update fun s => s.freeExtent entry.extent
        else pure () : M Unit) env s₁) := by
  simp only [Effect.bind_apply, Effect.onError]
  rcases fillExtent_run desired aim env s₁ with
    ⟨err, e, built, run⟩ | ⟨table, s', ws, built, plane, logged, ⟨run, all⟩ |
      ⟨⟨e, run⟩, before, fails⟩⟩
  · rw [run]
    refine Or.inr ⟨e, s₁.freeExtent target, rfl, ?_, taken.free,
      .refused logged₁ (Or.inr ⟨err, aim.size ▸ built⟩)⟩
    simp only [World.freeExtent, withPlane_plane]
    rw [plane₁]
  · rw [run]
    have found' : s'.plane.services.get? key = some entry := by
      rw [plane, plane₁]
      exact found
    -- The VIP takes the new range, which leaves the old one to account for.
    have exchanged : Tiled [entry.extent] (s'.plane.modifyEntry key (ServiceEntry.moveTo target)) := by
      rw [modifyEntry_of_found found', plane]
      exact @Tiled.exchange key entry [] s₁.plane (entry.moveTo target) taken (plane ▸ found')
    have others : ∀ k, k ≠ key → (s'.plane.modifyEntry key
        (ServiceEntry.moveTo target)).services.get? k = s.plane.services.get? k := by
      intro k differ
      rw [modifyEntry_get?_of_ne _ _ differ, plane, plane₁]
    have mine := modifyEntry_get?_self found' (ServiceEntry.moveTo target)
    have wrote : Logged s s' (entry.tableWrites desired target table) := by
      rw [← all]
      exact logged₁.trans logged
    simp only [modifyEntry, modifyPlane_apply]
    by_cases some_old : entry.extent.size > 0
    · simp only [if_pos some_old, Effect.update_apply]
      refine Or.inl ⟨target, table, _, rfl, aim, built, wrote, ?_, others, mine, exchanged.free⟩
      simp only [World.freeExtent, withPlane_plane]
      rw [modifyEntry_rest, plane, plane₁]
    · simp only [if_neg some_old, Effect.pure_apply]
      refine Or.inl ⟨target, table, _, rfl, aim, built, wrote, ?_, others, mine,
        exchanged.dropEmpty (by omega)⟩
      simp only [withPlane_plane]
      rw [modifyEntry_rest, plane, plane₁]
  · rw [run]
    refine Or.inr ⟨e, s'.freeExtent target, rfl, ?_, ?_,
      .failed (logged₁.trans logged) aim built before fails⟩
    · simp only [World.freeExtent, withPlane_plane]
      rw [plane, plane₁]
    · simp only [World.freeExtent, withPlane_plane]
      rw [plane]
      exact taken.free

/-- Every way a rebuild can end. -/
theorem rebuildMaglev_run {s : World} {entry : ServiceEntry}
    (tiled : Tiled [] s.plane) (found : s.plane.services.get? key = some entry)
    (sized : entry.extent.size = 0 ∨ entry.extent.size ∈ maglevSizeClasses)
    (desired : FMap String Backend) (env : Env) :
    RebuildEnds env key desired entry s (rebuildMaglev key desired env s) := by
  have length : (tableMembers entry.backendIDs desired).length = entry.backendIDs.size :=
    length_tableMembers _ _
  unfold rebuildMaglev
  simp only [Effect.bind_apply, getEntry_run found, length]
  by_cases outgrown : entry.extent.size = 0 ∨ maglevClassFor entry.backendIDs.size > entry.extent.size
  · simp only [if_pos outgrown, Effect.bind_apply, allocExtent, getPlane_apply]
    rcases allocated : s.plane.maglevAlloc.alloc (maglevClassFor entry.backendIDs.size) with ⟨text | target, a⟩
    · refine Or.inr ⟨_, s, rfl, rfl, tiled, .refused (by simp [Logged]) (Or.inl ⟨outgrown, ?_⟩)⟩
      intro e member
      by_contra large
      rw [ServiceEntry.rebuildSize, if_pos (show entry.Outgrown from outgrown)] at large
      obtain ⟨_, _, room⟩ := ExtentAllocator.alloc_of_room
        (a := s.plane.maglevAlloc) ⟨e, member, Nat.le_of_not_lt large⟩
      rw [room] at allocated
      cases allocated
    · have aim := RebuildTarget.free tiled outgrown allocated
      exact @moveExtent_run key s (s.withPlane { s.plane with maglevAlloc := a }) entry target a
        found aim rfl (by simp [Logged]) (tiled.alloc allocated) desired env
  · simp only [if_neg outgrown]
    have aim := RebuildTarget.own tiled found sized outgrown
    rcases fillExtent_run desired aim env s with
      ⟨err, e, built, run⟩ | ⟨table, s', ws, built, plane, logged, ⟨run, all⟩ |
        ⟨⟨e, run⟩, before, fails⟩⟩
    · exact Or.inr ⟨e, s, run, rfl, tiled, .refused (by simp [Logged])
        (Or.inr ⟨err, aim.size ▸ built⟩)⟩
    · refine Or.inl ⟨entry.extent, table, s', run, aim, built, all ▸ logged, ?_⟩
      rw [plane]
      exact ⟨rfl, fun _ _ => rfl, found, tiled⟩
    · refine Or.inr ⟨e, s', run, ?_, ?_, .failed logged aim built before fails⟩
      · rw [plane]
      · rw [plane]
        exact tiled

end Rivora

import Rivora.ConfigLaws
import Rivora.Dataplane.Vips

/-! Who owns what in the control state, whatever fails. -/

namespace Rivora

/-- The name a backend's state is kept under. -/
def BackendState.name (st : BackendState) : String := backendName ⟨st.address, st.port, "", 0⟩

/-- How many VIPs list a backend. -/
def Dataplane.refs (p : Dataplane) (name : String) : Nat :=
  p.services.count fun entry => entry.backendIDs.contains name

/--
Backend IDs and their states agree with the VIPs that list them.

`leak` counts references that no VIP accounts for: an acquisition that fails halfway leaves one.
-/
structure BackendsOwned (leak : String → Nat) (p : Dataplane) : Prop where
  capacity : p.backendAlloc.max = maxBackends
  listed : ∀ {key entry name id}, p.services.get? key = some entry →
    entry.backendIDs.get? name = some id → p.backendAlloc.ids.get? name = some id
  stated : ∀ {name id}, p.backendAlloc.ids.get? name = some id →
    ∃ st, p.backendStates.get? id = some st ∧ st.name = name
  held : ∀ {id st}, p.backendStates.get? id = some st →
    p.backendAlloc.ids.get? st.name = some id ∧
      st.isV4 = ((parseIP st.address).bind IP.to4).isSome
  counted : ∀ {id st}, p.backendStates.get? id = some st →
    st.refCount = p.refs st.name + leak st.name ∧ 0 < p.refs st.name + leak st.name
  leaked : ∀ {name}, 0 < leak name → ∃ id, p.backendAlloc.ids.get? name = some id

/-- One more unaccounted reference to a name. -/
def leakOne (leak : String → Nat) (name : String) : String → Nat :=
  fun n => leak n + if n = name then 1 else 0

/-- The control state with one reference to a backend dropped. -/
def Dataplane.unreference (p : Dataplane) (name : String) (id : Nat) : Dataplane :=
  match p.backendStates.get? id with
  | none => p
  | some st =>
    if st.refCount - 1 > 0 then
      { p with backendStates := p.backendStates.insert id { st with refCount := st.refCount - 1 } }
    else
      { p with
        backendStates := p.backendStates.erase id
        backendAlloc := p.backendAlloc.release name }

@[simp] theorem unreference_services (p : Dataplane) (name : String) (id : Nat) :
    (p.unreference name id).services = p.services := by
  unfold Dataplane.unreference
  split
  · rfl
  · split <;> rfl

theorem modifyEntry_of_found {p : Dataplane} {key : String} {entry : ServiceEntry}
    (found : p.services.get? key = some entry) (f : ServiceEntry → ServiceEntry) :
    p.modifyEntry key f = { p with services := p.services.insert key (f entry) } := by
  simp [Dataplane.modifyEntry, found]

/-- An entry that is replaced shifts its references. -/
theorem refs_insert {p : Dataplane} {key : String} {entry : ServiceEntry}
    (found : p.services.get? key = some entry) (entry' : ServiceEntry) (name : String) :
    ({ p with services := p.services.insert key entry' } : Dataplane).refs name +
        (entry.backendIDs.contains name).toNat =
      p.refs name + (entry'.backendIDs.contains name).toNat := by
  simp only [Dataplane.refs]
  rw [FMap.count_insert, FMap.count_of_get? found]
  omega

/-- A backend that is listed is referenced. -/
theorem refs_pos {p : Dataplane} {key : String} {entry : ServiceEntry} {name : String} {id : Nat}
    (found : p.services.get? key = some entry) (lists : entry.backendIDs.get? name = some id) :
    0 < p.refs name :=
  FMap.count_pos.mpr ⟨key, entry, found, by simp [FMap.contains, lists]⟩

theorem listed_of_refs_pos {p : Dataplane} {name : String} (referenced : 0 < p.refs name) :
    ∃ key entry id, p.services.get? key = some entry ∧ entry.backendIDs.get? name = some id := by
  obtain ⟨key, entry, found, contains⟩ := FMap.count_pos.mp referenced
  obtain ⟨id, lists⟩ := Option.isSome_iff_exists.mp contains
  exact ⟨key, entry, id, found, lists⟩

namespace BackendsOwned

variable {leak : String → Nat} {p : Dataplane}

/-- A name without an ID is referenced nowhere. -/
theorem refs_eq_zero (owned : BackendsOwned leak p) {name : String}
    (absent : p.backendAlloc.ids.get? name = none) : p.refs name = 0 ∧ leak name = 0 := by
  constructor
  · by_contra positive
    obtain ⟨key, entry, id, found, lists⟩ := listed_of_refs_pos (Nat.pos_of_ne_zero positive)
    rw [owned.listed found lists] at absent
    cases absent
  · by_contra positive
    obtain ⟨id, found⟩ := owned.leaked (Nat.pos_of_ne_zero positive)
    rw [found] at absent
    cases absent

/-- A backend that is listed has a state. -/
theorem state_of_listed (owned : BackendsOwned leak p) {key : String} {entry : ServiceEntry}
    {name : String} {id : Nat} (found : p.services.get? key = some entry)
    (lists : entry.backendIDs.get? name = some id) :
    ∃ st, p.backendStates.get? id = some st ∧ st.name = name :=
  owned.stated (owned.listed found lists)

theorem no_state (owned : BackendsOwned leak p) {id : Nat}
    (unused : ∀ name, p.backendAlloc.ids.get? name ≠ some id) : p.backendStates.get? id = none := by
  cases found : p.backendStates.get? id with
  | none => rfl
  | some st => exact absurd (owned.held found).1 (unused st.name)

theorem congr {q : Dataplane} (owned : BackendsOwned leak p)
    (lists : ∀ key, (q.services.get? key).map ServiceEntry.backendIDs =
      (p.services.get? key).map ServiceEntry.backendIDs)
    (states : ∀ id, (q.backendStates.get? id).map
        (fun st => (st.name, st.address, st.isV4, st.refCount)) =
      (p.backendStates.get? id).map fun st => (st.name, st.address, st.isV4, st.refCount))
    (alloc : q.backendAlloc = p.backendAlloc) : BackendsOwned leak q := by
  have counts : ∀ name, q.refs name = p.refs name := fun name =>
    FMap.count_of_views lists fun ids => ids.contains name
  -- Every state of the new control state agrees with an old one on the fields read.
  have old : ∀ {id st}, q.backendStates.get? id = some st →
      ∃ st₀, p.backendStates.get? id = some st₀ ∧ st.name = st₀.name ∧ st.address = st₀.address ∧
        st.isV4 = st₀.isV4 ∧ st.refCount = st₀.refCount := by
    intro id st found
    have same := states id
    rw [found] at same
    cases before : p.backendStates.get? id with
    | none => simp [before] at same
    | some st₀ =>
      simp only [before, Option.map_some, Option.some.injEq, Prod.mk.injEq] at same
      exact ⟨st₀, rfl, same⟩
  refine ⟨alloc ▸ owned.capacity, ?_, ?_, ?_, ?_, ?_⟩
  · intro key entry name id found named
    have same := lists key
    rw [found] at same
    cases before : p.services.get? key with
    | none => simp [before] at same
    | some entry₀ =>
      simp only [before, Option.map_some, Option.some.injEq] at same
      rw [alloc]
      exact owned.listed before (same ▸ named)
  · intro name id found
    rw [alloc] at found
    obtain ⟨st₀, before, named⟩ := owned.stated found
    have same := states id
    rw [before] at same
    cases after : q.backendStates.get? id with
    | none => simp [after] at same
    | some st =>
      simp only [after, Option.map_some, Option.some.injEq, Prod.mk.injEq] at same
      exact ⟨st, rfl, same.1.trans named⟩
  · intro id st found
    obtain ⟨st₀, before, name, address, family, _⟩ := old found
    obtain ⟨held, kind⟩ := owned.held before
    exact ⟨by rw [alloc, name]; exact held, by rw [family, address]; exact kind⟩
  · intro id st found
    obtain ⟨st₀, before, name, _, _, count⟩ := old found
    rw [counts, name, count]
    exact owned.counted before
  · intro name positive
    rw [alloc]
    exact owned.leaked positive

/-- Acquiring a backend keeps ownership, with one reference that no VIP accounts for yet. -/
theorem reference (owned : BackendsOwned leak p) {name : String} {b : Backend} {id : Nat}
    {alloc : IdAllocator} (named : backendName b = name)
    (allocated : p.backendAlloc.alloc name = (.ok id, alloc)) :
    BackendsOwned (leakOne leak name) (p.acquired alloc id b) := by
  -- The state that is counted up: the one the ID had, or a fresh one.
  let st₀ := (p.backendStates.get? id).getD (.fresh b)
  have st₀_name : st₀.name = name ∧
      st₀.isV4 = ((parseIP st₀.address).bind IP.to4).isSome ∧
      st₀.refCount = p.refs name + leak name := by
    rcases IdAllocator.alloc_cases allocated with ⟨known, _⟩ | ⟨absent, unused, _⟩
    · obtain ⟨st, found, same⟩ := owned.stated known
      have chosen : st₀ = st := by simp [st₀, found]
      rw [chosen, ← same]
      exact ⟨rfl, (owned.held found).2, (owned.counted found).1⟩
    · have chosen : st₀ = .fresh b := by simp [st₀, owned.no_state unused]
      obtain ⟨noRefs, noLeak⟩ := owned.refs_eq_zero absent
      rw [chosen, noRefs, noLeak]
      exact ⟨named, rfl, rfl⟩
  have known : alloc.ids.get? name = some id := IdAllocator.get?_of_alloc allocated
  refine ⟨(IdAllocator.max_alloc allocated).trans owned.capacity, ?_, ?_, ?_, ?_, ?_⟩
  · intro key entry other otherID found lists
    have before := owned.listed found lists
    by_cases same : other = name
    · subst same
      rcases IdAllocator.alloc_cases allocated with ⟨_, unchanged⟩ | ⟨absent, _⟩
      · exact unchanged ▸ before
      · rw [absent] at before
        cases before
    · exact (IdAllocator.get?_alloc_of_ne allocated same).trans before
  · intro other otherID found
    by_cases same : otherID = id
    · subst same
      have : other = name := alloc.key_unique found known
      exact ⟨_, FMap.get?_insert_self _ _ _, by rw [this]; exact st₀_name.1⟩
    · have differ : other ≠ name := by
        rintro rfl
        exact same (Option.some.inj (found.symm.trans known))
      obtain ⟨st, stored, stName⟩ :=
        owned.stated ((IdAllocator.get?_alloc_of_ne allocated differ).symm.trans found)
      exact ⟨st, (FMap.get?_insert_of_ne _ _ same).trans stored, stName⟩
  · intro otherID st found
    by_cases same : otherID = id
    · subst same
      cases (FMap.get?_insert_self _ _ _).symm.trans found
      exact ⟨st₀_name.1 ▸ known, st₀_name.2.1⟩
    · rw [Dataplane.acquired, Dataplane.reference, FMap.get?_insert_of_ne _ _ same] at found
      obtain ⟨held, kind⟩ := owned.held found
      have differ : st.name ≠ name := by
        intro equal
        rcases IdAllocator.alloc_cases allocated with ⟨before, _⟩ | ⟨absent, _⟩
        · exact same (Option.some.inj (held.symm.trans (equal ▸ before)))
        · rw [equal, absent] at held
          cases held
      exact ⟨(IdAllocator.get?_alloc_of_ne allocated differ).trans held, kind⟩
  · intro otherID st found
    by_cases same : otherID = id
    · subst same
      cases (FMap.get?_insert_self _ _ _).symm.trans found
      have stName : BackendState.name { st₀ with refCount := st₀.refCount + 1 } = name := st₀_name.1
      have refs : (p.acquired alloc otherID b).refs name = p.refs name := rfl
      rw [stName, refs, leakOne, if_pos rfl]
      have := st₀_name.2.2
      constructor
      · show st₀.refCount + 1 = _
        rw [this]
        push_cast
        omega
      · omega
    · rw [Dataplane.acquired, Dataplane.reference, FMap.get?_insert_of_ne _ _ same] at found
      have differ : st.name ≠ name := by
        intro equal
        have held := (owned.held found).1
        rcases IdAllocator.alloc_cases allocated with ⟨before, _⟩ | ⟨absent, _⟩
        · exact same (Option.some.inj (held.symm.trans (equal ▸ before)))
        · rw [equal, absent] at held
          cases held
      have refs : (p.acquired alloc id b).refs st.name = p.refs st.name := rfl
      rw [refs, leakOne, if_neg differ]
      exact owned.counted found
  · intro other positive
    by_cases same : other = name
    · exact ⟨id, same ▸ known⟩
    · simp only [leakOne, if_neg same, Nat.add_zero] at positive
      obtain ⟨otherID, before⟩ := owned.leaked positive
      exact ⟨otherID, (IdAllocator.get?_alloc_of_ne allocated same).trans before⟩

/-- A backend that was taken into use is listed. -/
theorem list {name : String} {id : Nat} {key : String} {entry : ServiceEntry}
    (owned : BackendsOwned (leakOne leak name) p) (found : p.services.get? key = some entry)
    (absent : entry.backendIDs.get? name = none)
    (allocated : p.backendAlloc.ids.get? name = some id) :
    BackendsOwned leak (p.modifyEntry key (ServiceEntry.list name id)) := by
  rw [modifyEntry_of_found found]
  have refs : ∀ other, ({ p with services := p.services.insert key (entry.list name id) } :
      Dataplane).refs other = p.refs other + if other = name then 1 else 0 := by
    intro other
    have count := refs_insert found (entry.list name id) other
    by_cases same : other = name
    · subst same
      simpa [FMap.contains, absent, ServiceEntry.list] using count
    · simp only [FMap.contains, ServiceEntry.list, FMap.get?_insert_of_ne _ _ same, if_neg same]
        at count ⊢
      omega
  refine ⟨owned.capacity, ?_, owned.stated, owned.held, ?_, ?_⟩
  · intro otherKey otherEntry other otherID stored lists
    rw [FMap.get?_insert] at stored
    split at stored
    · cases stored
      by_cases same : other = name
      · subst same
        rw [ServiceEntry.list, FMap.get?_insert_self] at lists
        exact allocated.trans lists
      · rw [ServiceEntry.list, FMap.get?_insert_of_ne _ _ same] at lists
        exact owned.listed found lists
    · exact owned.listed stored lists
  · intro otherID st stored
    have count := owned.counted stored
    rw [refs]
    simp only [leakOne] at count
    constructor
    · rw [count.1]
      push_cast
      omega
    · omega
  · intro other positive
    exact owned.leaked (by simp only [leakOne]; omega)


/-- Releasing a listed backend and taking it off the list keeps ownership. -/
theorem unlist {name : String} {id : Nat} {key : String} {entry : ServiceEntry}
    (owned : BackendsOwned leak p) (found : p.services.get? key = some entry)
    (lists : entry.backendIDs.get? name = some id) :
    BackendsOwned leak ((p.unreference name id).modifyEntry key (ServiceEntry.unlist name)) := by
  rw [modifyEntry_of_found ((unreference_services p name id).symm ▸ found),
    unreference_services]
  obtain ⟨st, stored, stName⟩ := owned.state_of_listed found lists
  have known := owned.listed found lists
  have count := owned.counted stored
  rw [stName] at count
  have refs : ∀ other, p.services.count (fun e => e.backendIDs.contains other) =
      (p.services.insert key (entry.unlist name)).count (fun e => e.backendIDs.contains other) +
        if other = name then 1 else 0 := by
    intro other
    have balance := refs_insert found (entry.unlist name) other
    simp only [Dataplane.refs] at balance
    by_cases same : other = name
    · subst same
      simp only [FMap.contains, ServiceEntry.unlist, lists, FMap.get?_erase_self, Option.isSome_some,
        Option.isSome_none, Bool.toNat_true, Bool.toNat_false] at balance
      rw [if_pos rfl]
      exact balance.symm
    · simp only [FMap.contains, ServiceEntry.unlist, FMap.get?_erase_of_ne _ same] at balance
      rw [if_neg same]
      simp only [FMap.contains, ServiceEntry.unlist]
      omega
  have listed : ∀ {otherKey otherEntry other otherID},
      (p.services.insert key (entry.unlist name)).get? otherKey = some otherEntry →
      otherEntry.backendIDs.get? other = some otherID →
      p.backendAlloc.ids.get? other = some otherID := by
    intro otherKey otherEntry other otherID stored named
    rw [FMap.get?_insert] at stored
    split at stored
    · cases stored
      rw [ServiceEntry.unlist, FMap.get?_erase] at named
      split at named
      · cases named
      · exact owned.listed found named
    · exact owned.listed stored named
  unfold Dataplane.unreference
  rw [stored]
  dsimp only
  split
  · -- Other references remain, so the ID and the state stay.
    rename_i remaining
    refine ⟨owned.capacity, listed, ?_, ?_, ?_, owned.leaked⟩
    · intro other otherID used
      obtain ⟨st', stored', stName'⟩ := owned.stated used
      by_cases same : otherID = id
      · subst same
        cases stored.symm.trans stored'
        exact ⟨_, FMap.get?_insert_self _ _ _, stName'⟩
      · exact ⟨st', (FMap.get?_insert_of_ne _ _ same).trans stored', stName'⟩
    · intro otherID st' stored'
      rw [FMap.get?_insert] at stored'
      split at stored'
      · rename_i same
        cases stored'
        subst same
        obtain ⟨held, kind⟩ := owned.held stored
        exact ⟨held, kind⟩
      · exact owned.held stored'
    · intro otherID st' stored'
      rw [FMap.get?_insert] at stored'
      split at stored'
      · cases stored'
        have stName' : BackendState.name { st with refCount := st.refCount - 1 } = name := stName
        have balance := refs name
        rw [if_pos rfl] at balance
        rw [stName']
        simp only [Dataplane.refs] at count ⊢
        omega
      · rename_i differ
        have balance := refs st'.name
        have other : st'.name ≠ name := by
          intro equal
          have := (owned.held stored').1
          rw [equal, known] at this
          exact differ (Option.some.inj this).symm
        rw [if_neg other, Nat.add_zero] at balance
        have count' := owned.counted stored'
        simp only [Dataplane.refs] at count' ⊢
        rw [← balance]
        exact count'
  · -- The last reference is gone, so the name gives its ID back.
    rename_i last
    have one : p.refs name + leak name = 1 := by omega
    have balance := refs name
    rw [if_pos rfl] at balance
    simp only [Dataplane.refs] at one
    have release := p.backendAlloc.get?_release name
    refine ⟨(p.backendAlloc.max_release name).trans owned.capacity, ?_, ?_, ?_, ?_, ?_⟩
    · intro otherKey otherEntry other otherID stored' named
      have used := listed stored' named
      rw [release, if_neg, used]
      rintro rfl
      -- A VIP that still lists the name would still be counted.
      have positive := @refs_pos { p with services := p.services.insert key (entry.unlist other) }
        _ _ _ _ stored' named
      simp only [Dataplane.refs] at positive
      omega
    · intro other otherID used
      rw [release] at used
      split at used
      · cases used
      · rename_i differ
        obtain ⟨st', stored', stName'⟩ := owned.stated used
        refine ⟨st', (FMap.get?_erase_of_ne _ ?_).trans stored', stName'⟩
        rintro rfl
        cases stored.symm.trans stored'
        exact differ (stName'.symm.trans stName)
    · intro otherID st' stored'
      rw [FMap.get?_erase] at stored'
      split at stored'
      · cases stored'
      · rename_i differ
        obtain ⟨held, kind⟩ := owned.held stored'
        refine ⟨?_, kind⟩
        rw [release, if_neg, held]
        intro equal
        rw [equal, known] at held
        exact differ (Option.some.inj held).symm
    · intro otherID st' stored'
      rw [FMap.get?_erase] at stored'
      split at stored'
      · cases stored'
      · rename_i differ
        have balance' := refs st'.name
        have other : st'.name ≠ name := by
          intro equal
          have := (owned.held stored').1
          rw [equal, known] at this
          exact differ (Option.some.inj this).symm
        rw [if_neg other, Nat.add_zero] at balance'
        have count' := owned.counted stored'
        simp only [Dataplane.refs] at count' ⊢
        rw [← balance']
        exact count'
    · intro other positive
      obtain ⟨otherID, used⟩ := owned.leaked positive
      refine ⟨otherID, ?_⟩
      rw [release, if_neg, used]
      rintro rfl
      omega

theorem modifyEntry (owned : BackendsOwned leak p) {key : String} {f : ServiceEntry → ServiceEntry}
    (kept : ∀ e, (f e).backendIDs = e.backendIDs) : BackendsOwned leak (p.modifyEntry key f) := by
  unfold Dataplane.modifyEntry
  split
  · exact owned
  · rename_i entry found
    refine owned.congr ?_ (fun _ => rfl) rfl
    intro other
    simp only [FMap.get?_insert]
    split
    · rename_i same
      rw [same, found, Option.map_some, Option.map_some, kept]
    · rfl

theorem createService (owned : BackendsOwned leak p) {key : String} {entry : ServiceEntry}
    (a : IdAllocator) (absent : p.services.get? key = none)
    (empty : ∀ name, entry.backendIDs.get? name = none) :
    BackendsOwned leak
      { p with serviceAlloc := a, services := p.services.insert key entry } := by
  have counts : ∀ name, ({ p with serviceAlloc := a, services := p.services.insert key entry } :
      Dataplane).refs name = p.refs name := by
    intro name
    simp only [Dataplane.refs]
    rw [FMap.count_insert, FMap.count_erase_of_absent absent]
    simp [FMap.contains, empty]
  refine ⟨owned.capacity, ?_, owned.stated, owned.held, ?_, owned.leaked⟩
  · intro other otherEntry name id stored lists
    rw [FMap.get?_insert] at stored
    split at stored
    · cases stored
      rw [empty] at lists
      cases lists
    · exact owned.listed stored lists
  · intro id st stored
    rw [counts]
    exact owned.counted stored

/-- A VIP without backends may go. -/
theorem dropService {key : String} {entry : ServiceEntry} (owned : BackendsOwned leak p)
    (found : p.services.get? key = some entry)
    (empty : ∀ name, entry.backendIDs.get? name = none) :
    BackendsOwned leak { p with services := p.services.erase key } := by
  have counts : ∀ name, ({ p with services := p.services.erase key } : Dataplane).refs name =
      p.refs name := by
    intro name
    simp only [Dataplane.refs]
    rw [FMap.count_of_get? found]
    simp [FMap.contains, empty]
  refine ⟨owned.capacity, ?_, owned.stated, owned.held, ?_, owned.leaked⟩
  · intro otherKey otherEntry name id stored lists
    rw [FMap.get?_erase] at stored
    split at stored
    · cases stored
    · exact owned.listed stored lists
  · intro id st stored
    rw [counts]
    exact owned.counted stored


end BackendsOwned

end Rivora

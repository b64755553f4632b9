import Rivora.Proofs.Settle

/-! The single steps of settling a VIP's backends: release, refresh, acquire. -/

namespace Rivora

variable {p : Dataplane} {j : Nat} {ws : List MapWrite} {alloc : IdAllocator} {b : Backend}

theorem modifyEntry_rest (p : Dataplane) (key : String) (f : ServiceEntry → ServiceEntry) :
    p.modifyEntry key f = { p with services := (p.modifyEntry key f).services } := by
  unfold Dataplane.modifyEntry
  split <;> rfl

@[simp] theorem modifyEntry_backendStates (p : Dataplane) (key : String)
    (f : ServiceEntry → ServiceEntry) : (p.modifyEntry key f).backendStates = p.backendStates := by
  rw [modifyEntry_rest]

@[simp] theorem modifyEntry_backendAlloc (p : Dataplane) (key : String)
    (f : ServiceEntry → ServiceEntry) : (p.modifyEntry key f).backendAlloc = p.backendAlloc := by
  rw [modifyEntry_rest]

theorem modifyEntry_get?_of_ne (p : Dataplane) {key k : String} (f : ServiceEntry → ServiceEntry)
    (differ : k ≠ key) : (p.modifyEntry key f).services.get? k = p.services.get? k := by
  unfold Dataplane.modifyEntry
  split
  · rfl
  · exact FMap.get?_insert_of_ne _ _ differ

theorem modifyEntry_get?_self {key : String} {e : ServiceEntry}
    (found : p.services.get? key = some e) (f : ServiceEntry → ServiceEntry) :
    (p.modifyEntry key f).services.get? key = some (f e) := by
  rw [modifyEntry_of_found found, FMap.get?_insert_self]

theorem BackendsOwned.noteMAC {leak : String → Nat} (owned : BackendsOwned leak p)
    (id : Nat) (b : Backend) : BackendsOwned leak (p.noteMAC id b) := by
  refine owned.congr ?_ ?_ ?_
  · intro key
    rw [noteMAC_rest]
  · intro j
    rw [noteMAC_get?]
    split
    · rename_i same
      subst same
      rw [Option.map_map]
      congr 1
      funext st
      obtain ⟨address, port, family, _, count⟩ := noteMAC_fields b st
      simp only [Function.comp_apply, BackendState.name, address, port, family, count]
    · rfl
  · rw [noteMAC_rest]

section Steps

variable {leak : String → Nat} {key : String} {desired : FMap String Backend} {q : Dataplane}
  {name : String} {id : Nat}

/-- The control state once a VIP has let go of a backend. -/
def Dataplane.letGo (p : Dataplane) (key name : String) (id : Nat) : Dataplane :=
  (p.unreference name id).modifyEntry key (ServiceEntry.unlist name)

/-- What is listed after a release was listed before. -/
theorem lists_of_letGo {k other : String} (lists : Lists (q.letGo key name id) k other j) :
    Lists q k other j ∧ (k = key → other ≠ name) := by
  unfold Dataplane.letGo at lists
  by_cases same : k = key
  · subst same
    obtain ⟨entry, found, named⟩ := lists
    cases before : (q.unreference name id).services.get? k with
    | none =>
      rw [Dataplane.modifyEntry, before] at found
      dsimp only at found
      rw [before] at found
      cases found
    | some e =>
      rw [modifyEntry_get?_self before] at found
      cases found
      rw [ServiceEntry.unlist, FMap.get?_erase] at named
      split at named
      · cases named
      · rename_i differ
        rw [unreference_services] at before
        exact ⟨⟨e, before, named⟩, fun _ => differ⟩
  · rw [lists_modifyEntry_of_ne _ same] at lists
    unfold Lists at lists
    rw [unreference_services] at lists
    exact ⟨lists, fun equal => absurd equal same⟩

/-- The last reference to a backend frees its ID. -/
theorem frees_of_last (owned : BackendsOwned leak q) (lists : Lists q key name id)
    (unwanted : desired.contains name = false) {st : BackendState}
    (stored : q.backendStates.get? id = some st) (last : ¬ st.refCount - 1 > 0) :
    Frees key desired q name id := by
  obtain ⟨entry, found, named⟩ := lists
  have owned' := owned.unlist found named
  refine ⟨⟨entry, found, named⟩, unwanted, ?_⟩
  rintro k differ j ⟨other, stored', lists'⟩
  -- The other VIP would still hold an ID that has just been given back.
  have still : Lists (q.letGo key name id) k name j := by
    unfold Dataplane.letGo
    rw [lists_modifyEntry_of_ne _ differ]
    exact ⟨other, (unreference_services q name id).symm ▸ stored', lists'⟩
  have used := owned'.id_of_lists still
  rw [modifyEntry_backendAlloc, Dataplane.unreference, stored] at used
  dsimp only at used
  rw [if_neg last] at used
  rw [IdAllocator.get?_release, if_pos rfl] at used
  cases used

/-- A backend nobody wants is released. -/
theorem Settling.release (owned : BackendsOwned leak q) (lists : Lists q key name id)
    (unwanted : desired.contains name = false)
    (some_of : ws.Sublist (releaseWrites q id)) :
    Settling leak key desired q (q.letGo key name id) ws := by
  obtain ⟨entry, found, named⟩ := lists
  have owned' : BackendsOwned leak (q.letGo key name id) := owned.unlist found named
  have found' : (q.unreference name id).services.get? key = some entry := by
    rw [unreference_services]
    exact found
  -- A write is made only when the last reference goes.
  have freed : ∀ w ∈ ws, Frees key desired q name id ∧
      ((∃ isV4, w = .deleteBackend ⟨isV4, id⟩) ∨ w = .setHealth id .down) := by
    intro w member
    have planned := some_of.mem member
    unfold releaseWrites at planned
    split at planned
    · cases planned
    · rename_i st stored
      split at planned
      · cases planned
      · rename_i last
        refine ⟨frees_of_last owned ⟨entry, found, named⟩ unwanted stored last, ?_⟩
        rcases List.mem_cons.mp planned with delete | rest
        · exact Or.inl ⟨_, delete⟩
        · exact Or.inr (List.mem_singleton.mp rest)
  refine { rest := ?_, others := ?_, entry := ?_, kept := ?_, only := ?_, allocated := ?_,
           lineage := ?_, owned := owned', writes := ?_, described := ?_ }
  · unfold Dataplane.letGo
    rw [modifyEntry_rest, unreference_rest]
  · intro k differ
    unfold Dataplane.letGo
    rw [modifyEntry_get?_of_ne _ _ differ, unreference_services]
  · intro e stored
    cases found.symm.trans stored
    exact ⟨_, modifyEntry_get?_self found' _⟩
  · rintro other j ⟨e, stored, lists'⟩ wanted
    cases found.symm.trans stored
    have differ : other ≠ name := by
      rintro rfl
      rw [unwanted] at wanted
      cases wanted
    unfold Dataplane.letGo
    rw [lists_modifyEntry_self found', ServiceEntry.unlist, FMap.get?_erase_of_ne _ differ]
    exact lists'
  · intro other j lists'
    exact Or.inl (lists_of_letGo lists').1
  · intro other j wanted used
    have differ : other ≠ name := by
      rintro rfl
      rw [unwanted] at wanted
      cases wanted
    unfold Dataplane.letGo
    rw [modifyEntry_backendAlloc, unreference_ids_of_ne _ _ differ]
    exact used
  · intro j st' stored
    unfold Dataplane.letGo at stored
    rw [modifyEntry_backendStates] at stored
    exact Or.inl (unreference_states stored)
  · intro w member
    obtain ⟨frees, ⟨isV4, rfl⟩ | rfl⟩ := freed w member
    · exact .delete frees isV4
    · exact .down frees
  · intro m described
    have start : Described (q.letGo key name id) m :=
      described.congr fun lists' => (lists_of_letGo lists').1
    refine replay_preserves ?_ start
    intro w member m' described'
    obtain ⟨frees, ⟨isV4, rfl⟩ | rfl⟩ := freed w member
    · refine described'.delete isV4 ?_
      intro k other lists'
      obtain ⟨before, differ⟩ := lists_of_letGo lists'
      have same : other = name := owned.name_of_id before frees.lists
      subst same
      by_cases this : k = key
      · exact differ this rfl
      · exact frees.sole k this id before
    · exact fun _ _ _ lists' => described' lists'

theorem BackendImage.letGo {m : Maps} (image : BackendImage q m) (key name : String) (id : Nat) :
    BackendImage (q.letGo key name id) (replay (releaseWrites q id) m) :=
  (image.release name id).congr (modifyEntry_backendStates _ _ _)

/-- Backends in use keep their IDs. -/
theorem acquired_keeps (allocated : q.backendAlloc.alloc name = (.ok id, alloc))
    {other : String} (used : q.backendAlloc.ids.get? other = some j) :
    alloc.ids.get? other = some j := by
  rcases IdAllocator.alloc_cases allocated with ⟨_, same⟩ | ⟨absent, _, _, _, ids⟩
  · rw [same]
    exact used
  · rw [ids, FMap.get?_insert_of_ne]
    · exact used
    · rintro rfl
      rw [absent] at used
      cases used

theorem acquired_states (owned : BackendsOwned leak q)
    (named : backendName b = name) (allocated : q.backendAlloc.alloc name = (.ok id, alloc))
    {st' : BackendState} (stored : (q.acquired alloc id b).backendStates.get? j = some st') :
    (∃ st, q.backendStates.get? j = some st ∧ st'.Continues st) ∨
      (q.backendAlloc.ids.get? st'.name = none ∧ st'.name = name ∧ st'.Unmarked) := by
  rw [Dataplane.acquired, Dataplane.reference] at stored
  dsimp only at stored
  rw [FMap.get?_insert] at stored
  split at stored
  · rename_i same
    subst same
    cases stored
    rcases IdAllocator.alloc_cases allocated with ⟨known, _⟩ | ⟨absent, unused, _⟩
    · -- The name was known, so the state under its ID is counted up.
      obtain ⟨st, found, _⟩ := owned.stated known
      refine Or.inl ⟨st, found, ?_⟩
      rw [found]
      exact ⟨rfl, rfl, rfl, rfl, rfl⟩
    · rw [owned.no_state unused]
      have stName : BackendState.name { BackendState.fresh b with
          refCount := (BackendState.fresh b).refCount + 1 } = name := named
      refine Or.inr ⟨?_, stName, rfl, rfl, rfl⟩
      exact stName ▸ absent
  · exact Or.inl ⟨st', stored, .refl st'⟩

/-- A wanted backend is taken into use. -/
theorem Settling.reference (owned : BackendsOwned leak q)
    (wanted : desired.get? name = some b) (named : backendName b = name)
    (allocated : q.backendAlloc.alloc name = (.ok id, alloc)) :
    Settling (leakOne leak name) key desired q (q.acquired alloc id b) [] := by
  have contained : desired.contains name = true := by rw [FMap.contains, wanted]; rfl
  refine { rest := rfl, others := fun _ _ => rfl, entry := ?_, kept := fun lists _ => lists,
           only := fun lists => Or.inl lists, allocated := ?_, lineage := ?_,
           owned := owned.reference named allocated, writes := ?_, described := ?_ }
  · intro e stored
    exact ⟨e.backendIDs, stored⟩
  · intro other j _ used
    exact acquired_keeps allocated used
  · intro j st' stored
    rcases acquired_states owned named allocated stored with continues | ⟨absent, same, unmarked⟩
    · exact Or.inl continues
    · exact Or.inr ⟨absent, same ▸ contained, unmarked⟩
  · intro w member
    cases member
  · intro m described
    exact described

/-- It is described in the maps. -/
theorem Settling.describe (owned : BackendsOwned leak q)
    (wanted : desired.get? name = some b) (named : backendName b = name)
    (used : q.backendAlloc.ids.get? name = some id) {ip : IP}
    (parsed : parseIP b.address = some ip)
    (some_of : ws.Sublist (acquireWrites (q.noteMAC id b) id ip b.port)) :
    Settling leak key desired q (q.noteMAC id b) ws := by
  have owned' := owned.noteMAC id b
  have services : (q.noteMAC id b).services = q.services := by rw [noteMAC_rest]
  have alloc : (q.noteMAC id b).backendAlloc = q.backendAlloc := by rw [noteMAC_rest]
  have contained : desired.contains name = true := by rw [FMap.contains, wanted]; rfl
  have same : ∀ {k other j}, Lists (q.noteMAC id b) k other j ↔ Lists q k other j := by
    intro k other j
    unfold Lists
    rw [services]
  have kinds : ∀ w ∈ ws, (∃ mac, w = infoWrite id ip b.port mac) ∨ ∃ value, w = .setHealth id value := by
    intro w member
    rcases List.mem_cons.mp (some_of.mem member) with info | rest
    · exact Or.inl ⟨_, info⟩
    · exact Or.inr ⟨_, List.mem_singleton.mp rest⟩
  refine { rest := ?_, others := ?_, entry := ?_, kept := ?_, only := ?_, allocated := ?_,
           lineage := ?_, owned := owned', writes := ?_, described := ?_ }
  · rw [noteMAC_rest]
  · intro k _
    rw [services]
  · intro e stored
    exact ⟨e.backendIDs, by rw [services]; exact stored⟩
  · intro other j lists' _
    exact same.mpr lists'
  · intro other j lists'
    exact Or.inl (same.mp lists')
  · intro other j _ used'
    rw [alloc]
    exact used'
  · intro j st' stored
    exact Or.inl (noteMAC_states stored)
  · intro w member
    rcases kinds w member with ⟨mac, rfl⟩ | ⟨value, rfl⟩
    · exact .describe wanted (alloc ▸ used) parsed mac
    · exact .health contained (alloc ▸ used) value
  · intro m described
    refine replay_preserves ?_ (described.congr same.mp)
    intro w member m' described'
    rcases kinds w member with ⟨mac, rfl⟩ | ⟨value, rfl⟩
    · exact described'.describe owned' named (alloc ▸ used) parsed mac
    · exact fun _ _ _ lists' => described' lists'

/-- It is listed for the VIP. -/
theorem Settling.list {entry : ServiceEntry}
    (acquired : Settling (leakOne leak name) key desired p q ws)
    (found : q.services.get? key = some entry) (absent : entry.backendIDs.get? name = none)
    (wanted : desired.contains name = true) (used : q.backendAlloc.ids.get? name = some id)
    (written : ∀ m, ∃ info, (replay ws m).backend.get? ⟨info.addr.isV4, id⟩ = some info ∧
      Denotes info name) :
    Settling leak key desired p (q.modifyEntry key (ServiceEntry.list name id)) ws := by
  have self := @lists_modifyEntry_self q key entry found (ServiceEntry.list name id)
  have step : Settled key desired q (q.modifyEntry key (ServiceEntry.list name id)) := by
    refine ⟨?_, fun k differ => modifyEntry_get?_of_ne _ _ differ, ?_, ?_, ?_, ?_, ?_⟩
    · rw [modifyEntry_rest]
    · intro e stored
      cases found.symm.trans stored
      exact ⟨_, modifyEntry_get?_self found _⟩
    · rintro other j ⟨e, stored, lists⟩ _
      cases found.symm.trans stored
      have differ : other ≠ name := by
        rintro rfl
        rw [absent] at lists
        cases lists
      rw [self, ServiceEntry.list, FMap.get?_insert_of_ne _ _ differ]
      exact lists
    · intro other j lists
      rw [self, ServiceEntry.list, FMap.get?_insert] at lists
      split at lists
      · rename_i same
        exact Or.inr (same ▸ wanted)
      · exact Or.inl ⟨entry, found, lists⟩
    · intro other j _ used'
      rw [modifyEntry_backendAlloc]
      exact used'
    · intro j st' stored
      rw [modifyEntry_backendStates] at stored
      exact Or.inl ⟨st', stored, .refl st'⟩
  exact { acquired.toSettled.trans step with
    owned := acquired.owned.list found absent used
    writes := fun w member =>
      (acquired.writes w member).widen (Settled.refl key desired p) step
    described := by
      intro m described k other j lists
      have before := acquired.described m described
      by_cases same : k = key
      · subst same
        rw [self, ServiceEntry.list, FMap.get?_insert] at lists
        split at lists
        · rename_i this
          cases lists
          rw [this]
          exact written m
        · exact before ⟨entry, found, lists⟩
      · rw [lists_modifyEntry_of_ne _ same] at lists
        exact before lists }

end Steps

end Rivora

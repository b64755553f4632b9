import Rivora.Proofs.BackendRuns

/-! The backend and health maps as the image of the backend states. -/

namespace Rivora

variable {id : Nat} {st : BackendState} {ip : IP} {q : Dataplane}

/-- The maps describe exactly the backends that have a state, and their health. -/
structure BackendImage (p : Dataplane) (m : Maps) : Prop where
  described : ∀ {id st}, p.backendStates.get? id = some st → ∃ ip, parseIP st.address = some ip ∧
    m.backend.get? ⟨st.isV4, id⟩ = some ⟨ip.toAddr, htons st.port, st.storedMAC⟩
  only : ∀ {key info}, m.backend.get? key = some info →
    ∃ st, p.backendStates.get? key.id = some st ∧ st.isV4 = key.isV4
  health : ∀ id, m.backendHealth id =
    ((p.backendStates.get? id).map BackendState.health).getD .down

theorem toAddr_isV4 (ip : IP) : ip.toAddr.isV4 = ip.to4.isSome := by
  unfold IP.toAddr
  cases ip.to4 <;> rfl

theorem BackendsOwned.family {leak : String → Nat} {p : Dataplane} (owned : BackendsOwned leak p)
    (found : p.backendStates.get? id = some st)
    (parsed : parseIP st.address = some ip) : st.isV4 = ip.toAddr.isV4 := by
  rw [(owned.held found).2, parsed, toAddr_isV4]
  rfl

theorem noteMAC_fields (b : Backend) (st : BackendState) :
    (st.noteMAC b).address = st.address ∧ (st.noteMAC b).port = st.port ∧
      (st.noteMAC b).isV4 = st.isV4 ∧ (st.noteMAC b).health = st.health ∧
      (st.noteMAC b).refCount = st.refCount := by
  unfold BackendState.noteMAC
  split
  · exact ⟨rfl, rfl, rfl, rfl, rfl⟩
  · split
    · exact ⟨rfl, rfl, rfl, rfl, rfl⟩
    · exact ⟨rfl, rfl, rfl, rfl, rfl⟩

/-- What the maps show of a backend's state. -/
def BackendState.mapView (st : BackendState) : String × UInt16 × Bool × Mac × Health :=
  (st.address, st.port, st.isV4, st.storedMAC, st.health)

namespace BackendImage

variable {leak : String → Nat} {p : Dataplane} {m : Maps}

theorem congrView (image : BackendImage p m)
    (same : ∀ id, (q.backendStates.get? id).map BackendState.mapView =
      (p.backendStates.get? id).map BackendState.mapView) : BackendImage q m := by
  -- Every state on either side has one on the other with the same view.
  have back : ∀ {id st}, q.backendStates.get? id = some st →
      ∃ st₀, p.backendStates.get? id = some st₀ ∧ st₀.mapView = st.mapView := by
    intro id st found
    have view := same id
    rw [found, Option.map_some] at view
    exact Option.map_eq_some_iff.mp view.symm
  refine ⟨?_, ?_, ?_⟩
  · intro id st found
    obtain ⟨st₀, before, view⟩ := back found
    obtain ⟨ip, parsed, entry⟩ := image.described before
    simp only [BackendState.mapView, Prod.mk.injEq] at view
    obtain ⟨address, port, family, mac, _⟩ := view
    rw [address] at parsed
    rw [port, family, mac] at entry
    exact ⟨ip, parsed, entry⟩
  · intro key info found
    obtain ⟨st₀, before, family⟩ := image.only found
    have view := same key.id
    rw [before, Option.map_some] at view
    obtain ⟨st, after, equal⟩ := Option.map_eq_some_iff.mp view
    simp only [BackendState.mapView, Prod.mk.injEq] at equal
    exact ⟨st, after, equal.2.2.1.trans family⟩
  · intro id
    rw [image.health id]
    have view := congrArg (Option.map fun v => v.2.2.2.2) (same id)
    simp only [Option.map_map] at view
    exact congrArg (fun o => Option.getD o Health.down) view.symm

theorem congr (image : BackendImage p m)
    (same : q.backendStates = p.backendStates) : BackendImage q m :=
  image.congrView fun id => by rw [same]

theorem release (image : BackendImage p m) (name : String) (id : Nat) :
    BackendImage (p.unreference name id) (replay (releaseWrites p id) m) := by
  unfold Dataplane.unreference releaseWrites
  cases found : p.backendStates.get? id with
  | none => exact image
  | some st =>
    dsimp only
    by_cases remaining : st.refCount - 1 > 0
    · -- Only the count changes.
      simp only [if_pos remaining, replay_nil]
      refine ⟨?_, ?_, ?_⟩
      · intro other st' stored
        simp only [FMap.get?_insert] at stored
        split at stored
        · rename_i same
          cases stored
          subst same
          obtain ⟨ip, parsed, entry⟩ := image.described found
          exact ⟨ip, parsed, entry⟩
        · exact image.described stored
      · intro key info stored
        obtain ⟨st', stored', family⟩ := image.only stored
        simp only [FMap.get?_insert]
        split
        · rename_i same
          rw [same, found] at stored'
          cases stored'
          exact ⟨_, rfl, family⟩
        · exact ⟨st', stored', family⟩
      · intro other
        rw [image.health other]
        simp only [FMap.get?_insert]
        split
        · rename_i same
          rw [same, found]
          rfl
        · rfl
    · -- State and entries go together.
      simp only [if_neg remaining, replay_cons, replay_nil, MapWrite.apply]
      refine ⟨?_, ?_, ?_⟩
      · intro other st' stored
        simp only [FMap.get?_erase] at stored
        split at stored
        · cases stored
        · rename_i differ
          obtain ⟨ip, parsed, entry⟩ := image.described stored
          refine ⟨ip, parsed, ?_⟩
          rw [FMap.get?_erase_of_ne]
          · exact entry
          · intro same
            exact differ (congrArg BackendKey.id same)
      · intro key info stored
        simp only [FMap.get?_erase] at stored
        split at stored
        · cases stored
        · rename_i differ
          obtain ⟨st', stored', family⟩ := image.only stored
          refine ⟨st', ?_, family⟩
          rw [FMap.get?_erase_of_ne]
          · exact stored'
          · intro same
            rw [same, found] at stored'
            cases stored'
            exact differ (by rw [family, ← same])
      · intro other
        simp only [arraySet, FMap.get?_erase]
        split
        · rfl
        · exact image.health other

theorem install (image : BackendImage p m) {m' : Maps}
    (mine : q.backendStates.get? id = some st)
    (others : ∀ j, j ≠ id → q.backendStates.get? j = p.backendStates.get? j)
    (stable : ∀ st₀, p.backendStates.get? id = some st₀ → st₀.isV4 = st.isV4)
    (parsed : parseIP st.address = some ip)
    (entries : m'.backend =
      m.backend.insert ⟨st.isV4, id⟩ ⟨ip.toAddr, htons st.port, st.storedMAC⟩)
    (healths : m'.backendHealth = arraySet m.backendHealth id st.health) : BackendImage q m' := by
  refine ⟨?_, ?_, ?_⟩
  · intro other st' here
    rw [entries]
    by_cases same : other = id
    · subst same
      cases mine.symm.trans here
      exact ⟨ip, parsed, FMap.get?_insert_self _ _ _⟩
    · rw [others other same] at here
      obtain ⟨ip', parsed', entry⟩ := image.described here
      refine ⟨ip', parsed', ?_⟩
      rw [FMap.get?_insert_of_ne]
      · exact entry
      · intro equal
        exact same (congrArg BackendKey.id equal)
  · intro key info here
    rw [entries, FMap.get?_insert] at here
    split at here
    · rename_i same
      subst same
      exact ⟨st, mine, rfl⟩
    · obtain ⟨st', stored, family⟩ := image.only here
      by_cases same : key.id = id
      · rw [same] at stored ⊢
        exact ⟨st, mine, (stable st' stored).symm.trans family⟩
      · exact ⟨st', (others _ same).trans stored, family⟩
  · intro other
    rw [healths]
    by_cases same : other = id
    · subst same
      rw [arraySet_same, mine]
      rfl
    · rw [arraySet_of_ne _ _ same, others other same]
      exact image.health other

theorem refresh (image : BackendImage p m) (owned : BackendsOwned leak p)
    (found : p.backendStates.get? id = some st) {b : Backend}
    (named : backendName b = st.name) (parsed : parseIP b.address = some ip) :
    BackendImage (p.noteMAC id b)
      ((infoWrite id ip b.port ((p.noteMAC id b).storedMAC id)).apply m) := by
  obtain ⟨address, port⟩ := backendName_inj named
  have address' : st.address = b.address := address.symm
  have port' : st.port = b.port := port.symm
  have family : st.isV4 = ip.toAddr.isV4 := owned.family found (address' ▸ parsed)
  obtain ⟨keptAddress, keptPort, keptFamily, keptHealth, _⟩ := noteMAC_fields b st
  have state : (p.noteMAC id b).backendStates.get? id = some (st.noteMAC b) := by
    rw [noteMAC_get?, if_pos rfl, found, Option.map_some]
  refine image.install state ?_ ?_ (keptAddress.trans address' ▸ parsed) ?_ ?_
  · intro j differ
    rw [noteMAC_get?, if_neg differ]
  · intro st₀ before
    cases found.symm.trans before
    exact keptFamily.symm
  · simp only [infoWrite, MapWrite.apply, Dataplane.storedMAC, state, Option.map_some,
      Option.getD_some, keptFamily, keptPort, family, port']
  · funext other
    simp only [infoWrite, MapWrite.apply, arraySet]
    split
    · rename_i same
      rw [same, image.health, found, keptHealth]
      rfl
    · rfl

theorem acquire (image : BackendImage p m) (owned : BackendsOwned leak p) {name : String}
    {b : Backend} {alloc : IdAllocator} (named : backendName b = name)
    (allocated : p.backendAlloc.alloc name = (.ok id, alloc))
    (parsed : parseIP b.address = some ip) :
    BackendImage ((p.acquired alloc id b).noteMAC id b)
      (replay (acquireWrites ((p.acquired alloc id b).noteMAC id b) id ip b.port) m) := by
  have owned' := owned.reference named allocated
  obtain ⟨st, found⟩ := acquired_get? p alloc id b
  -- The state under the ID is that of the name just allocated.
  have stName : st.name = backendName b := by
    have held := (owned'.held found).1
    have known : (p.acquired alloc id b).backendAlloc.ids.get? name = some id :=
      IdAllocator.get?_of_alloc allocated
    exact (IdAllocator.key_unique _ held known).trans named.symm
  obtain ⟨address, port⟩ := backendName_inj stName
  have address' : st.address = b.address := address
  have port' : st.port = b.port := port
  have family : st.isV4 = ip.toAddr.isV4 := owned'.family found (address' ▸ parsed)
  obtain ⟨keptAddress, keptPort, keptFamily, keptHealth, _⟩ := noteMAC_fields b st
  have state : ((p.acquired alloc id b).noteMAC id b).backendStates.get? id =
      some (st.noteMAC b) := by
    rw [noteMAC_get?, if_pos rfl, found, Option.map_some]
  refine image.install state ?_ ?_ (keptAddress.trans address' ▸ parsed) ?_ ?_
  · intro j differ
    rw [noteMAC_get?, if_neg differ]
    exact FMap.get?_insert_of_ne _ _ differ
  · intro st₀ before
    have same : st = { st₀ with refCount := st₀.refCount + 1 } := by
      have stored : (p.acquired alloc id b).backendStates.get? id =
          some { ((p.backendStates.get? id).getD (.fresh b)) with
            refCount := ((p.backendStates.get? id).getD (.fresh b)).refCount + 1 } :=
        FMap.get?_insert_self _ _ _
      rw [found, before] at stored
      exact Option.some.inj stored
    rw [keptFamily, same]
  · simp only [acquireWrites, infoWrite, replay_cons, replay_nil, MapWrite.apply,
      Dataplane.storedMAC, state, Option.map_some, Option.getD_some, keptFamily, keptPort, family,
      port']
  · simp only [acquireWrites, infoWrite, replay_cons, replay_nil, MapWrite.apply, state,
      Option.map_some, Option.getD_some]

end BackendImage

end Rivora

import Rivora.Proofs.BackendImage
import Rivora.Proofs.OwnedSlots

/-! A VIP's backend list being brought to the wanted one. -/

namespace Rivora

variable {id : Nat} {st' st : BackendState}

/-- A VIP lists a backend under a name and an ID. -/
def Lists (p : Dataplane) (key name : String) (id : Nat) : Prop :=
  ∃ entry, p.services.get? key = some entry ∧ entry.backendIDs.get? name = some id

/-- An entry of the backend map stands for a name: a backend of that name has this address and port. -/
def Denotes (info : BackendInfo) (name : String) : Prop :=
  ∃ b ip, backendName b = name ∧ parseIP b.address = some ip ∧ info.addr = ip.toAddr ∧
    info.port = htons b.port

/-- Every listed backend has its entry. -/
def Described (p : Dataplane) (m : Maps) : Prop :=
  ∀ ⦃key name id⦄, Lists p key name id →
    ∃ info, m.backend.get? ⟨info.addr.isV4, id⟩ = some info ∧ Denotes info name

/-- A backend's state goes on from an earlier one: the same backend, verdict and drains. -/
structure BackendState.Continues (st' st : BackendState) : Prop where
  address : st'.address = st.address
  port : st'.port = st.port
  probeHealthy : st'.probeHealthy = st.probeHealthy
  draining : st'.draining = st.draining
  adminDraining : st'.adminDraining = st.adminDraining

/-- A backend's state as it starts: taken to be healthy, and drained by nobody. -/
structure BackendState.Unmarked (st : BackendState) : Prop where
  probeHealthy : st.probeHealthy = true
  draining : st.draining = false
  adminDraining : st.adminDraining = false

/-- A backend that is listed holds its ID. -/
theorem BackendsOwned.id_of_lists {leak : String → Nat} {p : Dataplane}
    (owned : BackendsOwned leak p) {key name : String} (lists : Lists p key name id) :
    p.backendAlloc.ids.get? name = some id := by
  obtain ⟨entry, found, named⟩ := lists
  exact owned.listed found named

/-- One ID is listed for one backend. -/
theorem BackendsOwned.name_of_id {leak : String → Nat} {p : Dataplane}
    (owned : BackendsOwned leak p) {k₁ k₂ n₁ n₂ : String} (first : Lists p k₁ n₁ id)
    (second : Lists p k₂ n₂ id) : n₁ = n₂ :=
  p.backendAlloc.key_unique (owned.id_of_lists first) (owned.id_of_lists second)

/-- A VIP's last hold on a backend: it lists the backend, does not want it, and is the only one. -/
structure Frees (key : String) (desired : FMap String Backend) (p : Dataplane) (name : String)
    (id : Nat) : Prop where
  lists : Lists p key name id
  unwanted : desired.contains name = false
  sole : ∀ k, k ≠ key → ∀ j, ¬ Lists p k name j

/--
The writes that settling a VIP's backends can make.

They free a backend that only this VIP listed and no longer wants, or describe one it wants under
the ID that name has afterwards.
-/
inductive Touch (key : String) (desired : FMap String Backend) (p q : Dataplane) : MapWrite → Prop
  | delete {name : String} {id : Nat} (freed : Frees key desired p name id) (isV4 : Bool) :
    Touch key desired p q (.deleteBackend ⟨isV4, id⟩)
  | down {name : String} {id : Nat} (freed : Frees key desired p name id) :
    Touch key desired p q (.setHealth id .down)
  | describe {name : String} {b : Backend} {id : Nat} {ip : IP}
    (wanted : desired.get? name = some b) (used : q.backendAlloc.ids.get? name = some id)
    (parsed : parseIP b.address = some ip) (mac : Mac) :
    Touch key desired p q (infoWrite id ip b.port mac)
  | health {name : String} {id : Nat} (wanted : desired.contains name = true)
    (used : q.backendAlloc.ids.get? name = some id) (value : Health) :
    Touch key desired p q (.setHealth id value)

/-- What changes, at most, while a VIP's backends are being settled. -/
structure Settled (key : String) (desired : FMap String Backend) (p q : Dataplane) : Prop where
  rest : q = { p with
    services := q.services, backendStates := q.backendStates, backendAlloc := q.backendAlloc }
  others : ∀ k, k ≠ key → q.services.get? k = p.services.get? k
  entry : ∀ {e}, p.services.get? key = some e →
    ∃ ids, q.services.get? key = some { e with backendIDs := ids }
  kept : ∀ {name id}, Lists p key name id → desired.contains name = true → Lists q key name id
  only : ∀ {name id}, Lists q key name id → Lists p key name id ∨ desired.contains name = true
  allocated : ∀ {name id}, desired.contains name = true →
    p.backendAlloc.ids.get? name = some id → q.backendAlloc.ids.get? name = some id
  /-- A backend keeps its state, or is one the VIP wants that no VIP listed before. -/
  lineage : ∀ {id st'}, q.backendStates.get? id = some st' →
    (∃ st, p.backendStates.get? id = some st ∧ st'.Continues st) ∨
      (p.backendAlloc.ids.get? st'.name = none ∧ desired.contains st'.name = true ∧
        st'.Unmarked)

/-- Settling a VIP's backends, with who owns them and the writes made so far. -/
structure Settling (leak : String → Nat) (key : String) (desired : FMap String Backend)
    (p q : Dataplane) (ws : List MapWrite) : Prop extends Settled key desired p q where
  owned : BackendsOwned leak q
  writes : ∀ w ∈ ws, Touch key desired p q w
  described : ∀ m, Described p m → Described q (replay ws m)

theorem BackendState.Continues.name (same : st'.Continues st) :
    st'.name = st.name := by
  unfold BackendState.name
  rw [same.address, same.port]

theorem BackendState.Continues.refl (st : BackendState) : st.Continues st :=
  ⟨rfl, rfl, rfl, rfl, rfl⟩

theorem BackendState.Continues.trans {st'' : BackendState} (second : st''.Continues st')
    (first : st'.Continues st) : st''.Continues st :=
  ⟨second.address.trans first.address, second.port.trans first.port,
    second.probeHealthy.trans first.probeHealthy, second.draining.trans first.draining,
    second.adminDraining.trans first.adminDraining⟩

theorem BackendState.Continues.unmarked (same : st'.Continues st)
    (unmarked : st.Unmarked) : st'.Unmarked :=
  ⟨same.probeHealthy.trans unmarked.probeHealthy, same.draining.trans unmarked.draining,
    same.adminDraining.trans unmarked.adminDraining⟩

theorem BackendState.noteMAC_continues (b : Backend) (st : BackendState) :
    (st.noteMAC b).Continues st := by
  unfold BackendState.noteMAC
  split
  · exact .refl st
  · split
    · exact ⟨rfl, rfl, rfl, rfl, rfl⟩
    · exact .refl st

theorem unreference_rest (p : Dataplane) (name : String) (id : Nat) :
    p.unreference name id = { p with
      backendStates := (p.unreference name id).backendStates
      backendAlloc := (p.unreference name id).backendAlloc } := by
  unfold Dataplane.unreference
  split
  · rfl
  · split <;> rfl

theorem unreference_ids_of_ne (p : Dataplane) {name other : String} (id : Nat)
    (differ : other ≠ name) :
    (p.unreference name id).backendAlloc.ids.get? other = p.backendAlloc.ids.get? other := by
  unfold Dataplane.unreference
  split
  · rfl
  · split
    · rfl
    · exact (IdAllocator.get?_release _ _ _).trans (if_neg differ)

/-- A state that is left after a release was there before. -/
theorem unreference_states {p : Dataplane} {name : String} {j : Nat}
    (stored : (p.unreference name id).backendStates.get? j = some st') :
    ∃ st, p.backendStates.get? j = some st ∧ st'.Continues st := by
  unfold Dataplane.unreference at stored
  split at stored
  · exact ⟨st', stored, .refl st'⟩
  · rename_i st found
    split at stored
    · rw [FMap.get?_insert] at stored
      split at stored
      · rename_i same
        cases stored
        exact ⟨st, same ▸ found, ⟨rfl, rfl, rfl, rfl, rfl⟩⟩
      · exact ⟨st', stored, .refl st'⟩
    · rw [FMap.get?_erase] at stored
      split at stored
      · cases stored
      · exact ⟨st', stored, .refl st'⟩

theorem noteMAC_rest (p : Dataplane) (id : Nat) (b : Backend) :
    p.noteMAC id b = { p with backendStates := (p.noteMAC id b).backendStates } := by
  unfold Dataplane.noteMAC Dataplane.modifyBackend
  split
  · split
    · rfl
    · split <;> rfl
  · rfl

theorem noteMAC_states {p : Dataplane} {j : Nat} {b : Backend}
    (stored : (p.noteMAC id b).backendStates.get? j = some st') :
    ∃ st, p.backendStates.get? j = some st ∧ st'.Continues st := by
  rw [noteMAC_get?] at stored
  split at stored
  · rename_i same
    obtain ⟨st, found, noted⟩ := Option.map_eq_some_iff.mp stored
    exact ⟨st, same ▸ found, noted ▸ BackendState.noteMAC_continues b st⟩
  · exact ⟨st', stored, .refl st'⟩

theorem lists_modifyEntry_of_ne {p : Dataplane} {key k : String} (f : ServiceEntry → ServiceEntry)
    (differ : k ≠ key) {name : String} :
    Lists (p.modifyEntry key f) k name id ↔ Lists p k name id := by
  unfold Lists Dataplane.modifyEntry
  split
  · rfl
  · rw [FMap.get?_insert_of_ne _ _ differ]

theorem lists_modifyEntry_self {p : Dataplane} {key : String} {e : ServiceEntry}
    (found : p.services.get? key = some e) (f : ServiceEntry → ServiceEntry) {name : String} {id : Nat} :
    Lists (p.modifyEntry key f) key name id ↔ (f e).backendIDs.get? name = some id := by
  unfold Lists
  rw [modifyEntry_of_found found, FMap.get?_insert_self]
  constructor
  · rintro ⟨entry, stored, named⟩
    cases stored
    exact named
  · intro named
    exact ⟨f e, rfl, named⟩

namespace Described

variable {leak : String → Nat} {p q : Dataplane} {m : Maps}

theorem congr (described : Described p m)
    (lists : ∀ {key name id}, Lists q key name id → Lists p key name id) : Described q m :=
  fun _ _ _ listed => described (lists listed)

/-- The description of a backend in use, once it is written. -/
theorem describe (described : Described p m) (owned : BackendsOwned leak p) {name : String}
    {b : Backend} {ip : IP} (named : backendName b = name)
    (used : p.backendAlloc.ids.get? name = some id) (parsed : parseIP b.address = some ip)
    (mac : Mac) : Described p ((infoWrite id ip b.port mac).apply m) := by
  intro key other otherID lists
  simp only [infoWrite, MapWrite.apply]
  by_cases same : otherID = id
  · -- The ID belongs to one name, so the new entry stands for the listed backend.
    subst same
    have : other = name := p.backendAlloc.key_unique (owned.id_of_lists lists) used
    exact ⟨⟨ip.toAddr, htons b.port, mac⟩, FMap.get?_insert_self _ _ _,
      b, ip, this ▸ named, parsed, rfl, rfl⟩
  · obtain ⟨info, found, denotes⟩ := described lists
    refine ⟨info, ?_, denotes⟩
    rw [FMap.get?_insert_of_ne]
    · exact found
    · intro equal
      exact same (congrArg BackendKey.id equal)

/-- A description that nobody lists may go. -/
theorem delete (described : Described p m) (isV4 : Bool)
    (unlisted : ∀ key name, ¬ Lists p key name id) :
    Described p ((MapWrite.deleteBackend ⟨isV4, id⟩).apply m) := by
  intro key name otherID lists
  obtain ⟨info, found, denotes⟩ := described lists
  refine ⟨info, ?_, denotes⟩
  simp only [MapWrite.apply]
  rw [FMap.get?_erase_of_ne]
  · exact found
  · intro equal
    have same : otherID = id := congrArg BackendKey.id equal
    exact unlisted key name (same ▸ lists)

end Described

section Chain

variable {leak leak' : String → Nat} {key : String} {desired : FMap String Backend}
  {p q r : Dataplane} {ws ws' : List MapWrite}

theorem Settled.refl (key : String) (desired : FMap String Backend) (p : Dataplane) :
    Settled key desired p p :=
  ⟨rfl, fun _ _ => rfl, fun {e} found => ⟨e.backendIDs, found⟩, fun lists _ => lists,
    fun lists => Or.inl lists, fun _ used => used,
    fun {_ st'} stored => Or.inl ⟨st', stored, .refl st'⟩⟩

/-- One settling of backends after another. -/
theorem Settled.trans (first : Settled key desired p q) (second : Settled key desired q r) :
    Settled key desired p r := by
  refine ⟨?_, ?_, ?_, ?_, ?_, ?_, ?_⟩
  · rw [second.rest, first.rest]
  · intro k differ
    exact (second.others k differ).trans (first.others k differ)
  · intro e found
    obtain ⟨ids, found'⟩ := first.entry found
    obtain ⟨ids', found''⟩ := second.entry found'
    exact ⟨ids', found''⟩
  · intro name id lists wanted
    exact second.kept (first.kept lists wanted) wanted
  · intro name id lists
    rcases second.only lists with before | wanted
    · exact first.only before
    · exact Or.inr wanted
  · intro name id wanted used
    exact second.allocated wanted (first.allocated wanted used)
  · intro id st'' stored
    rcases second.lineage stored with ⟨st', before, continues⟩ | ⟨unused, wanted, unmarked⟩
    · rcases first.lineage before with ⟨st, start, continues'⟩ | ⟨unused, wanted, unmarked⟩
      · exact Or.inl ⟨st, start, continues.trans continues'⟩
      · rw [← continues.name] at unused wanted
        exact Or.inr ⟨unused, wanted, continues.unmarked unmarked⟩
    · refine Or.inr ⟨?_, wanted, unmarked⟩
      -- A wanted name that had an ID at the start would still have it.
      cases used : p.backendAlloc.ids.get? st''.name with
      | none => rfl
      | some id₀ =>
        rw [first.allocated wanted used] at unused
        cases unused

/-- The lists of other VIPs stay. -/
theorem Settled.lists_of_ne (settled : Settled key desired p q) {k name : String}
    (differ : k ≠ key) : Lists q k name id ↔ Lists p k name id := by
  unfold Lists
  rw [settled.others k differ]

theorem Frees.earlier {name : String} (freed : Frees key desired q name id)
    (settled : Settled key desired p q) : Frees key desired p name id := by
  refine ⟨?_, freed.unwanted, ?_⟩
  · rcases settled.only freed.lists with lists | wanted
    · exact lists
    · rw [freed.unwanted] at wanted
      cases wanted
  · intro k differ j lists
    exact freed.sole k differ j ((settled.lists_of_ne differ).mpr lists)

theorem Touch.widen {q' : Dataplane} {w : MapWrite} (touch : Touch key desired q q' w)
    (before : Settled key desired p q) (after : Settled key desired q' r) :
    Touch key desired p r w := by
  cases touch with
  | delete freed isV4 => exact .delete (freed.earlier before) isV4
  | down freed => exact .down (freed.earlier before)
  | @describe name b id ip wanted used parsed mac =>
    have named : desired.contains name = true := by rw [FMap.contains, wanted]; rfl
    exact .describe wanted (after.allocated named used) parsed mac
  | health wanted used value => exact .health wanted (after.allocated wanted used) value

theorem Settling.start (owned : BackendsOwned leak p) : Settling leak key desired p p [] :=
  { Settled.refl key desired p with
    owned := owned
    writes := fun _ member => nomatch member
    described := fun _ described => described }

/-- Their writes follow one another. -/
theorem Settling.trans (first : Settling leak key desired p q ws)
    (second : Settling leak' key desired q r ws') : Settling leak' key desired p r (ws ++ ws') :=
  { first.toSettled.trans second.toSettled with
    owned := second.owned
    writes := by
      intro w member
      rcases List.mem_append.mp member with early | late
      · exact (first.writes w early).widen (Settled.refl key desired p) second.toSettled
      · exact (second.writes w late).widen first.toSettled (Settled.refl key desired r)
    described := by
      intro m described
      rw [replay_append]
      exact second.described _ (first.described m described) }

end Chain

end Rivora

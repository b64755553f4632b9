import Rivora.Proofs.Program

/-! The first half of an upsert: finding or creating the VIP's entry, and settling its backends. -/

namespace Rivora

/-- Who owns what in the control state, with the references nobody accounts for. -/
structure Owned (leak : String → Nat) (p : Dataplane) : Prop where
  backends : BackendsOwned leak p
  services : ServicesOwned p
  tiled : Tiled [] p
  sized : ∀ {key entry}, p.services.get? key = some entry →
    entry.extent.size = 0 ∨ entry.extent.size ∈ maglevSizeClasses

/-- The weight overrides of a VIP; none if it is not programmed. -/
def Dataplane.overrides (p : Dataplane) (key : String) : FMap String Nat :=
  ((p.services.get? key).map ServiceEntry.weightOverrides).getD FMap.empty

/-- The VIP as it was last programmed; the zero value if it never was. -/
def Dataplane.programmed (p : Dataplane) (key : String) : VIP :=
  ((p.services.get? key).map ServiceEntry.vip).getD default

/-- A VIP's spec with the overrides of this node applied. -/
def Dataplane.effective (p : Dataplane) (spec : VIP) : VIP :=
  spec.overrideWeights (p.overrides (vipKeyString spec))

/-- The backends an upsert of a spec wants. -/
def Dataplane.wanted (p : Dataplane) (spec : VIP) : FMap String Backend :=
  desiredBackends (p.effective spec)

theorem desiredBackends_name {vip : VIP} {name : String} {b : Backend}
    (wanted : (desiredBackends vip).get? name = some b) : backendName b = name := by
  obtain ⟨b', _, same⟩ := List.mem_map.mp (FMap.mem_of_get?_ofList wanted)
  cases same
  rfl

/-- The VIP has an entry: the one it had with stale overrides pruned, or a new one. -/
structure Entered (spec : VIP) (p q : Dataplane) (e : ServiceEntry) (ws : List MapWrite) : Prop where
  rest : q = { p with services := q.services, serviceAlloc := q.serviceAlloc }
  others : ∀ k, k ≠ vipKeyString spec → q.services.get? k = p.services.get? k
  entry : q.services.get? (vipKeyString spec) = some e
  known : ∀ {e₀}, p.services.get? (vipKeyString spec) = some e₀ → e = e₀.prune spec ∧ ws = []
  fresh : p.services.get? (vipKeyString spec) = none →
    e = (ServiceEntry.new e.serviceID).prune spec ∧
      (∀ k e', p.services.get? k = some e' → e'.serviceID ≠ e.serviceID) ∧
      ∀ w ∈ ws, w = .resetDropStats e.serviceID
  keeps : ∀ {leak}, Owned leak p → Owned leak q

theorem Owned.modifyEntry {leak : String → Nat} {p : Dataplane} (owned : Owned leak p) (key : String)
    {f : ServiceEntry → ServiceEntry} (lists : ∀ e, (f e).backendIDs = e.backendIDs)
    (ids : ∀ e, (f e).serviceID = e.serviceID) (extents : ∀ e, (f e).extent = e.extent) :
    Owned leak (p.modifyEntry key f) := by
  refine ⟨owned.backends.modifyEntry lists, owned.services.modifyEntry ids,
    owned.tiled.modifyEntry extents, ?_⟩
  intro k e stored
  unfold Dataplane.modifyEntry at stored
  split at stored
  · exact owned.sized stored
  · rename_i entry found
    rw [FMap.get?_insert] at stored
    split at stored
    · cases stored
      rw [extents]
      exact owned.sized found
    · exact owned.sized stored

theorem Owned.prune {leak : String → Nat} {p : Dataplane} (owned : Owned leak p) (key : String)
    (spec : VIP) : Owned leak (p.modifyEntry key (ServiceEntry.prune spec)) :=
  owned.modifyEntry key (fun _ => rfl) (fun _ => rfl) fun _ => rfl

theorem Owned.create {leak : String → Nat} {p : Dataplane} (owned : Owned leak p) {key : String}
    {id : Nat} {alloc : IdAllocator} (absent : p.services.get? key = none)
    (allocated : p.serviceAlloc.alloc key = (.ok id, alloc)) :
    Owned leak { p with serviceAlloc := alloc, services := p.services.insert key (.new id) } := by
  refine ⟨owned.backends.createService alloc absent fun _ => rfl,
    (owned.services.create absent allocated (.new id) rfl).1, owned.tiled.create absent rfl, ?_⟩
  intro k e stored
  rw [FMap.get?_insert] at stored
  split at stored
  · cases stored
    exact Or.inl rfl
  · exact owned.sized stored

theorem resetDropStats_run (serviceID : Nat) (env : Env) (s : World) :
    ∃ s' ws, resetDropStats serviceID env s = (.ok (), s') ∧ s'.plane = s.plane ∧ Logged s s' ws ∧
      ∀ w ∈ ws, w = .resetDropStats serviceID := by
  unfold resetDropStats
  simp only [Effect.bind_apply, getPlane_apply]
  cases s.plane.dp.dropStats with
  | false => exact ⟨s, [], rfl, rfl, by simp [Logged], by simp⟩
  | true =>
    obtain ⟨s', ws, run, plane, logged, outcome⟩ := ignoring_write (.resetDropStats serviceID) env s
    refine ⟨s', ws, run, plane, logged, ?_⟩
    intro w member
    rcases outcome with rfl | ⟨rfl, _⟩
    · exact List.mem_singleton.mp member
    · cases member

theorem createService_run (key : String) (env : Env) {s : World} (owned : ServicesOwned s.plane)
    (absent : s.plane.services.get? key = none) :
    (∃ text e, (s.plane.serviceAlloc.alloc key).1 = .error text ∧
      createService key env s = (.error e, s)) ∨
    ∃ id alloc s' ws, s.plane.serviceAlloc.alloc key = (.ok id, alloc) ∧
      createService key env s = (.ok (), s') ∧
      s'.plane = { s.plane with
        serviceAlloc := alloc, services := s.plane.services.insert key (.new id) } ∧
      (∀ k e, s.plane.services.get? k = some e → e.serviceID ≠ id) ∧ Logged s s' ws ∧
      ∀ w ∈ ws, w = .resetDropStats id := by
  unfold createService
  simp only [Effect.bind_apply, getPlane_apply]
  rcases allocated : s.plane.serviceAlloc.alloc key with ⟨text | id, alloc⟩
  · exact Or.inl ⟨text, _, rfl, rfl⟩
  · simp only [Effect.bind_apply, modifyPlane_apply]
    obtain ⟨s', ws, run, plane, logged, kinds⟩ := resetDropStats_run id env
      (s.withPlane { s.plane with
        serviceAlloc := alloc, services := s.plane.services.insert key (.new id) })
    obtain ⟨_, _, unused⟩ := owned.create absent allocated (.new id) rfl
    exact Or.inr ⟨id, alloc, s', ws, rfl, run, plane, unused, logged, kinds⟩

/-- Why an upsert is refused before it changes anything. -/
def EnterRefused (spec : VIP) (p : Dataplane) : Prop :=
  (∃ err, p.checkTunnelReady spec = .error err) ∨
    (p.services.get? (vipKeyString spec) = none ∧
      ∃ text, (p.serviceAlloc.alloc (vipKeyString spec)).1 = .error text)

theorem enterService_run (spec : VIP) (env : Env) {s : World} (owned : ServicesOwned s.plane) :
    (∃ e, enterService spec env s = (.error e, s) ∧ EnterRefused spec s.plane) ∨
    ∃ held s' e ws, enterService spec env s = (.ok held, s') ∧
      held.weightOverrides = s.plane.overrides (vipKeyString spec) ∧
      held.vip = s.plane.programmed (vipKeyString spec) ∧
      Entered spec s.plane s'.plane e ws ∧ Logged s s' ws := by
  unfold enterService Dataplane.overrides Dataplane.programmed
  simp only [Effect.bind_apply, getPlane_apply]
  cases ready : s.plane.checkTunnelReady spec with
  | error err =>
    simp only [liftExcept, Effect.mapError, Effect.fail_apply]
    exact Or.inl ⟨_, rfl, Or.inl ⟨err, ready⟩⟩
  | ok _ =>
    simp only [liftExcept, Effect.mapError, Effect.pure_apply]
    cases found : s.plane.services.get? (vipKeyString spec) with
    | some e₀ =>
      have existed : s.plane.services.contains (vipKeyString spec) = true := by
        rw [FMap.contains, found]
        rfl
      simp only [existed, if_true, Effect.pure_apply, getEntry_run found, modifyEntry,
        modifyPlane_apply, Option.map_some, Option.getD_some]
      refine Or.inr ⟨e₀, _, e₀.prune spec, [], rfl, rfl, rfl, ?_, by simp [Logged]⟩
      refine ⟨?_, fun k differ => modifyEntry_get?_of_ne _ _ differ, modifyEntry_get?_self found _, ?_,
        ?_, fun owned => owned.prune _ _⟩
      · simp only [withPlane_plane]
        rw [modifyEntry_rest]
      · intro e same
        cases found.symm.trans same
        exact ⟨rfl, rfl⟩
      · intro absent
        rw [found] at absent
        cases absent
    | none =>
      have isNew : s.plane.services.contains (vipKeyString spec) = false := by
        rw [FMap.contains, found]
        rfl
      simp only [isNew, Bool.false_eq_true, if_false, Option.map_none, Option.getD_none]
      rcases createService_run (vipKeyString spec) env owned found with
        ⟨text, e, full, run⟩ | ⟨id, alloc, s', ws, allocated, run, plane, unused, logged, kinds⟩
      · rw [run]
        exact Or.inl ⟨_, rfl, Or.inr ⟨found, text, full⟩⟩
      · rw [run]
        have found' : s'.plane.services.get? (vipKeyString spec) = some (.new id) := by
          rw [plane]
          exact FMap.get?_insert_self _ _ _
        simp only [getEntry_run found', modifyEntry, modifyPlane_apply]
        refine Or.inr ⟨_, _, (ServiceEntry.new id).prune spec, ws, rfl, rfl, rfl, ?_, logged⟩
        refine ⟨?_, ?_, modifyEntry_get?_self found' _, ?_, ?_, ?_⟩
        · simp only [withPlane_plane]
          rw [modifyEntry_rest, plane]
        · intro k differ
          simp only [withPlane_plane]
          rw [modifyEntry_get?_of_ne _ _ differ, plane]
          exact FMap.get?_insert_of_ne _ _ differ
        · intro e same
          rw [found] at same
          cases same
        · exact fun _ => ⟨rfl, unused, kinds⟩
        · intro leak whole
          simp only [withPlane_plane]
          rw [plane]
          exact (whole.create found allocated).prune _ _

theorem applyProbe_spec (p : Dataplane) (key : String) (probe : ProbeSpec) :
    (p.applyProbe key probe = { p with backendStates := (p.applyProbe key probe).backendStates }) ∧
      ∀ j, ∃ f : BackendState → BackendState, (∀ st, f st = { st with probe := (f st).probe }) ∧
        (p.applyProbe key probe).backendStates.get? j = (p.backendStates.get? j).map f := by
  -- Over any list of IDs the fold changes probes only.
  have general : ∀ (ids : List Nat) (p : Dataplane),
      let q := ids.foldl (fun p id => p.modifyBackend id fun st => { st with probe := probe }) p
      (q = { p with backendStates := q.backendStates }) ∧
        ∀ j, ∃ f : BackendState → BackendState, (∀ st, f st = { st with probe := (f st).probe }) ∧
          q.backendStates.get? j = (p.backendStates.get? j).map f := by
    intro ids
    induction ids with
    | nil =>
      intro p
      refine ⟨rfl, fun j => ⟨fun st => st, fun _ => rfl, ?_⟩⟩
      simp only [List.foldl_nil, Option.map_id']
    | cons id rest ih =>
      intro p
      obtain ⟨later, states⟩ := ih (p.modifyBackend id fun st => { st with probe := probe })
      have first := modifyBackend_rest p id fun st => { st with probe := probe }
      refine ⟨?_, ?_⟩
      · rw [List.foldl_cons, later, first]
      · intro j
        obtain ⟨f, onlyProbe, same⟩ := states j
        rw [List.foldl_cons, same, modifyBackend_get?]
        by_cases here : j = id
        · refine ⟨fun st => f { st with probe := probe }, ?_, ?_⟩
          · exact fun st => onlyProbe { st with probe := probe }
          · rw [if_pos here, here, Option.map_map]
            rfl
        · exact ⟨f, onlyProbe, by rw [if_neg here]⟩
  unfold Dataplane.applyProbe
  split
  · refine ⟨rfl, fun j => ⟨fun st => st, fun _ => rfl, ?_⟩⟩
    rw [Option.map_id']
  · exact general _ p

theorem applyProbe_view {α : Type} {view : BackendState → α}
    (blind : ∀ st probe, view { st with probe := probe } = view st) (p : Dataplane) (key : String)
    (probe : ProbeSpec) (j : Nat) :
    ((p.applyProbe key probe).backendStates.get? j).map view = (p.backendStates.get? j).map view := by
  obtain ⟨f, onlyProbe, same⟩ := (applyProbe_spec p key probe).2 j
  rw [same, Option.map_map]
  congr 1
  funext st
  rw [Function.comp_apply, onlyProbe, blind]

section Settle

variable {leak : String → Nat} {key : String} {desired : FMap String Backend}

theorem Settling.probed {q : Dataplane} (owned : BackendsOwned leak q) (key' : String)
    (probe : ProbeSpec) : Settling leak key desired q (q.applyProbe key' probe) [] := by
  obtain ⟨rest, states⟩ := applyProbe_spec q key' probe
  have services : (q.applyProbe key' probe).services = q.services := by rw [rest]
  have alloc : (q.applyProbe key' probe).backendAlloc = q.backendAlloc := by rw [rest]
  have same : ∀ {k name id}, Lists (q.applyProbe key' probe) k name id ↔ Lists q k name id := by
    intro k name id
    unfold Lists
    rw [services]
  refine { rest := ?_, others := ?_, entry := ?_, kept := ?_, only := ?_, allocated := ?_,
           lineage := ?_, owned := ?_, writes := ?_, described := ?_ }
  · rw [rest]
  · intro k _
    rw [services]
  · intro e stored
    exact ⟨e.backendIDs, services ▸ stored⟩
  · exact fun lists _ => same.mpr lists
  · exact fun lists => Or.inl (same.mp lists)
  · intro name id _ used
    rw [alloc]
    exact used
  · intro j st' stored
    obtain ⟨f, onlyProbe, equal⟩ := states j
    rw [equal] at stored
    obtain ⟨st, before, after⟩ := Option.map_eq_some_iff.mp stored
    refine Or.inl ⟨st, before, ?_⟩
    rw [← after, onlyProbe]
    exact ⟨rfl, rfl, rfl, rfl, rfl⟩
  · refine owned.congr (fun k => by rw [services]) ?_ alloc
    exact fun j => applyProbe_view (fun _ _ => rfl) q key' probe j
  · intro w member
    cases member
  · intro m described
    exact described.congr same.mp

/-- How settling a VIP's backends can stop. -/
inductive SettleStopped (leak : String → Nat) (env : Env) (key : String)
    (desired : FMap String Backend) (s s' : World) : Prop
  | clean {ws : List MapWrite} (logged : Logged s s' ws)
    (settling : Settling leak key desired s.plane s'.plane ws)
    (reason : (∃ name b, desired.get? name = some b ∧ ¬ b.Describable) ∨ (∃ w, env.Fails w) ∨
      maxBackends < s.plane.backendAlloc.ids.size + desired.size)
  | leaking {name : String} {b : Backend} {ws : List MapWrite} (logged : Logged s s' ws)
    (settling : Settling (leakOne leak name) key desired s.plane s'.plane ws)
    (wanted : desired.get? name = some b) (isNew : ∀ id, ¬ Lists s.plane key name id)
    (reason : ¬ b.Describable ∨ ∃ w : MapWrite, env.Fails w ∧ w.AboutBackend)

theorem settleBackends_run (vip : VIP) (env : Env) {s : World} {entry : ServiceEntry}
    (owned : BackendsOwned leak s.plane) (found : s.plane.services.get? key = some entry) :
    (∃ changed s' ws, settleBackends key vip env s = (.ok changed, s') ∧
      (changed = false → ∀ name, (∃ id, Lists s.plane key name id) ↔
        (desiredBackends vip).contains name = true) ∧
      (∀ name, (desiredBackends vip).contains name = true ↔ ∃ id, Lists s'.plane key name id) ∧
      Logged s s' ws ∧ Settling leak key (desiredBackends vip) s.plane s'.plane ws ∧
      (env.Reliable → ∀ m, BackendImage s.plane m → BackendImage s'.plane (replay ws m))) ∨
    ∃ e s', settleBackends key vip env s = (.error e, s') ∧
      SettleStopped leak env key (desiredBackends vip) s s' := by
  obtain ⟨removed, s₁, ws₁, run₁, removedIff, lists₁, size₁, logged₁, settling₁, image₁⟩ :=
    releaseMissing_run env (desiredBackends vip) owned found
  obtain ⟨ids₁, found₁⟩ := settling₁.entry found
  unfold settleBackends
  simp only [Effect.bind_apply, run₁]
  rcases acquireDesired_run env settling₁.owned found₁
      (fun name b wanted => desiredBackends_name wanted)
      (fun name id lists => ((lists₁ name id).mp lists).2) with
    ⟨added, s₂, ws₂, run₂, addedIff, lists₂, logged₂, settling₂, image₂⟩ | ⟨e, s₂, run₂, stop⟩
  · rw [run₂]
    simp only [modifyPlane_apply, Effect.pure_apply]
    have probed := @Settling.probed leak key (desiredBackends vip) s₂.plane settling₂.owned key
      vip.healthCheck
    have whole := (settling₁.trans settling₂).trans probed
    rw [List.append_nil] at whole
    refine Or.inl ⟨_, _, ws₁ ++ ws₂, rfl, ?_, ?_, logged₁.trans logged₂, whole, ?_⟩
    · -- Without a removal every listed name is wanted, without an addition every wanted one listed.
      intro unchanged name
      simp only [Bool.or_eq_false_iff] at unchanged
      constructor
      · rintro ⟨id, lists⟩
        by_contra unwanted
        have : removed = true := removedIff.mpr ⟨name, id, lists, by simpa using unwanted⟩
        rw [unchanged.1] at this
        cases this
      · intro wanted
        by_contra unlisted
        have : added = true := addedIff.mpr ⟨name, wanted, fun id lists =>
          unlisted ⟨id, ((lists₁ name id).mp lists).1⟩⟩
        rw [unchanged.2] at this
        cases this
    · intro name
      rw [lists₂ name]
      constructor
      · rintro ⟨id, lists⟩
        exact ⟨id, probed.kept lists ((lists₂ name).mpr ⟨id, lists⟩)⟩
      · rintro ⟨id, lists⟩
        rcases probed.only lists with before | wanted
        · exact ⟨id, before⟩
        · exact (lists₂ name).mp wanted
    · intro reliable m image
      rw [replay_append]
      have after := image₂ reliable _ (image₁ reliable m image)
      exact after.congrView fun j => applyProbe_view (fun _ _ => rfl) _ _ _ j
  · rw [run₂]
    refine Or.inr ⟨e, s₂, rfl, ?_⟩
    cases stop with
    | clean logged₂ settling₂ reason =>
      refine .clean (logged₁.trans logged₂) (settling₁.trans settling₂) ?_
      rcases reason with bad | fails | full
      · exact Or.inl bad
      · exact Or.inr (Or.inl fails)
      · exact Or.inr (Or.inr (by omega))
    | @leaking name b ws₂ logged₂ settling₂ wanted isNew reason =>
      refine .leaking (logged₁.trans logged₂) (settling₁.trans settling₂) wanted ?_ reason
      intro id lists
      have contained : (desiredBackends vip).contains name = true := by
        rw [FMap.contains, wanted]
        rfl
      obtain ⟨e', stored, lists'⟩ := settling₁.kept lists contained
      cases found₁.symm.trans stored
      rw [isNew] at lists'
      cases lists'

end Settle

end Rivora

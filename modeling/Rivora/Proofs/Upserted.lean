import Rivora.Proofs.Upsert

/-! A successful upsert, in terms of the VIP it programs. -/

namespace Rivora

variable {p : Dataplane} {e : ServiceEntry} {leak : String → Nat} {spec : VIP}

/-- The backends of a VIP's table: its names in order, each with the weight the VIP gives it. -/
def vipMembers (vip : VIP) : List Maglev.Member :=
  ((desiredBackends vip).keys.insertionSort (· ≤ ·)).map fun name =>
    ⟨name, (((desiredBackends vip).get? name).map Backend.weight).getD 0⟩

/-- The forwarding parameters a VIP asks for, with the range it was given. -/
def programmedConfig (vip : VIP) (extent : Extent) : ServiceConfig where
  backendCount := (desiredBackends vip).size
  maglevOffset := extent.offset
  maglevSize := extent.size
  mode := modeByte vip.mode
  affinity := affinityByte vip.sessionAffinity
  range := vip.isRange

/-- A VIP's table, translated to the IDs its entry lists. -/
def ServiceEntry.slotIDs (e : ServiceEntry) (table : List Nat) : List Nat :=
  tableIDs e.backendIDs (vipMembers e.vip) table

theorem sortedKeys_congr {ν μ : Type} {a : FMap String ν} {b : FMap String μ}
    (same : ∀ name, name ∈ a.keys ↔ name ∈ b.keys) :
    a.keys.insertionSort (· ≤ ·) = b.keys.insertionSort (· ≤ ·) := by
  have perm : a.keys.Perm b.keys :=
    (List.perm_ext_iff_of_nodup a.keys_nodup b.keys_nodup).mpr same
  refine List.Perm.eq_of_pairwise' (r := (· ≤ ·)) (List.pairwise_insertionSort _ _)
    (List.pairwise_insertionSort _ _) ?_
  exact (List.perm_insertionSort _ _).trans (perm.trans (List.perm_insertionSort _ _).symm)

section Names

variable {ids : FMap String Nat} {vip : VIP}
  (names : ∀ name, (∃ id, ids.get? name = some id) ↔ (desiredBackends vip).contains name = true)

include names

theorem mem_keys_iff_desired (name : String) : name ∈ ids.keys ↔ name ∈ (desiredBackends vip).keys := by
  rw [FMap.mem_keys, names name, FMap.contains_iff]

/-- A table is built from the VIP's own backends. -/
theorem tableMembers_eq_vipMembers : tableMembers ids (desiredBackends vip) = vipMembers vip := by
  unfold tableMembers vipMembers
  rw [sortedKeys_congr (mem_keys_iff_desired names)]

theorem size_eq_desired : ids.size = (desiredBackends vip).size := by
  rw [← FMap.length_keys, ← FMap.length_keys]
  exact ((List.perm_ext_iff_of_nodup ids.keys_nodup (desiredBackends vip).keys_nodup).mpr
    (mem_keys_iff_desired names)).length_eq

end Names

/-- What a successful upsert did about the VIP's table. -/
inductive Tabled (spec : VIP) (p : Dataplane) (f : ServiceEntry) : List MapWrite → Prop
  /-- Rebuilt slot by slot in the range the VIP already had. -/
  | inPlace {e₀ : ServiceEntry} {table : List Nat}
    (existed : p.services.get? (vipKeyString spec) = some e₀) (extent : f.extent = e₀.extent)
    (sized : f.extent.size ∈ maglevSizeClasses)
    (fits : maglevClassFor (desiredBackends f.vip).size ≤ e₀.extent.size)
    (built : Maglev.buildTable f.extent.size (vipMembers f.vip) = .ok table) :
    Tabled spec p f (slotWrites f.extent (f.slotIDs table))
  /-- Built in a range that no VIP had. -/
  | moved {table : List Nat}
    (outgrown : ∀ e₀, p.services.get? (vipKeyString spec) = some e₀ →
      e₀.extent.size = 0 ∨ e₀.extent.size < maglevClassFor (desiredBackends f.vip).size)
    (size : f.extent.size = maglevClassFor (desiredBackends f.vip).size)
    (apart : ∀ k e, p.services.get? k = some e → ∀ slot ∈ e.extent.slots, slot ∉ f.extent.slots)
    (built : Maglev.buildTable f.extent.size (vipMembers f.vip) = .ok table) :
    Tabled spec p f (slotWrites f.extent (f.slotIDs table))
  /-- Left alone, because neither the backends nor their weights changed. -/
  | kept {e₀ : ServiceEntry} (existed : p.services.get? (vipKeyString spec) = some e₀)
    (extent : f.extent = e₀.extent)
    (sameIDs : ∀ name, f.backendIDs.get? name = e₀.backendIDs.get? name)
    (sameWeights : weightsChanged e₀.vip (desiredBackends f.vip) = false) : Tabled spec p f []

/-- A successful upsert, from one control state to another, with its writes stage by stage. -/
structure Upserted (leak : String → Nat) (env : Env) (spec : VIP) (p q : Dataplane)
    (f : ServiceEntry) (ip : IP) (ws ws' : List MapWrite) : Prop where
  rest : q = { p with
    services := q.services, serviceAlloc := q.serviceAlloc, backendStates := q.backendStates
    backendAlloc := q.backendAlloc, maglevAlloc := q.maglevAlloc, unclaimed := q.unclaimed }
  others : ∀ k, k ≠ vipKeyString spec → q.services.get? k = p.services.get? k
  entry : q.services.get? (vipKeyString spec) = some f
  vipSpec : f.vipSpec = spec
  vip : f.vip = p.effective spec
  overrides : f.weightOverrides = pruneOverrides spec (p.overrides (vipKeyString spec))
  known : ∀ {e₀}, p.services.get? (vipKeyString spec) = some e₀ → f.serviceID = e₀.serviceID
  fresh : p.services.get? (vipKeyString spec) = none →
    ∀ k e, p.services.get? k = some e → e.serviceID ≠ f.serviceID
  names : ∀ name, (∃ id, f.backendIDs.get? name = some id) ↔
    (desiredBackends f.vip).contains name = true
  kept : ∀ {name id}, Lists p (vipKeyString spec) name id →
    (desiredBackends f.vip).contains name = true → f.backendIDs.get? name = some id
  allocated : ∀ {name id}, (desiredBackends f.vip).contains name = true →
    p.backendAlloc.ids.get? name = some id → q.backendAlloc.ids.get? name = some id
  lineage : ∀ {id st'}, q.backendStates.get? id = some st' →
    (∃ st, p.backendStates.get? id = some st ∧ st'.Continues st) ∨
      (p.backendAlloc.ids.get? st'.name = none ∧ (desiredBackends f.vip).contains st'.name = true ∧
        st'.Unmarked)
  owned : Owned leak q
  inside : ∀ slot ∈ f.extent.slots, slot < maglevM
  able : f.vip.Programmable p ip
  settle : ∀ w ∈ ws, (w = .resetDropStats f.serviceID ∧ p.services.get? (vipKeyString spec) = none) ∨
    Touch (vipKeyString spec) (desiredBackends f.vip) p q w
  described : ∀ m, Described p m → Described q (replay ws m)
  image : env.Reliable → ∀ m, BackendImage p m → BackendImage q (replay ws m)
  table : Tabled spec p f ws'

/-- The writes of a successful upsert, in order. -/
def upsertWrites (p : Dataplane) (f : ServiceEntry) (ip : IP) (ws ws' : List MapWrite) :
    List MapWrite :=
  ws ++ (ws' ++ .setServiceConfig f.serviceID (programmedConfig f.vip f.extent) ::
    (limitWrites p f.serviceID f.vip.rateLimit ++ vipWrites f.vip ip f.serviceID))

theorem commit_entry {key : String}
    (found : p.services.get? key = some e) (spec vip : VIP) :
    (p.commit key spec vip).services.get? key = some (e.record spec vip) :=
  modifyEntry_get?_self found _

/-- Recording a spec keeps the books. -/
theorem Owned.commit (owned : Owned leak p) (key : String)
    (spec vip : VIP) : Owned leak (p.commit key spec vip) := by
  obtain ⟨backends, services, tiled, sized⟩ :=
    owned.modifyEntry key (f := ServiceEntry.record spec vip) (fun _ => rfl) (fun _ => rfl) fun _ => rfl
  exact ⟨backends.congr (fun _ => rfl) (fun _ => rfl) rfl, services.congr (fun _ => rfl) rfl,
    tiled.congr (fun _ => rfl) rfl, sized⟩

theorem Built.rest {t u : World} {e' : ServiceEntry}
    {ws' : List MapWrite} (built : Built spec p t u e e' ws') :
    u.plane = { t.plane with services := u.plane.services, maglevAlloc := u.plane.maglevAlloc } ∧
      (∀ k, k ≠ vipKeyString spec → u.plane.services.get? k = t.plane.services.get? k) ∧
      e' = { e with extent := e'.extent } := by
  cases built with
  | rebuilt _ _ rebuilt moved =>
    rw [moved]
    exact ⟨rebuilt.rest, rebuilt.others, rfl⟩
  | kept _ _ _ world same =>
    rw [world, same]
    exact ⟨rfl, fun _ _ => rfl, rfl⟩

theorem Touch.congr {key : String} {desired : FMap String Backend} {q q' : Dataplane}
    {w : MapWrite} (touch : Touch key desired p q w) (alloc : q'.backendAlloc = q.backendAlloc) :
    Touch key desired p q' w := by
  cases touch with
  | delete freed isV4 => exact .delete freed isV4
  | down freed => exact .down freed
  | describe wanted used parsed mac => exact .describe wanted (alloc ▸ used) parsed mac
  | health wanted used value => exact .health wanted (alloc ▸ used) value

theorem Built.tabled {env : Env} {t u : World}
    {e' : ServiceEntry} {ws ws' : List MapWrite} (built : Built spec p t u e e' ws')
    (settled : SettledFully leak env spec p t.plane e ws)
    (names : ∀ name, (∃ id, e'.backendIDs.get? name = some id) ↔
      (desiredBackends (p.effective spec)).contains name = true) :
    Tabled spec p (e'.record spec (p.effective spec)) ws' := by
  have known : ∀ e₀, p.services.get? (vipKeyString spec) = some e₀ → e.extent = e₀.extent := by
    intro e₀ before
    rw [settled.known before]
    rfl
  cases built with
  | @rebuilt target table aim table_built rebuilt moved =>
    have ids : e'.backendIDs = e.backendIDs := by
      rw [moved]
      rfl
    have members : e.members (p.wanted spec) = vipMembers (p.effective spec) :=
      tableMembers_eq_vipMembers (ids ▸ names)
    have count : e.backendIDs.size = (desiredBackends (p.effective spec)).size :=
      size_eq_desired (ids ▸ names)
    have writes : e.tableWrites (p.wanted spec) target table =
        slotWrites target ((e'.record spec (p.effective spec)).slotIDs table) := by
      unfold ServiceEntry.tableWrites ServiceEntry.slotIDs
      rw [members, ← ids]
      rfl
    have range : (e'.record spec (p.effective spec)).extent = target := by
      rw [moved]
      rfl
    rw [writes]
    rw [members] at table_built
    rw [← range] at table_built ⊢
    by_cases outgrown : e.Outgrown
    · refine .moved ?_ ?_ ?_ table_built
      · intro e₀ before
        rw [← known e₀ before]
        rcases outgrown with none | small
        · exact Or.inl none
        · exact Or.inr (count ▸ small)
      · rw [range, aim.size, ServiceEntry.rebuildSize, if_pos outgrown, count]
        rfl
      · intro k e₀ stored slot mine
        rw [range]
        -- The VIP's own earlier range is recorded in its settled entry.
        by_cases here : k = vipKeyString spec
        · subst here
          exact aim.moved outgrown _ e settled.entry slot (known e₀ stored ▸ mine)
        · exact aim.moved outgrown k e₀ ((settled.others k here).trans stored) slot mine
    · have same : target = e.extent := aim.inPlace outgrown
      obtain ⟨some_range, large⟩ := not_or.mp outgrown
      cases before : p.services.get? (vipKeyString spec) with
      | none =>
        -- A new VIP has no range yet, so its table cannot be built in place.
        rw [(settled.fresh before).1] at some_range
        exact absurd rfl some_range
      | some e₀ =>
        refine .inPlace before (range.trans (same.trans (known e₀ before))) (range ▸ aim.listed) ?_
          table_built
        rw [← known e₀ before]
        exact Nat.le_of_not_lt (count ▸ large)
  | @kept e₀ existed sameNames sameWeights world same =>
    subst same
    refine .kept existed (known e₀ existed) ?_ sameWeights
    intro name
    cases wanted : (desiredBackends (p.effective spec)).contains name with
    | true =>
      obtain ⟨id, listed⟩ := (sameNames name).mpr wanted
      obtain ⟨e₁, before, named⟩ := listed
      cases existed.symm.trans before
      obtain ⟨e₂, after, named'⟩ := settled.kept ⟨e₀, existed, named⟩ wanted
      cases settled.entry.symm.trans after
      exact named'.trans named.symm
    | false =>
      -- Neither list has the name.
      have absent : ∀ id, e₀.backendIDs.get? name ≠ some id := by
        intro id named
        exact Bool.false_ne_true (wanted.symm.trans ((sameNames name).mp ⟨id, e₀, existed, named⟩))
      have absent' : ∀ id, e'.backendIDs.get? name ≠ some id := by
        intro id named
        exact Bool.false_ne_true (wanted.symm.trans ((names name).mp ⟨id, named⟩))
      exact (Option.eq_none_iff_forall_ne_some.mpr absent').trans
        (Option.eq_none_iff_forall_ne_some.mpr absent).symm

/-- Every successful upsert is one as described above. -/
theorem upsertVIP_ok {env : Env} {s s' : World}
    (owned : Owned leak s.plane) (run : upsertVIP spec env s = (.ok (), s')) :
    ∃ f ip ws ws', Upserted leak env spec s.plane s'.plane f ip ws ws' ∧
      Logged s s' (upsertWrites s.plane f ip ws ws') := by
  have ends := upsertVIP_run spec env owned
  rw [run] at ends
  cases ends with
  | @done t u _ e e' ip ws ws' settled logged built logged' able logged'' plane =>
    obtain ⟨rest, others, shape⟩ := built.rest
    have entry := built.entry settled
    have dp : u.plane.dp = s.plane.dp := by rw [rest, settled.rest]
    have cpus : u.plane.numCPU = s.plane.numCPU := by rw [rest, settled.rest]
    have ids : e'.backendIDs = e.backendIDs := by rw [shape]
    have names : ∀ name, (∃ id, e'.backendIDs.get? name = some id) ↔
        (desiredBackends (s.plane.effective spec)).contains name = true := by
      intro name
      rw [ids]
      exact (settled.names name).symm
    let f := e'.record spec (s.plane.effective spec)
    refine ⟨f, ip, ws, ws', ?_, ?_⟩
    · have states : s'.plane.backendStates = t.plane.backendStates := by
        rw [plane, Dataplane.commit, Dataplane.claim, modifyEntry_rest, rest]
      have alloc : s'.plane.backendAlloc = t.plane.backendAlloc := by
        rw [plane, Dataplane.commit, Dataplane.claim, modifyEntry_rest, rest]
      have stay : ∀ k, k ≠ vipKeyString spec → s'.plane.services.get? k = t.plane.services.get? k := by
        intro k differ
        rw [plane, ← others k differ]
        exact modifyEntry_get?_of_ne _ _ differ
      have mine : s'.plane.services.get? (vipKeyString spec) = some f := by
        rw [plane]
        exact commit_entry entry _ _
      have lists : ∀ {k name id}, Lists s'.plane k name id ↔ Lists t.plane k name id := by
        intro k name id
        by_cases here : k = vipKeyString spec
        · rw [here]
          unfold Lists
          rw [mine, settled.entry]
          simp only [Option.some.injEq, exists_eq_left']
          rw [← ids]
          rfl
        · unfold Lists
          rw [stay k here]
      have sameID : f.serviceID = e.serviceID := by
        rw [← show e'.serviceID = e.serviceID by rw [shape]]
        rfl
      have owned' : Owned leak s'.plane := by
        rw [plane]
        exact (built.owned settled).commit _ _ _
      refine { rest := ?_, others := fun k differ => (stay k differ).trans (settled.others k differ),
               entry := mine, vipSpec := rfl, vip := rfl, overrides := ?_, known := ?_, fresh := ?_,
               names := names, kept := ?_, allocated := ?_, lineage := ?_, owned := owned', inside := ?_,
               able := ?_, settle := ?_, described := ?_, image := ?_, table := ?_ }
      · rw [plane, Dataplane.commit, Dataplane.claim, modifyEntry_rest, rest, settled.rest]
      · have carried : f.weightOverrides = e.weightOverrides := by
          rw [← show e'.weightOverrides = e.weightOverrides by rw [shape]]
          rfl
        rw [carried]
        unfold Dataplane.overrides
        cases before : s.plane.services.get? (vipKeyString spec) with
        | none =>
          rw [(settled.fresh before).1]
          rfl
        | some e₀ =>
          rw [settled.known before]
          rfl
      · intro e₀ before
        rw [sameID, settled.known before]
        rfl
      · intro absent k e₀ stored
        rw [sameID]
        exact (settled.fresh absent).2 k e₀ stored
      · intro name id listed wanted
        obtain ⟨e'', stored, named⟩ := settled.kept listed wanted
        cases settled.entry.symm.trans stored
        rw [← named, ← ids]
        rfl
      · intro name id wanted used
        rw [alloc]
        exact settled.allocated wanted used
      · intro id st' stored
        rw [states] at stored
        exact settled.lineage stored
      · exact fun slot member => owned'.tiled.slot_lt mine member
      · exact able.congr dp.symm
      · intro w member
        rw [sameID]
        rcases settled.writes w member with drops | touch
        · exact Or.inl drops
        · exact Or.inr (touch.congr alloc)
      · intro m described
        exact (settled.described m described).congr lists.mp
      · intro reliable m image
        exact (settled.image reliable m image).congr states
      · exact built.tabled settled names
    · have config : configWrite e' (s.plane.effective spec) =
          .setServiceConfig f.serviceID (programmedConfig f.vip f.extent) := by
        unfold configWrite serviceConfigOf programmedConfig
        rw [size_eq_desired names]
        rfl
      have keys : keyWrites u.plane e' (s.plane.effective spec) ip =
          limitWrites s.plane f.serviceID f.vip.rateLimit ++ vipWrites f.vip ip f.serviceID := by
        rw [keyWrites, limitWrites_congr dp cpus]
        rfl
      rw [config, keys] at logged''
      exact logged.trans (logged'.trans logged'')

end Rivora

import Rivora.Proofs.Prepare

/-! Everything an upsert can do, whatever fails. -/

namespace Rivora

variable {spec : VIP} {p q : Dataplane} {e : ServiceEntry} {ws : List MapWrite} {leak : String → Nat}

/-- A VIP's backends have been settled, in full or until a stop, relative to where the upsert began. -/
structure Arranged (leak : String → Nat) (spec : VIP) (p q : Dataplane) (e : ServiceEntry)
    (ws : List MapWrite) : Prop where
  rest : q = { p with
    services := q.services, serviceAlloc := q.serviceAlloc, backendStates := q.backendStates,
    backendAlloc := q.backendAlloc }
  others : ∀ k, k ≠ vipKeyString spec → q.services.get? k = p.services.get? k
  entry : q.services.get? (vipKeyString spec) = some e
  known : ∀ {e₀}, p.services.get? (vipKeyString spec) = some e₀ →
    e = { e₀.prune spec with backendIDs := e.backendIDs }
  fresh : p.services.get? (vipKeyString spec) = none →
    e = { (ServiceEntry.new e.serviceID).prune spec with backendIDs := e.backendIDs } ∧
      ∀ k e', p.services.get? k = some e' → e'.serviceID ≠ e.serviceID
  kept : ∀ {name id}, Lists p (vipKeyString spec) name id → (p.wanted spec).contains name = true →
    Lists q (vipKeyString spec) name id
  only : ∀ {name id}, Lists q (vipKeyString spec) name id →
    Lists p (vipKeyString spec) name id ∨ (p.wanted spec).contains name = true
  allocated : ∀ {name id}, (p.wanted spec).contains name = true →
    p.backendAlloc.ids.get? name = some id → q.backendAlloc.ids.get? name = some id
  lineage : ∀ {id st'}, q.backendStates.get? id = some st' →
    (∃ st, p.backendStates.get? id = some st ∧ st'.Continues st) ∨
      (p.backendAlloc.ids.get? st'.name = none ∧ (p.wanted spec).contains st'.name = true ∧
        st'.Unmarked)
  owned : Owned leak q
  writes : ∀ w ∈ ws, (w = .resetDropStats e.serviceID ∧ p.services.get? (vipKeyString spec) = none) ∨
    Touch (vipKeyString spec) (p.wanted spec) p q w
  described : ∀ m, Described p m → Described q (replay ws m)

theorem Entered.lists (entered : Entered spec p q e ws) {k name : String} {id : Nat} :
    Lists q k name id ↔ Lists p k name id := by
  by_cases same : k = vipKeyString spec
  · subst same
    unfold Lists
    rw [entered.entry]
    cases before : p.services.get? (vipKeyString spec) with
    | none =>
      obtain ⟨isNew, _⟩ := entered.fresh before
      constructor
      · rintro ⟨e', stored, lists⟩
        cases stored
        rw [isNew] at lists
        cases lists
      · rintro ⟨e', stored, _⟩
        cases stored
    | some e₀ =>
      obtain ⟨pruned, _⟩ := entered.known before
      constructor
      · rintro ⟨e', stored, lists⟩
        cases stored
        rw [pruned] at lists
        exact ⟨e₀, rfl, lists⟩
      · rintro ⟨e', stored, lists⟩
        cases stored
        exact ⟨e, rfl, by rw [pruned]; exact lists⟩
  · unfold Lists
    rw [entered.others k same]

theorem Settling.ownedAll {leak₀ : String → Nat} {key : String} {desired : FMap String Backend}
    (settling : Settling leak key desired p q ws)
    (owned : Owned leak₀ p) (found : p.services.get? key = some e) :
    Owned leak q := by
  obtain ⟨ids, found'⟩ := settling.entry found
  -- Entry by entry, service IDs and ranges are what they were.
  have same : ∀ {α : Type} (view : ServiceEntry → α),
      (∀ e ids, view { e with backendIDs := ids } = view e) →
      ∀ k, (q.services.get? k).map view = (p.services.get? k).map view := by
    intro α view blind k
    by_cases this : k = key
    · subst this
      rw [found, found', Option.map_some, Option.map_some, blind]
    · rw [settling.others k this]
  refine ⟨settling.owned, owned.services.congr (same _ fun _ _ => rfl) (by rw [settling.rest]),
    owned.tiled.congr (same _ fun _ _ => rfl) (by rw [settling.rest]), ?_⟩
  intro k entry stored
  have view := same ServiceEntry.extent (fun _ _ => rfl) k
  rw [stored, Option.map_some] at view
  obtain ⟨entry₀, before, extent⟩ := Option.map_eq_some_iff.mp view.symm
  rw [← extent]
  exact owned.sized before

theorem Entered.arrange {leak₀ : String → Nat} {p₀ : Dataplane}
    {e₀ : ServiceEntry} {ws₀ ws₁ : List MapWrite} (entered : Entered spec p p₀ e₀ ws₀)
    (owned : Owned leak₀ p)
    (settling : Settling leak (vipKeyString spec) (p.wanted spec) p₀ q ws₁) :
    ∃ e, Arranged leak spec p q e (ws₀ ++ ws₁) ∧ e = { e₀ with backendIDs := e.backendIDs } := by
  obtain ⟨ids, found⟩ := settling.entry entered.entry
  have ids₀ : p₀.backendAlloc = p.backendAlloc := by rw [entered.rest]
  have states₀ : p₀.backendStates = p.backendStates := by rw [entered.rest]
  refine ⟨_, { rest := ?_, others := ?_, entry := found, known := ?_, fresh := ?_, kept := ?_,
               only := ?_, allocated := ?_, lineage := ?_, writes := ?_, described := ?_,
               owned := settling.ownedAll (entered.keeps owned) entered.entry }, rfl⟩
  · rw [settling.rest, entered.rest]
  · intro k differ
    exact (settling.others k differ).trans (entered.others k differ)
  · intro e before
    rw [(entered.known before).1]
  · intro absent
    obtain ⟨isNew, unused, _⟩ := entered.fresh absent
    exact ⟨by rw [isNew]; rfl, unused⟩
  · exact fun lists wanted => settling.kept (entered.lists.mpr lists) wanted
  · intro name id lists
    rcases settling.only lists with before | wanted
    · exact Or.inl (entered.lists.mp before)
    · exact Or.inr wanted
  · intro name id wanted used
    exact settling.allocated wanted (ids₀ ▸ used)
  · intro id st' stored
    rw [← ids₀, ← states₀]
    exact settling.lineage stored
  · intro w member
    rcases List.mem_append.mp member with early | late
    · left
      cases before : p.services.get? (vipKeyString spec) with
      | none => exact ⟨(entered.fresh before).2.2 w early, rfl⟩
      | some e =>
        rw [(entered.known before).2] at early
        cases early
    · right
      -- A backend freed was the VIP's alone before its entry was found, too.
      cases settling.writes w late with
      | delete freed isV4 =>
        exact .delete ⟨entered.lists.mp freed.lists, freed.unwanted,
          fun k differ j lists => freed.sole k differ j (entered.lists.mpr lists)⟩ isV4
      | down freed =>
        exact .down ⟨entered.lists.mp freed.lists, freed.unwanted,
          fun k differ j lists => freed.sole k differ j (entered.lists.mpr lists)⟩
      | describe wanted used parsed mac => exact .describe wanted used parsed mac
      | health wanted used value => exact .health wanted used value
  · intro m described
    rw [replay_append]
    refine settling.described _ ?_
    have start : Described p₀ m := described.congr entered.lists.mp
    refine replay_preserves ?_ start
    intro w early m' described'
    cases before : p.services.get? (vipKeyString spec) with
    | none =>
      rw [(entered.fresh before).2.2 w early]
      exact fun _ _ _ lists => described' lists
    | some e =>
      rw [(entered.known before).2] at early
      cases early

/-- The table of a settled VIP: rebuilt, or left alone because nothing it depends on changed. -/
inductive Built (spec : VIP) (p : Dataplane) (t u : World) (e e' : ServiceEntry) :
    List MapWrite → Prop
  | rebuilt {target : Extent} {table : List Nat} (aim : RebuildTarget t.plane e target)
    (built : Maglev.buildTable target.size (e.members (p.wanted spec)) = .ok table)
    (rebuilt : Rebuilt (vipKeyString spec) e target t.plane u.plane) (moved : e' = e.moveTo target) :
    Built spec p t u e e' (e.tableWrites (p.wanted spec) target table)
  | kept {e₀ : ServiceEntry} (existed : p.services.get? (vipKeyString spec) = some e₀)
    (sameNames : ∀ name, (∃ id, Lists p (vipKeyString spec) name id) ↔
      (p.wanted spec).contains name = true)
    (sameWeights : weightsChanged e₀.vip (p.wanted spec) = false) (world : u = t) (same : e' = e) :
    Built spec p t u e e' []

/-- Settled in full: the VIP lists exactly the wanted backends. -/
structure SettledFully (leak : String → Nat) (env : Env) (spec : VIP) (p q : Dataplane)
    (e : ServiceEntry) (ws : List MapWrite) : Prop extends Arranged leak spec p q e ws where
  names : ∀ name, (p.wanted spec).contains name = true ↔ ∃ id, e.backendIDs.get? name = some id
  image : env.Reliable → ∀ m, BackendImage p m → BackendImage q (replay ws m)

/-- Why settling stopped, and which reference it may have left behind. -/
inductive UnsettledReason (leak : String → Nat) (env : Env) (spec : VIP) (p : Dataplane) :
    (String → Nat) → Prop
  | clean (reason : (∃ name b, (p.wanted spec).get? name = some b ∧ ¬ b.Describable) ∨
      (∃ w, env.Fails w) ∨ maxBackends < p.backendAlloc.ids.size + (p.wanted spec).size) :
    UnsettledReason leak env spec p leak
  | leaking {name : String} {b : Backend} (wanted : (p.wanted spec).get? name = some b)
    (isNew : ∀ id, ¬ Lists p (vipKeyString spec) name id)
    (reason : ¬ b.Describable ∨ ∃ w : MapWrite, env.Fails w ∧ w.AboutBackend) :
    UnsettledReason leak env spec p (leakOne leak name)

/-- How an upsert can end, stage by stage. -/
inductive UpsertEnds (leak : String → Nat) (env : Env) (spec : VIP) (s : World) :
    Except GoError Unit × World → Prop
  | refused {err : GoError} (reason : EnterRefused spec s.plane) :
    UpsertEnds leak env spec s (.error err, s)
  | unsettled {err : GoError} {s' : World} {e : ServiceEntry} {ws : List MapWrite}
    {leak' : String → Nat} (arranged : Arranged leak' spec s.plane s'.plane e ws)
    (logged : Logged s s' ws) (reason : UnsettledReason leak env spec s.plane leak') :
    UpsertEnds leak env spec s (.error err, s')
  | unbuilt {err : GoError} {t s' : World} {e : ServiceEntry} {ws : List MapWrite}
    (settled : SettledFully leak env spec s.plane t.plane e ws) (logged : Logged s t ws)
    (rest : s'.plane = { t.plane with maglevAlloc := s'.plane.maglevAlloc })
    (tiled : Tiled [] s'.plane) (stop : RebuildStopped env (s.plane.wanted spec) e t s') :
    UpsertEnds leak env spec s (.error err, s')
  | unprogrammed {err : GoError} {t u s' : World} {e e' : ServiceEntry} {ws ws' : List MapWrite}
    (settled : SettledFully leak env spec s.plane t.plane e ws) (logged : Logged s t ws)
    (built : Built spec s.plane t u e e' ws') (logged' : Logged t u ws')
    (plane : s'.plane = u.plane)
    (stop : ProgramStopped env e' (s.plane.effective spec) u s') :
    UpsertEnds leak env spec s (.error err, s')
  | done {t u s' : World} {e e' : ServiceEntry} {ip : IP} {ws ws' : List MapWrite}
    (settled : SettledFully leak env spec s.plane t.plane e ws) (logged : Logged s t ws)
    (built : Built spec s.plane t u e e' ws') (logged' : Logged t u ws')
    (able : (s.plane.effective spec).Programmable u.plane ip)
    (logged'' : Logged u s' (configWrite e' (s.plane.effective spec) ::
      keyWrites u.plane e' (s.plane.effective spec) ip))
    (plane : s'.plane = u.plane.commit (vipKeyString spec) spec (s.plane.effective spec)) :
    UpsertEnds leak env spec s (.ok (), s')

theorem Built.entry {env : Env} {t u : World}
    {e' : ServiceEntry} {ws' : List MapWrite}
    (built : Built spec p t u e e' ws') (settled : SettledFully leak env spec p t.plane e ws) :
    u.plane.services.get? (vipKeyString spec) = some e' := by
  cases built with
  | rebuilt aim _ rebuilt moved =>
    rw [rebuilt.entry, moved]
    rfl
  | kept _ _ _ world same =>
    rw [world, same]
    exact settled.entry

theorem Built.owned {env : Env} {t u : World}
    {e' : ServiceEntry} {ws' : List MapWrite} (built : Built spec p t u e e' ws')
    (settled : SettledFully leak env spec p t.plane e ws) : Owned leak u.plane := by
  cases built with
  | @rebuilt target table aim _ rebuilt moved =>
    have same : ∀ {α : Type} (view : ServiceEntry → α),
        (∀ e target, view (ServiceEntry.moveTo target e) = view e) →
        ∀ k, (u.plane.services.get? k).map view = (t.plane.services.get? k).map view := by
      intro α view blind k
      by_cases this : k = vipKeyString spec
      · subst this
        rw [rebuilt.entry, settled.entry, Option.map_some, Option.map_some]
        exact congrArg some (blind e target)
      · rw [rebuilt.others k this]
    refine ⟨?_, ?_, rebuilt.tiled, ?_⟩
    · exact settled.owned.backends.congr (same _ fun _ _ => rfl) (by rw [rebuilt.rest]; exact fun _ => rfl)
        (by rw [rebuilt.rest])
    · exact settled.owned.services.congr (same _ fun _ _ => rfl) (by rw [rebuilt.rest])
    · intro k entry stored
      by_cases this : k = vipKeyString spec
      · subst this
        cases rebuilt.entry.symm.trans stored
        exact Or.inr aim.listed
      · rw [rebuilt.others k this] at stored
        exact settled.owned.sized stored
  | kept _ _ _ world _ =>
    rw [world]
    exact settled.owned

/-- An upsert ends in one of the ways above, in whatever environment. -/
theorem upsertVIP_run (spec : VIP) (env : Env) {s : World}
    (owned : Owned leak s.plane) : UpsertEnds leak env spec s (upsertVIP spec env s) := by
  unfold upsertVIP
  simp only [Effect.bind_apply, getPlane_apply]
  rcases enterService_run spec env owned.services with
    ⟨err, run₀, reason⟩ | ⟨held, s₀, e₀, ws₀, run₀, overrides, programmed, entered, logged₀⟩
  · rw [run₀]
    exact .refused reason
  rw [run₀]
  dsimp only
  have effective : spec.overrideWeights held.weightOverrides = s.plane.effective spec := by
    rw [overrides]
    rfl
  rw [effective]
  have owned₀ := entered.keeps owned
  rcases settleBackends_run (s.plane.effective spec) env owned₀.backends entered.entry with
    ⟨changed, t, ws₁, run₁, unchanged, names, logged₁, settling, image⟩ | ⟨err, t, run₁, stop⟩
  · rw [run₁]
    dsimp only
    obtain ⟨e, arranged, eShape⟩ := entered.arrange owned settling
    have settled : SettledFully leak env spec s.plane t.plane e (ws₀ ++ ws₁) := by
      refine { arranged with names := ?_, image := ?_ }
      · intro name
        refine (names name).trans ?_
        constructor
        · rintro ⟨id, e'', stored, lists⟩
          cases arranged.entry.symm.trans stored
          exact ⟨id, lists⟩
        · rintro ⟨id, lists⟩
          exact ⟨id, e, arranged.entry, lists⟩
      · intro reliable m image₀
        rw [replay_append]
        have states₀ : s₀.plane.backendStates = s.plane.backendStates := by rw [entered.rest]
        refine image reliable _ (BackendImage.congr ?_ states₀)
        refine replay_preserves ?_ image₀
        intro w early m' image'
        cases before : s.plane.services.get? (vipKeyString spec) with
        | none =>
          rw [(entered.fresh before).2.2 w early]
          exact ⟨image'.described, image'.only, image'.health⟩
        | some e'' =>
          rw [(entered.known before).2] at early
          cases early
    have logged : Logged s t (ws₀ ++ ws₁) := logged₀.trans logged₁
    -- The table: rebuilt where something changed, else the entry existed and nothing did.
    have table : (∃ u e' ws', rebuildIfNeeded (vipKeyString spec) (s.plane.effective spec) held.vip
          changed (s.plane.services.contains (vipKeyString spec)) env t = (.ok (), u) ∧
          Built spec s.plane t u e e' ws' ∧ Logged t u ws') ∨
        ∃ err u, rebuildIfNeeded (vipKeyString spec) (s.plane.effective spec) held.vip
          changed (s.plane.services.contains (vipKeyString spec)) env t = (.error err, u) ∧
          u.plane = { t.plane with maglevAlloc := u.plane.maglevAlloc } ∧ Tiled [] u.plane ∧
          RebuildStopped env (s.plane.wanted spec) e t u := by
      unfold rebuildIfNeeded
      split
      · rcases rebuildMaglev_run arranged.owned.tiled arranged.entry
            (arranged.owned.sized arranged.entry) (s.plane.wanted spec) env with
          ⟨target, tbl, u, run, aim, built, logged', rebuilt⟩ | ⟨err, u, run, rest, tiled, stop⟩
        · refine Or.inl ⟨u, e.moveTo target, _, Effect.mapError_eq_ok.mpr run,
            .rebuilt aim built rebuilt rfl, logged'⟩
        · exact Or.inr ⟨_, u, Effect.mapError_of_error run, rest, tiled, stop⟩
      · rename_i nothing
        simp only [Bool.or_eq_true, Bool.not_eq_true', not_or, Bool.not_eq_true,
          Bool.not_eq_false] at nothing
        obtain ⟨⟨noSet, noWeight⟩, existed⟩ := nothing
        obtain ⟨eOld, before⟩ := Option.isSome_iff_exists.mp existed
        refine Or.inl ⟨t, e, [], rfl, .kept before ?_ ?_ rfl rfl, by simp [Logged]⟩
        · intro name
          refine Iff.trans ?_ (unchanged noSet name)
          simp only [entered.lists]
        · rw [programmed, Dataplane.programmed, before] at noWeight
          exact noWeight
    rcases table with ⟨u, e', ws', run₂, built, logged'⟩ | ⟨err, u, run₂, rest, tiled, stop⟩
    · rw [run₂]
      dsimp only
      have entry' := built.entry settled
      have inside : e'.serviceID < maxVIPs := (built.owned settled).services.id_lt entry'
      rcases programService_run entry' inside (s.plane.effective spec) env with
        ⟨ip, v, run₃, able, plane, logged''⟩ | ⟨err, v, run₃, plane, stop⟩
      · rw [run₃]
        simp only [modifyPlane_apply]
        refine .done settled logged built logged' able ?_ ?_
        · exact logged''
        · rw [withPlane_plane, plane]
      · rw [run₃]
        exact .unprogrammed settled logged built logged' plane stop
    · rw [run₂]
      exact .unbuilt settled logged rest tiled stop
  · rw [run₁]
    cases stop with
    | @clean ws₁ logged₁ settling reason =>
      obtain ⟨e, arranged, _⟩ := entered.arrange owned settling
      refine .unsettled arranged (logged₀.trans logged₁) (.clean ?_)
      have ids₀ : s₀.plane.backendAlloc = s.plane.backendAlloc := by rw [entered.rest]
      rw [ids₀] at reason
      exact reason
    | @leaking name b ws₁ logged₁ settling wanted isNew reason =>
      obtain ⟨e, arranged, _⟩ := entered.arrange owned settling
      refine .unsettled arranged (logged₀.trans logged₁) (.leaking wanted ?_ reason)
      exact fun id lists => isNew id (entered.lists.mpr lists)

end Rivora

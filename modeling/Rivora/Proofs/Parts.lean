import Rivora.Dataplane.Ops
import Rivora.Proofs.Remove
import Rivora.Proofs.Upsert

/-! Every operation of the control plane as a sequence of parts. -/

namespace Rivora

variable {s s' : World} {leak : String → Nat}

/-- The marks the health entry of a backend is computed from. -/
inductive Mark where
  | probe
  | drain
  | adminDrain
  deriving DecidableEq, Repr

/-- A backend's state with one mark set. -/
def BackendState.mark (st : BackendState) (value : Bool) : Mark → BackendState
  | .probe => { st with probeHealthy := value }
  | .drain => { st with draining := value }
  | .adminDrain => { st with adminDraining := value }

/-- Set a mark of a backend and write its health entry; nothing to do for an unknown backend. -/
def setMark (kind : Mark) (id : Nat) (value : Bool) : M Unit := do
  let p ← getPlane
  match p.backendStates.get? id with
  | none => pure ()
  | some _ => do
    modifyPlane fun p => p.modifyBackend id fun st => st.mark value kind
    writeHealth id

/-- One change that concerns one VIP, or one backend. -/
inductive Part where
  | upsert (spec : VIP)
  | remove (key : String)
  | reweigh (key name : String) (weight : Nat)
  | mark (kind : Mark) (id : Nat) (value : Bool)

/-- Run one part. -/
def Part.run : Part → M Unit
  | .upsert spec => upsertVIP spec
  | .remove key => removeVIP key
  | .reweigh key name weight => reweighVIP key name weight
  | .mark kind id value => setMark kind id value

/-- Two worlds that differ at most in how often the environment was asked. -/
structure World.Alike (s s' : World) : Prop where
  plane : s'.plane = s.plane
  writes : s'.writes = s.writes

theorem World.Alike.refl (s : World) : s.Alike s := ⟨rfl, rfl⟩

theorem World.Alike.trans {s'' : World} (first : s.Alike s') (second : s'.Alike s'') :
    s.Alike s'' :=
  ⟨second.plane.trans first.plane, second.writes.trans first.writes⟩

/-- Whether a part returned no error. -/
def succeeded : Except GoError Unit → Bool
  | .ok _ => true
  | .error _ => false

/-- Parts that ran one after another, each with whether it succeeded. -/
inductive Ran (env : Env) : List (Part × Bool) → World → World → Prop
  | done {s s' : World} (same : s.Alike s') : Ran env [] s s'
  | step {s s₀ s₁ s' : World} {part : Part} {result : Except GoError Unit}
    {rest : List (Part × Bool)} (same : s.Alike s₀) (run : part.run env s₀ = (result, s₁))
    (later : Ran env rest s₁ s') : Ran env ((part, succeeded result) :: rest) s s'

theorem Ran.alike {env : Env} {parts : List (Part × Bool)} {s₀ : World} (same : s.Alike s₀)
    (ran : Ran env parts s₀ s') : Ran env parts s s' := by
  cases ran with
  | done same' => exact .done (same.trans same')
  | step same' run later => exact .step (same.trans same') run later

/-- Parts run one after another. -/
theorem Ran.append {env : Env} {first second : List (Part × Bool)} {s₁ : World}
    (before : Ran env first s s₁) (after : Ran env second s₁ s') :
    Ran env (first ++ second) s s' := by
  induction before with
  | done same => exact after.alike same
  | step same run _ ih => exact .step same run (ih after)

/-- A weight change reaches a backend of a VIP it asks for, unless the VIP waits to be claimed. -/
structure Dataplane.Reaches (p : Dataplane) (id : Nat) (vipKey key name : String) : Prop where
  lists : Lists p key name id
  asked : vipKey = "" ∨ key = vipKey
  claimed : (p.unclaimed.get? key).getD false = false

/-- The parts an operation is made of, in the state it begins in. -/
def Op.Consists (p : Dataplane) : Op → List Part → Prop
  | .upsertVIP vip, parts => parts = [.upsert vip]
  | .removeVIP key, parts => parts = [.remove key]
  | .reloadVIPs desired, parts =>
    parts = (planReload p.currentSpecs desired).removes.map .remove ++
      (planReload p.currentSpecs desired).upserts.map .upsert
  | .setBackendWeight id vipKey weight, parts =>
    ∃ targets : List (String × String),
      parts = targets.map (fun t => .reweigh t.1 t.2 weight) ∧ (targets.map Prod.fst).Nodup ∧
        ∀ t ∈ targets, p.Reaches id vipKey t.1 t.2
  | .setBackendHealth id healthy, parts => parts = [.mark .probe id healthy]
  | .setBackendDraining id draining, parts => parts = [.mark .drain id draining]
  | .setBackendDrainingByKey vipKey backendKey draining, parts =>
    parts = [] ∨ ∃ id, Lists p vipKey backendKey id ∧ parts = [.mark .drain id draining]
  | .setBackendAdminDraining id draining, parts => parts = [.mark .adminDrain id draining]

/-- An operation ran as a sequence of its parts: all of them if it returned no error. -/
structure Op.Decomposed (op : Op) (env : Env) (result : Except GoError Unit) (s s' : World)
    (ran : List (Part × Bool)) (parts : List Part) : Prop where
  consists : op.Consists s.plane parts
  run : Ran env ran s s'
  some : ran.map Prod.fst <+: parts
  all : result = .ok () → ran = parts.map fun part => (part, true)

/-- A loop that goes on after errors runs all its parts. -/
theorem attempt_ran {α : Type} {f : α → M Unit} {part : α → Part} {env : Env}
    (same : ∀ x s, succeeded (f x env s).1 = succeeded ((part x).run env s).1 ∧
      (f x env s).2 = ((part x).run env s).2) (items : List α) (s : World) :
    ∃ results s', Effect.attempt items f env s = (.ok results, s') ∧
      results.map Prod.fst = items ∧
      Ran env (results.map fun r => (part r.1, succeeded r.2)) s s' := by
  induction items generalizing s with
  | nil => exact ⟨[], s, rfl, rfl, .done (.refl s)⟩
  | cons x rest ih =>
    obtain ⟨results, s', run, covered, ran⟩ := ih (f x env s).2
    refine ⟨(x, (f x env s).1) :: results, s', ?_, ?_, ?_⟩
    · simp only [Effect.attempt, Effect.bind_apply, Effect.outcome, run]
      rfl
    · rw [List.map_cons, covered]
    · rw [List.map_cons]
      dsimp only
      rw [(same x s).1]
      exact .step (.refl s) rfl ((same x s).2 ▸ ran)

/-- A loop that stops at an error runs a beginning of them. -/
theorem forEach_ran {α : Type} {f : α → M Unit} {part : α → Part} (same : ∀ x, f x = (part x).run)
    (env : Env) (items : List α) (s : World) :
    ∃ result s' ran, Effect.forEach items f env s = (result, s') ∧ Ran env ran s s' ∧
      ran.map Prod.fst <+: items.map part ∧
      (result = .ok () → ran = items.map fun x => (part x, true)) := by
  induction items generalizing s with
  | nil => exact ⟨.ok (), s, [], rfl, .done (.refl s), List.prefix_rfl, fun _ => rfl⟩
  | cons x rest ih =>
    cases run : (part x).run env s with
    | mk outcome s₁ =>
      cases outcome with
      | error e =>
        refine ⟨.error e, s₁, [(part x, false)], ?_, .step (.refl s) run (.done (.refl s₁)), ?_, ?_⟩
        · simp only [Effect.forEach, Effect.bind_apply, same, run]
        · exact ⟨rest.map part, rfl⟩
        · intro ok
          cases ok
      | ok _ =>
        obtain ⟨result, s', ran, run', rans, covered, all⟩ := ih s₁
        refine ⟨result, s', (part x, true) :: ran, ?_, .step (.refl s) run rans, ?_, ?_⟩
        · simp only [Effect.forEach, Effect.bind_apply, same, run]
          rw [← run']
        · rw [List.map_cons, List.map_cons]
          exact List.cons_prefix_cons.mpr ⟨rfl, covered⟩
        · intro ok
          rw [all ok, List.map_cons]

theorem weightTargets_run (id : Nat) (env : Env) (keys : List String)
    (owned : BackendsOwned leak s.plane) (distinct : keys.Nodup) :
    ∃ targets s', weightTargets id keys env s = (.ok targets, s') ∧ s.Alike s' ∧
      (targets.map Prod.fst).Nodup ∧ ∀ t ∈ targets, t.1 ∈ keys ∧ Lists s.plane t.1 t.2 id := by
  induction keys generalizing s with
  | nil => exact ⟨[], s, rfl, .refl s, List.nodup_nil, fun t member => nomatch member⟩
  | cons key rest ih =>
    obtain ⟨fresh, distinct'⟩ := List.nodup_cons.mp distinct
    let entry := (s.plane.services.get? key).getD (.new 0)
    obtain ⟨names, s₁, walk, perm, plane₁, logged₁⟩ := iterate_run entry.backendIDs.keys env s
    have same₁ : s.Alike s₁ := ⟨plane₁, by simpa [Logged] using logged₁⟩
    obtain ⟨later, s', run, same', distinctLater, lists⟩ := ih (plane₁ ▸ owned) distinct'
    rw [plane₁] at lists
    let here := (names.filter fun name => entry.backendIDs.get? name = some id).map (key, ·)
    have mine : ∀ t ∈ here, t.1 = key ∧ Lists s.plane key t.2 id := by
      intro t member
      obtain ⟨name, filtered, rfl⟩ := List.mem_map.mp member
      have named : entry.backendIDs.get? name = some id := by
        simpa using (List.mem_filter.mp filtered).2
      refine ⟨rfl, ?_⟩
      cases found : s.plane.services.get? key with
      | none =>
        simp only [entry, found] at named
        cases named
      | some e =>
        simp only [entry, found, Option.getD_some] at named
        exact ⟨e, found, named⟩
    refine ⟨here ++ later, s', ?_, same₁.trans same', ?_, ?_⟩
    · simp only [weightTargets, Effect.bind_apply, getEntry, Effect.read_apply]
      rw [walk]
      simp only [run]
      rfl
    · rw [List.map_append, List.nodup_append]
      refine ⟨?_, distinctLater, ?_⟩
      · -- Within one VIP an ID has one name, so at most one name passes the filter.
        rw [List.map_map]
        refine List.Nodup.map_on ?_ ((perm.nodup_iff.mpr entry.backendIDs.keys_nodup).filter _)
        intro name first name' second _
        exact owned.name_of_id (mine (key, name) (List.mem_map_of_mem first)).2
          (mine (key, name') (List.mem_map_of_mem second)).2
      · intro k first k' second same
        obtain ⟨t, member, rfl⟩ := List.mem_map.mp first
        obtain ⟨t', member', rfl⟩ := List.mem_map.mp second
        rw [(mine t member).1] at same
        exact fresh (same ▸ (lists t' member').1)
    · intro t member
      rcases List.mem_append.mp member with first | second
      · obtain ⟨same, listed⟩ := mine t first
        exact ⟨same ▸ List.mem_cons_self, same ▸ listed⟩
      · exact ⟨List.mem_cons_of_mem key (lists t second).1, (lists t second).2⟩

/-- A weight change programs the VIPs it reaches, up to an error. -/
theorem setBackendWeight_ran (id : Nat) (vipKey : String) (weight : Nat)
    (env : Env) (owned : BackendsOwned leak s.plane) :
    ∃ result s' ran parts, setBackendWeight id vipKey weight env s = (result, s') ∧
      (Op.setBackendWeight id vipKey weight).Consists s.plane parts ∧ Ran env ran s s' ∧
      ran.map Prod.fst <+: parts ∧ ∀ n, result = .ok n → ran = parts.map fun part => (part, true) := by
  -- A refusal runs no part.
  have refusal : ∀ {e : GoError} {s' : World}, s.Alike s' →
      (Op.setBackendWeight id vipKey weight).Consists s.plane [] ∧ Ran env [] s s' ∧
        List.map Prod.fst ([] : List (Part × Bool)) <+: [] ∧
        ∀ n, (.error e : Except GoError Nat) = .ok n →
          [] = ([] : List Part).map fun part => (part, true) := fun same =>
    ⟨⟨[], rfl, List.nodup_nil, fun t member => nomatch member⟩, .done same, List.prefix_rfl,
      fun _ ok => nomatch ok⟩
  unfold setBackendWeight
  split
  · exact ⟨_, s, [], [], rfl, refusal (.refl s)⟩
  simp only [Effect.bind_apply, getPlane_apply]
  split
  · exact ⟨_, s, [], [], rfl, refusal (.refl s)⟩
  obtain ⟨keys, s₁, walk, perm, plane₁, logged₁⟩ := iterate_run s.plane.services.keys env s
  have same₁ : s.Alike s₁ := ⟨plane₁, by simpa [Logged] using logged₁⟩
  have distinct : ((keys.filter fun key => vipKey = "" || key = vipKey).filter
      fun key => !(s.plane.unclaimed.get? key).getD false).Nodup :=
    ((perm.nodup_iff.mpr s.plane.services.keys_nodup).filter _).filter _
  obtain ⟨targets, s₂, run, same₂, once, lists⟩ :=
    weightTargets_run id env _ (plane₁ ▸ owned) distinct
  have same := same₁.trans same₂
  simp only [Effect.bind_apply, walk, run]
  split
  · generalize List.getLast? _ = waiting
    cases waiting <;> exact ⟨_, s₂, [], [], rfl, refusal same⟩
  · obtain ⟨result, s', ran, walked, rans, covered, all⟩ :=
      @forEach_ran (String × String) (fun t => reweighVIP t.1 t.2 weight)
        (fun t => .reweigh t.1 t.2 weight) (fun _ => rfl) env targets s₂
    simp only [Effect.bind_apply, walked]
    have consists : (Op.setBackendWeight id vipKey weight).Consists s.plane
        (targets.map fun t => .reweigh t.1 t.2 weight) := by
      refine ⟨targets, rfl, once, fun t member => ?_⟩
      obtain ⟨inKeys, listed⟩ := lists t member
      obtain ⟨inAsked, claimed⟩ := List.mem_filter.mp inKeys
      have asked := (List.mem_filter.mp inAsked).2
      simp only [Bool.or_eq_true, decide_eq_true_eq] at asked
      exact ⟨plane₁ ▸ listed, asked, by simpa using claimed⟩
    cases result with
    | error e =>
      exact ⟨.error e, s', ran, _, rfl, consists, rans.alike same, covered, fun _ ok => nomatch ok⟩
    | ok _ =>
      refine ⟨_, s', ran, _, rfl, consists, rans.alike same, covered, fun _ _ => ?_⟩
      rw [all rfl, List.map_map]
      rfl

/-- A reload is removals first and then upserts. -/
theorem reloadVIPs_ran (desired : List VIP) (env : Env) (s : World) :
    ∃ result err s' ran, reloadVIPs desired env s = (.ok (result, err), s') ∧ Ran env ran s s' ∧
      (Op.reloadVIPs desired).Consists s.plane (ran.map Prod.fst) ∧
      (err = none → ∀ r ∈ ran, r.2 = true) := by
  obtain ⟨removals, s₁, run₁, covered₁, ran₁⟩ := @attempt_ran String
    (fun key => Effect.mapError (GoError.wrap ("remove vip " ++ key ++ ": ")) (removeVIP key))
    .remove env (by
      intro key s
      simp only [Effect.mapError, Part.run]
      split <;> simp_all [succeeded])
    (planReload s.plane.currentSpecs desired).removes s
  obtain ⟨upserts, s₂, run₂, covered₂, ran₂⟩ := @attempt_ran VIP upsertVIP .upsert env
    (fun _ _ => ⟨rfl, rfl⟩) (planReload s.plane.currentSpecs desired).upserts s₁
  cases whole : reloadVIPs desired env s with
  | mk outcome s' =>
  simp only [reloadVIPs, Effect.bind_apply, getPlane_apply, run₁, run₂, Effect.pure_apply,
    Prod.mk.injEq] at whole
  obtain ⟨rfl, rfl⟩ := whole
  refine ⟨_, _, s₂, _, rfl, ran₁.append ran₂, ?_, ?_⟩
  · simp only [Op.Consists, List.map_append, List.map_map, Function.comp_def]
    rw [← covered₁, ← covered₂, List.map_map, List.map_map]
    rfl
  · -- No error at all means that no attempt contributed one.
    intro none r member
    have clean : ∀ {α : Type} {results : List (α × Except GoError Unit)},
        results.filterMap failedWith = [] → ∀ r ∈ results, succeeded r.2 = true := by
      intro α results empty r member
      have missing := List.filterMap_eq_nil_iff.mp empty r member
      obtain ⟨x, outcome⟩ := r
      cases outcome with
      | ok _ => rfl
      | error e => cases missing
    have empty : removals.filterMap failedWith ++ upserts.filterMap failedWith = [] := by
      cases errors : removals.filterMap failedWith ++ upserts.filterMap failedWith with
      | nil => rfl
      | cons e rest =>
        rw [errors] at none
        cases none
    obtain ⟨first, second⟩ := List.append_eq_nil_iff.mp empty
    rcases List.mem_append.mp member with early | late
    · obtain ⟨x, inside, rfl⟩ := List.mem_map.mp early
      exact clean first x inside
    · obtain ⟨x, inside, rfl⟩ := List.mem_map.mp late
      exact clean second x inside

theorem Op.decompose_single {op : Op} {part : Part} {env : Env}
    (same : op.run = part.run) (consists : op.Consists s.plane [part]) :
    ∃ result s' ran parts, op.run env s = (result, s') ∧ op.Decomposed env result s s' ran parts := by
  cases run : part.run env s with
  | mk result s' =>
    refine ⟨result, s', _, [part], same ▸ run, consists, .step (.refl s) run (.done (.refl s')),
      List.prefix_rfl, ?_⟩
    rintro rfl
    rfl

/-- Every operation is a run of parts. -/
theorem Op.decompose (op : Op) (env : Env)
    (owned : BackendsOwned leak s.plane) :
    ∃ result s' ran parts, op.run env s = (result, s') ∧
      op.Decomposed env result s s' ran parts := by
  cases op with
  | upsertVIP vip => exact decompose_single rfl rfl
  | removeVIP key => exact decompose_single rfl rfl
  | setBackendHealth id healthy => exact decompose_single rfl rfl
  | setBackendDraining id draining => exact decompose_single rfl rfl
  | reloadVIPs desired =>
    obtain ⟨result, err, s', ran, run, rans, consists, clean⟩ := reloadVIPs_ran desired env s
    simp only [Op.run, Effect.bind_apply, run]
    cases err with
    | some e =>
      exact ⟨_, s', ran, _, rfl, consists, rans, List.prefix_rfl, fun ok => by cases ok⟩
    | none =>
      refine ⟨_, s', ran, _, rfl, consists, rans, List.prefix_rfl, fun _ => ?_⟩
      rw [List.map_map]
      conv_lhs => rw [← List.map_id ran]
      refine List.map_congr_left fun r member => ?_
      exact Prod.ext rfl (clean rfl r member)
  | setBackendWeight id vipKey weight =>
    obtain ⟨result, s', ran, parts, run, consists, rans, covered, all⟩ :=
      setBackendWeight_ran id vipKey weight env owned
    simp only [Op.run, Effect.bind_apply, run]
    cases result with
    | error e => exact ⟨_, s', ran, parts, rfl, consists, rans, covered, fun ok => by cases ok⟩
    | ok n => exact ⟨_, s', ran, parts, rfl, consists, rans, covered, fun _ => all n rfl⟩
  | setBackendDrainingByKey vipKey backendKey draining =>
    -- A miss runs nothing; a hit sets the mark of the backend found.
    have miss : (Op.setBackendDrainingByKey vipKey backendKey draining).Decomposed env (.ok ()) s s
        [] [] := ⟨Or.inl rfl, .done (.refl s), List.prefix_rfl, fun _ => rfl⟩
    simp only [Op.run, Rivora.setBackendDrainingByKey, Effect.bind_apply, getPlane_apply]
    cases found : s.plane.services.get? vipKey with
    | none => exact ⟨_, s, [], [], rfl, miss⟩
    | some entry =>
      dsimp only
      cases named : entry.backendIDs.get? backendKey with
      | none => exact ⟨_, s, [], [], rfl, miss⟩
      | some id =>
        cases run : (Part.mark .drain id draining).run env s with
        | mk result s' =>
          refine ⟨result, s', _, [.mark .drain id draining], run,
            Or.inr ⟨id, ⟨entry, found, named⟩, rfl⟩, .step (.refl s) run (.done (.refl s')),
            List.prefix_rfl, ?_⟩
          rintro rfl
          rfl
  | setBackendAdminDraining id draining =>
    simp only [Op.run, Rivora.setBackendAdminDraining, Effect.bind_apply, getPlane_apply]
    cases known : s.plane.backendStates.get? id with
    | none =>
      exact ⟨_, s, [], [.mark .adminDrain id draining], rfl, rfl, .done (.refl s), List.nil_prefix,
        fun ok => by cases ok⟩
    | some st =>
      cases run : (Part.mark .adminDrain id draining).run env s with
      | mk result s' =>
        refine ⟨result, s', _, [.mark .adminDrain id draining], ?_, rfl,
          .step (.refl s) run (.done (.refl s')), List.prefix_rfl, ?_⟩
        · rw [← run]
          simp only [Part.run, setMark, Effect.bind_apply, getPlane_apply, known]
          rfl
        · rintro rfl
          rfl

theorem setMark_run (kind : Mark) (id : Nat) (value : Bool) (env : Env)
    (owned : BackendsOwned leak s.plane) :
    (s.plane.backendStates.get? id = none ∧ setMark kind id value env s = (.ok (), s)) ∨
    ∃ st s', s.plane.backendStates.get? id = some st ∧
      s'.plane = s.plane.modifyBackend id (fun st => st.mark value kind) ∧
      ((setMark kind id value env s = (.ok (), s') ∧
          Logged s s' [.setHealth id (st.mark value kind).health]) ∨
        ((∃ e, setMark kind id value env s = (.error e, s')) ∧ Logged s s' [] ∧
          env.Fails (.setHealth id (st.mark value kind).health))) := by
  unfold setMark
  simp only [Effect.bind_apply, getPlane_apply]
  cases known : s.plane.backendStates.get? id with
  | none => exact Or.inl ⟨rfl, rfl⟩
  | some st =>
    right
    have inside : id < maxBackends :=
      owned.capacity ▸ s.plane.backendAlloc.id_lt_max (owned.held known).1
    have marked : (s.plane.modifyBackend id fun st => st.mark value kind).backendStates.get? id =
        some (st.mark value kind) := by
      rw [modifyBackend_get?, if_pos rfl, known]
      rfl
    simp only [Effect.bind_apply, modifyPlane_apply, writeHealth, getPlane_apply, withPlane_plane,
      marked]
    cases run : write (.setHealth id (st.mark value kind).health) env
        (s.withPlane (s.plane.modifyBackend id fun st => st.mark value kind)) with
    | mk outcome s' =>
      cases outcome with
      | ok _ =>
        obtain ⟨_, plane, logged⟩ := write_ok run
        exact ⟨st, s', rfl, plane, Or.inl ⟨rfl, logged⟩⟩
      | error e =>
        obtain ⟨fails, plane, logged⟩ := write_error run
        refine ⟨st, s', rfl, plane, Or.inr ⟨⟨e, rfl⟩, logged, fails ?_⟩⟩
        simpa [MapWrite.inBounds] using inside

/-- The control state with one weight override of a VIP set or cleared. -/
def Dataplane.reweighed (p : Dataplane) (key name : String) (weight : Nat) : Dataplane :=
  p.modifyEntry key fun e => e.overrideWeight name weight

/-- The spec a VIP was last programmed from; the zero value if it never was. -/
def Dataplane.recordedSpec (p : Dataplane) (key : String) : VIP :=
  ((p.services.get? key).getD (.new 0)).vipSpec

theorem reweighVIP_eq (key name : String) (weight : Nat) (env : Env) (s : World) :
    reweighVIP key name weight env s = upsertVIP (s.plane.recordedSpec key) env
      (s.withPlane (s.plane.reweighed key name weight)) := by
  have spec : (s.plane.reweighed key name weight).recordedSpec key = s.plane.recordedSpec key := by
    unfold Dataplane.reweighed Dataplane.recordedSpec
    cases found : s.plane.services.get? key with
    | none =>
      unfold Dataplane.modifyEntry
      simp only [found]
    | some e =>
      rw [modifyEntry_get?_self found]
      rfl
  unfold reweighVIP modifyEntry getEntry
  simp only [Effect.bind_apply, modifyPlane_apply, Effect.read_apply]
  rw [← spec]
  rfl

/-- A part of an operation begins in a control state. -/
def Op.Begins (op : Op) (env : Env) (p q : Dataplane) (part : Part) : Prop :=
  ∃ ran rest s, op.Consists p (ran.map Prod.fst ++ part :: rest) ∧
    Ran env ran ⟨p, [], 0⟩ s ∧ s.plane = q

/-- What every part keeps, an operation keeps. -/
theorem Op.invariant {P : World → Prop} {op : Op} {env : Env} {p : Dataplane}
    (owned : BackendsOwned leak p) (alike : ∀ {s s'}, s.Alike s' → P s → P s')
    (step : ∀ {s part result s'}, P s → op.Begins env p s.plane part →
      part.run env s = (result, s') → (op.Succeeds env p → result = .ok ()) → P s')
    (start : P ⟨p, [], 0⟩) : P (op.outcome env p).2 := by
  obtain ⟨result, s', ran, parts, run, decomposed⟩ := op.decompose env owned (s := ⟨p, [], 0⟩)
  have succeeds : op.Succeeds env p → ∀ r ∈ ran, r.2 = true := by
    intro ok r member
    rw [Op.Succeeds, Op.outcome, run] at ok
    rw [decomposed.all ok] at member
    obtain ⟨_, _, rfl⟩ := List.mem_map.mp member
    rfl
  obtain ⟨extra, complete⟩ := decomposed.some
  rw [Op.outcome, run]
  -- The parts already run are carried along, so that each part is known to begin where it does.
  suffices general : ∀ {ran' : List (Part × Bool)} {t t' : World}, Ran env ran' t t' →
      ∀ ran₀, ran₀ ++ ran' = ran → Ran env ran₀ ⟨p, [], 0⟩ t → P t → P t' from
    general decomposed.run [] rfl (.done (.refl _)) start
  intro ran' t t' rans
  induction rans with
  | done same => exact fun _ _ _ holds => alike same holds
  | @step t t₀ t₁ t' part outcome rest same run' later ih =>
    intro ran₀ split before holds
    have before₀ : Ran env (ran₀ ++ []) ⟨p, [], 0⟩ t₀ := before.append (.done same)
    rw [List.append_nil] at before₀
    have begins : op.Begins env p t₀.plane part := by
      refine ⟨ran₀, rest.map Prod.fst ++ extra, t₀, ?_, before₀, rfl⟩
      have consists := decomposed.consists
      rw [← complete, ← split] at consists
      simpa using consists
    have ok : op.Succeeds env p → outcome = .ok () := by
      intro success
      have true' := succeeds success (part, succeeded outcome) (split ▸ by simp)
      cases outcome with
      | ok _ => rfl
      | error _ => cases true'
    refine ih (ran₀ ++ [(part, succeeded outcome)]) (by rw [← split]; simp) ?_
      (step (alike same holds) begins run' ok)
    exact before₀.append (.step (.refl t₀) run' (.done (.refl t₁)))

end Rivora

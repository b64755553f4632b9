import Rivora.Controller.Build
import Rivora.Controller.Fleet
import Rivora.Proofs.Attempts
import Rivora.Proofs.Rehearsal

/-! The drain flag of a backend, against the endpoints it stands for. -/

namespace Rivora.Reconciler

variable {d : DesiredVIP} {P : Dataplane → Prop} {s : Fleet}

open Interaction

/-- How the data plane answers the calls of a reconciler, with any writes failing. -/
def planeSpec : Spec Call.Reply Dataplane where
  may _ _ := True
  answers p c r q := match c, r with
    | .upsertVIP vip, r => ∃ env, (((Op.upsertVIP vip).outcome env p).1 = r ∧
        ((Op.upsertVIP vip).outcome env p).2.plane = q)
    | .setBackendDrainingByKey vipKey backendKey draining, _ => ∃ env,
        ((Op.setBackendDrainingByKey vipKey backendKey draining).outcome env p).2.plane = q
    | .removeVIP key, _ => ∃ env, ((Op.removeVIP key).outcome env p).2.plane = q
    | .getInstalled _, _ | .setInstalled _ _, _ | .deleteInstalled _, _ | .iterate _, _ | .onChange, _ =>
      q = p

/-- A fact about the data plane that a call cannot change. -/
def Stable (P : Dataplane → Prop) (c : Call) : Prop :=
  ∀ ⦃leak p q r⦄, Owned leak p → planeSpec.answers p c r q → P p → P q

/-- No state of a backend with this name is flagged. -/
def Unflagged (name : String) (p : Dataplane) : Prop :=
  ∀ ⦃id st⦄, p.backendStates.get? id = some st → st.name = name → st.draining = false

/-- The backend a VIP lists under this name is flagged. -/
def Flagged (vipKey name : String) (p : Dataplane) : Prop :=
  ∀ ⦃id⦄, Lists p vipKey name id → ∃ st, p.backendStates.get? id = some st ∧ st.draining = true

/-- A VIP lists backends of these names and no others. -/
def ListsExactly (vipKey : String) (names : List String) (p : Dataplane) : Prop :=
  ∀ name, (∃ id, Lists p vipKey name id) ↔ name ∈ names

/-- The names the data plane knows backends by. -/
def names (backends : List Backend) : List String := backends.map backendName

/-- A wanted VIP is in place: it lists its backends, and those that are draining are flagged. -/
def InPlace (d : DesiredVIP) (p : Dataplane) : Prop :=
  ListsExactly (vipKeyString d.vip) (names d.vip.backends) p ∧
    ∀ name ∈ names d.drainingBackends, Flagged (vipKeyString d.vip) name p

section Facts

variable {leak : String → Nat} {p q : Dataplane} {vipKey name : String}

theorem wanted_contains (p : Dataplane) (spec : VIP) (name : String) :
    (p.wanted spec).contains name = true ↔ name ∈ names spec.backends := by
  -- An override changes a weight and no name.
  have same : ((p.effective spec).backends.map fun b => (backendName b, b)).map Prod.fst =
      names spec.backends := by
    simp only [Dataplane.effective, VIP.overrideWeights, names, List.map_map]
    refine List.map_congr_left fun b _ => ?_
    simp only [Function.comp_apply]
    split <;> rfl
  rw [FMap.contains, Option.isSome_iff_exists, ← FMap.mem_keys, Dataplane.wanted, desiredBackends,
    FMap.mem_keys_ofList, same]

theorem Unflagged.follows (unflagged : Unflagged name p) (follows : Follows p q) : Unflagged name q := by
  intro id st' stored named
  rcases follows.lineage stored with ⟨st, before, continues⟩ | ⟨_, unmarked⟩
  · rw [continues.draining]
    exact unflagged before (continues.name ▸ named)
  · exact unmarked.draining

theorem lists_congr (same : q.services.get? vipKey = p.services.get? vipKey) {name : String} {id : Nat} :
    Lists q vipKey name id ↔ Lists p vipKey name id := by
  unfold Lists
  rw [same]

theorem Flagged.follows (owned : Owned leak p) (flagged : Flagged vipKey name p) (follows : Follows p q)
    (same : q.services.get? vipKey = p.services.get? vipKey) : Flagged vipKey name q := by
  intro id lists
  have before := (lists_congr same).mp lists
  obtain ⟨leak', owned'⟩ := follows.owned
  obtain ⟨entry, found, listed⟩ := lists
  obtain ⟨st', stored, named⟩ := owned'.backends.state_of_listed found listed
  refine ⟨st', stored, ?_⟩
  rcases follows.lineage stored with ⟨st, earlier, continues⟩ | ⟨unused, _⟩
  · obtain ⟨st₀, known, flag⟩ := flagged before
    cases earlier.symm.trans known
    exact continues.draining.trans flag
  · -- The name had an ID, so its state cannot have started anew.
    rw [named, owned.backends.id_of_lists before] at unused
    cases unused

/-- A mark changes one flag of one backend. -/
theorem marked_states (owned : Owned leak p) {id : Nat} (lists : Lists p vipKey name id)
    (draining : Bool) {j : Nat} {st' : BackendState}
    (stored : (p.modifyBackend id fun st => st.mark draining .drain).backendStates.get? j = some st') :
    ∃ st, p.backendStates.get? j = some st ∧ st'.name = st.name ∧
      ((st.name = name ∧ st'.draining = draining) ∨ (j ≠ id ∧ st'.draining = st.draining)) := by
  rw [modifyBackend_get?] at stored
  split at stored
  · rename_i this
    obtain ⟨st, known, rfl⟩ := Option.map_eq_some_iff.mp stored
    obtain ⟨entry, found, listed⟩ := lists
    obtain ⟨st₀, known₀, named⟩ := owned.backends.state_of_listed found listed
    cases known₀.symm.trans known
    exact ⟨st, this ▸ known, rfl, Or.inl ⟨named, rfl⟩⟩
  · rename_i differ
    exact ⟨st', stored, rfl, Or.inr ⟨differ, rfl⟩⟩

end Facts

section Stability

variable {vipKey name : String} {backends : List String}

theorem planeSpec_owned {leak : String → Nat} {p q : Dataplane} {c : Call} {r : c.Reply}
    (owned : Owned leak p) (answered : planeSpec.answers p c r q) : ∃ leak', Owned leak' q := by
  have same : q = p → ∃ leak', Owned leak' q := fun is => ⟨leak, is ▸ owned⟩
  cases c with
  | upsertVIP vip =>
    obtain ⟨env, rfl, rfl⟩ := answered
    exact (owned.upsert_attempted vip env).owned
  | setBackendDrainingByKey vipKey backendKey draining =>
    obtain ⟨env, rfl⟩ := answered
    rcases setBackendDrainingByKey_marks owned vipKey backendKey draining env with
      ⟨_, plane⟩ | ⟨id, _, plane⟩
    · exact same plane
    · rw [plane]
      exact ⟨leak, owned.mark id draining .drain⟩
  | removeVIP key =>
    obtain ⟨env, rfl⟩ := answered
    exact (owned.remove_follows key env).1.owned
  | getInstalled key => exact same answered
  | setInstalled key keys => exact same answered
  | deleteInstalled key => exact same answered
  | iterate keys => exact same answered
  | onChange => exact same answered

theorem Unflagged.stable_upsert (name : String) (vip : VIP) :
    Stable (Unflagged name) (.upsertVIP vip) := by
  rintro leak p q r owned ⟨env, rfl, rfl⟩ unflagged
  exact unflagged.follows (owned.upsert_attempted vip env).follows

theorem Unflagged.stable_remove (name key : String) : Stable (Unflagged name) (.removeVIP key) := by
  rintro leak p q r owned ⟨env, rfl⟩ unflagged
  exact unflagged.follows (owned.remove_follows key env).1

theorem Unflagged.stable_drain {name backendKey : String} (differ : backendKey ≠ name)
    (vipKey : String) (draining : Bool) :
    Stable (Unflagged name) (.setBackendDrainingByKey vipKey backendKey draining) := by
  rintro leak p q r owned ⟨env, rfl⟩ unflagged
  rcases setBackendDrainingByKey_marks owned vipKey backendKey draining env with
    ⟨_, plane⟩ | ⟨id, lists, plane⟩
  · rw [plane]
    exact unflagged
  · rw [plane]
    intro j st' stored named
    obtain ⟨st, known, same, ⟨marked, _⟩ | ⟨_, flag⟩⟩ := marked_states owned lists draining stored
    · exact absurd (marked.symm.trans (same.symm.trans named)) differ
    · rw [flag]
      exact unflagged known (same.symm.trans named)

theorem InPlace.stable_upsert {vip : VIP}
    (differ : vipKeyString d.vip ≠ vipKeyString vip) : Stable (InPlace d) (.upsertVIP vip) := by
  rintro leak p q r owned ⟨env, rfl, rfl⟩ ⟨lists, flags⟩
  have attempted := owned.upsert_attempted vip env
  have same := attempted.others _ differ
  refine ⟨fun name => Iff.trans ?_ (lists name), fun name member => ?_⟩
  · exact exists_congr fun id => lists_congr same
  · exact (flags name member).follows owned attempted.follows same

theorem InPlace.stable_remove {key : String} (differ : vipKeyString d.vip ≠ key) :
    Stable (InPlace d) (.removeVIP key) := by
  rintro leak p q r owned ⟨env, rfl⟩ ⟨lists, flags⟩
  obtain ⟨follows, others⟩ := owned.remove_follows key env
  have same := others _ differ
  refine ⟨fun name => Iff.trans ?_ (lists name), fun name member => ?_⟩
  · exact exists_congr fun id => lists_congr same
  · exact (flags name member).follows owned follows same

theorem ListsExactly.stable_drain (vipKey : String) (backends : List String) (vipKey' backendKey : String)
    (draining : Bool) : Stable (ListsExactly vipKey backends)
      (.setBackendDrainingByKey vipKey' backendKey draining) := by
  rintro leak p q r owned ⟨env, rfl⟩ lists
  rcases setBackendDrainingByKey_marks owned vipKey' backendKey draining env with
    ⟨_, plane⟩ | ⟨id, _, plane⟩
  · rw [plane]
    exact lists
  · rw [plane]
    refine fun name => Iff.trans (exists_congr fun id => ?_) (lists name)
    exact lists_congr (by rw [modifyBackend_rest])

theorem Flagged.stable_drain (vipKey name vipKey' backendKey : String) :
    Stable (Flagged vipKey name) (.setBackendDrainingByKey vipKey' backendKey true) := by
  rintro leak p q r owned ⟨env, rfl⟩ flagged
  rcases setBackendDrainingByKey_marks owned vipKey' backendKey true env with
    ⟨_, plane⟩ | ⟨id, _, plane⟩
  · rw [plane]
    exact flagged
  · rw [plane]
    intro j lists
    obtain ⟨st, known, flag⟩ := flagged ((lists_congr (by rw [modifyBackend_rest])).mp lists)
    rw [modifyBackend_get?]
    split
    · rename_i this
      subst this
      rw [known]
      exact ⟨_, rfl, rfl⟩
    · exact ⟨st, known, flag⟩

theorem InPlace.stable_drain (d : DesiredVIP) (vipKey backendKey : String) :
    Stable (InPlace d) (.setBackendDrainingByKey vipKey backendKey true) :=
  fun _ _ _ r owned answered ⟨lists, flags⟩ =>
    ⟨ListsExactly.stable_drain _ _ _ _ _ (r := r) owned answered lists, fun name member =>
      Flagged.stable_drain _ _ _ _ (r := r) owned answered (flags name member)⟩

/-- A drain call flags its backend. -/
theorem flagged_of_drain {leak : String → Nat} {p q : Dataplane} {vipKey backendKey : String}
    {r : Except GoError Unit} (owned : Owned leak p)
    (answered : planeSpec.answers p (.setBackendDrainingByKey vipKey backendKey true) r q) :
    Flagged vipKey backendKey q := by
  obtain ⟨env, rfl⟩ := answered
  rcases setBackendDrainingByKey_marks owned vipKey backendKey true env with
    ⟨missing, plane⟩ | ⟨id, ⟨entry, found, listed⟩, plane⟩
  · rw [plane]
    exact fun id lists => absurd lists (missing id)
  · rw [plane]
    intro j lists
    obtain ⟨entry', found', listed'⟩ := (lists_congr (by rw [modifyBackend_rest])).mp lists
    cases found.symm.trans found'
    cases listed.symm.trans listed'
    obtain ⟨st, known, _⟩ := owned.backends.state_of_listed found listed
    rw [modifyBackend_get?, if_pos rfl, known]
    exact ⟨_, rfl, rfl⟩

end Stability

section Programs

variable {leak : String → Nat} {p : Dataplane}

/-- The drain calls flag every backend they are about. -/
theorem drainAll_flags (vipKey : String) (backends : List Backend)
    (stable : ∀ b ∈ backends, Stable P (.setBackendDrainingByKey vipKey (backendName b) true))
    (owned : Owned leak p) (start : P p) :
    (drainAll vipKey backends).Meets planeSpec (fun r q => (∃ leak', Owned leak' q) ∧ P q ∧
      (r = .ok () → ∀ name ∈ names backends, Flagged vipKey name q)) p := by
  induction backends generalizing leak p P with
  | nil => exact ⟨⟨leak, owned⟩, start, fun _ _ none => (nomatch none)⟩
  | cons b rest ih =>
    refine .bind (.ask trivial fun r q answered => ?_)
    obtain ⟨leak', owned'⟩ := planeSpec_owned owned answered
    have kept := stable b List.mem_cons_self owned answered start
    cases r with
    | error e => exact ⟨⟨leak', owned'⟩, kept, nofun⟩
    | ok _ =>
      -- From here on the flag just set is one more thing that no mark can change.
      have flagged := flagged_of_drain owned answered
      refine Prog.Meets.mono (ih (P := fun q => P q ∧ Flagged vipKey (backendName b) q)
        (fun b' member _ _ _ r owned answered both =>
          ⟨stable b' (List.mem_cons_of_mem _ member) (r := r) owned answered both.1,
            Flagged.stable_drain _ _ _ _ (r := r) owned answered both.2⟩)
        owned' ⟨kept, flagged⟩) fun r q' after => ?_
      obtain ⟨owned'', ⟨kept', flagged'⟩, flags⟩ := after
      refine ⟨owned'', kept', fun ok name member => ?_⟩
      rcases List.mem_cons.mp member with rfl | later
      · exact flagged'
      · exact flags ok name later

/-- An upsert lists the backends of its VIP. -/
theorem listsExactly_of_upsert {q : Dataplane} {vip : VIP} (owned : Owned leak p)
    (answered : planeSpec.answers p (.upsertVIP vip) (.ok ()) q) :
    ListsExactly (vipKeyString vip) (names vip.backends) q := by
  obtain ⟨env, ok, rfl⟩ := answered
  have run : Rivora.upsertVIP vip env ⟨p, [], 0⟩ = (.ok (), ((Op.upsertVIP vip).outcome env p).2) :=
    Prod.ext ok rfl
  obtain ⟨f, ip, ws, ws', up, _⟩ := upsertVIP_ok (s := ⟨p, [], 0⟩) owned run
  intro name
  rw [← wanted_contains p vip name, Dataplane.wanted, ← up.vip, ← up.names name]
  constructor
  · rintro ⟨id, entry, found, listed⟩
    cases up.entry.symm.trans found
    exact ⟨id, listed⟩
  · exact fun ⟨id, listed⟩ => ⟨id, f, up.entry, listed⟩

/-- After all upserts every VIP is in place. -/
theorem upsertAll_places (desired : List DesiredVIP) (newKeys : List String)
    (stable : ∀ d ∈ desired, Stable P (.upsertVIP d.vip) ∧ ∀ b ∈ d.drainingBackends,
      Stable P (.setBackendDrainingByKey (vipKeyString d.vip) (backendName b) true))
    (owned : Owned leak p) (start : P p) :
    (upsertAll desired newKeys).Meets planeSpec (fun r q => ∀ keys, r = .ok keys →
      (∃ leak', Owned leak' q) ∧ P q ∧
      (∀ k, k ∈ keys ↔ k ∈ newKeys ∨ k ∈ (Observed.wants desired).keys) ∧
      ∀ before d after, desired = before ++ d :: after →
        vipKeyString d.vip ∉ (Observed.wants after).keys → InPlace d q) p := by
  induction desired generalizing leak p P newKeys with
  | nil =>
    rintro keys ⟨⟩
    refine ⟨⟨leak, owned⟩, start, by simp [Observed.keys], fun before d after split => ?_⟩
    cases before <;> cases split
  | cons d rest ih =>
    obtain ⟨stableUpsert, stableDrain⟩ := stable d List.mem_cons_self
    refine .bind (.ask trivial fun r q₁ answered => ?_)
    cases r with
    | error e => exact nofun
    | ok _ =>
      obtain ⟨leak₁, owned₁⟩ := planeSpec_owned owned answered
      have lists := listsExactly_of_upsert owned answered
      refine .bind (Prog.Meets.mono (drainAll_flags _ _
        (P := fun q => P q ∧ ListsExactly (vipKeyString d.vip) (names d.vip.backends) q)
        (fun b member _ _ _ r owned answered both =>
          ⟨stableDrain b member (r := r) owned answered both.1,
            ListsExactly.stable_drain _ _ _ _ _ (r := r) owned answered both.2⟩)
        owned₁ ⟨stableUpsert owned answered start, lists⟩) fun r q₂ drained => ?_)
      obtain ⟨⟨leak₂, owned₂⟩, ⟨kept, lists₂⟩, flags⟩ := drained
      cases r with
      | error e => exact nofun
      | ok _ =>
        -- The VIP is in place now, and the later calls do not touch it unless one replaces it.
        refine Prog.Meets.mono (ih _ (P := fun q => P q ∧
            (vipKeyString d.vip ∉ (Observed.wants rest).keys → InPlace d q)) ?_ owned₂
          ⟨kept, fun _ => ⟨lists₂, flags rfl⟩⟩) fun r q₃ after keys ok => ?_
        · intro d' member
          obtain ⟨stableUpsert', stableDrain'⟩ := stable d' (List.mem_cons_of_mem _ member)
          constructor
          · intro _ _ _ r owned answered both
            refine ⟨stableUpsert' (r := r) owned answered both.1, fun unique => ?_⟩
            refine InPlace.stable_upsert ?_ (r := r) owned answered (both.2 unique)
            exact fun same => unique (List.mem_map.mpr ⟨d', member, same.symm⟩)
          · intro b listed _ _ _ r owned answered both
            exact ⟨stableDrain' b listed (r := r) owned answered both.1, fun unique =>
              InPlace.stable_drain _ _ _ (r := r) owned answered (both.2 unique)⟩
        · obtain ⟨owned₃, ⟨kept₃, first⟩, exact, places⟩ := after keys ok
          refine ⟨owned₃, kept₃, fun k => ?_, fun before d' after' split unique => ?_⟩
          · simp only [exact k, List.mem_insert_iff, Observed.keys, List.map_cons, List.mem_cons]
            tauto
          · cases before with
            | nil =>
              cases split
              exact first unique
            | cons _ before =>
              cases split
              exact places before d' after' rfl unique

/-- The removals keep what is wanted. -/
theorem removeStale_keeps {newKeys : List String} (previous : List String) (changed : Bool)
    (stable : ∀ k, k ∉ newKeys → Stable P (.removeVIP k))
    (owned : Owned leak p) (start : P p) :
    (removeStale newKeys previous changed).Meets planeSpec (fun _ q => P q) p := by
  -- Ownership goes along, because it is what a removal's effect depends on.
  refine Prog.Meets.mono ((removeStale_calls newKeys previous changed).keeps
    (P := fun q => (∃ leak, Owned leak q) ∧ P q) ?_ ⟨⟨leak, owned⟩, start⟩) fun _ _ both => both.2
  rintro _ q ⟨k, _, unwanted, rfl⟩ ⟨⟨leak', owned'⟩, holds⟩
  exact ⟨trivial, fun r q' answered =>
    ⟨planeSpec_owned owned' answered, stable k unwanted (r := r) owned' answered holds⟩⟩

/-- A reconcile that succeeds leaves every VIP in place. -/
theorem removeAllFor_places (key : String) (desired : List DesiredVIP)
    (stable : ∀ d ∈ desired, Stable P (.upsertVIP d.vip) ∧ ∀ b ∈ d.drainingBackends,
      Stable P (.setBackendDrainingByKey (vipKeyString d.vip) (backendName b) true))
    (stableRemove : ∀ k, Stable P (.removeVIP k)) (owned : Owned leak p) (start : P p) :
    (removeAllFor key desired).Meets planeSpec (fun r q => r = .ok () → P q ∧
      ∀ before d after, desired = before ++ d :: after →
        vipKeyString d.vip ∉ (Observed.wants after).keys → InPlace d q) p := by
  refine .bind (Prog.Meets.mono (upsertAll_places desired [] stable owned start)
    fun r q₁ upserted => ?_)
  cases r with
  | error e => exact nofun
  | ok newKeys =>
    obtain ⟨⟨leak₁, owned₁⟩, kept, exact, places⟩ := upserted newKeys rfl
    refine .bind (.ask trivial fun previous q₂ read => ?_)
    obtain rfl : q₂ = q₁ := read
    -- What is removed is not wanted, so it is none of the VIPs in place.
    refine .bind (Prog.Meets.mono (removeStale_keeps previous _
      (P := fun q => P q ∧ ∀ before d after, desired = before ++ d :: after →
        vipKeyString d.vip ∉ (Observed.wants after).keys → InPlace d q) ?_ owned₁ ⟨kept, places⟩)
      fun r q₃ settled => ?_)
    · intro k unwanted _ _ _ r owned answered both
      refine ⟨stableRemove k (r := r) owned answered both.1, fun before d after split unique => ?_⟩
      refine InPlace.stable_remove ?_ (r := r) owned answered (both.2 before d after split unique)
      rintro rfl
      refine unwanted ((exact _).mpr (Or.inr (List.mem_map.mpr ⟨d, ?_, rfl⟩)))
      rw [split]
      exact List.mem_append_right _ List.mem_cons_self
    · cases r with
      | error e => exact nofun
      | ok changed =>
        have recorded : (recordInstalled key newKeys).Meets planeSpec (fun _ q => q = q₃) q₃ := by
          unfold recordInstalled
          split
          · exact .ask trivial fun _ q same => same
          · refine .bind (.ask trivial fun keys q same => .ask trivial fun _ q' same' => ?_)
            exact Eq.trans same' same
        refine .bind (Prog.Meets.mono recorded fun _ q same => ?_)
        subst same
        cases changed with
        | false => exact fun _ => settled
        | true =>
          refine .bind (.ask trivial fun _ q' same => ?_)
          obtain rfl : q' = q := same
          exact fun _ => settled

end Programs

/-- One reconcile of an object, with the choices its surroundings make at each call. -/
structure Round where
  owner : Owner
  observed : Observed
  envs : Nat → Env

/-- The answers to the calls of a reconcile, counted. -/
def Round.answer (r : Round) (c : Call) (s : Fleet × Nat) : c.Reply × (Fleet × Nat) :=
  let (reply, after) := Fleet.answer r.owner (r.envs s.2) c s.1
  (reply, (after, s.2 + 1))

/-- The outcome of reconciling an object from beginning to end. -/
def Fleet.reconciled (s : Fleet) (r : Round) : Except GoError Unit × Fleet :=
  let (result, after, _) := (reconcile r.owner.key r.observed).run r.answer (s, 0)
  (result, after)

/-- The reconcilers and the data plane after a reconcile. -/
def Fleet.after (s : Fleet) (r : Round) : Fleet := (s.reconciled r).2

theorem Round.obeys (r : Round) (s : Fleet × Nat) (c : Call) :
    planeSpec.answers s.1.plane c (r.answer c s).1 (r.answer c s).2.1.plane := by
  cases c with
  | upsertVIP vip =>
    refine ⟨r.envs s.2, rfl, ?_⟩
    simp only [Round.answer, Fleet.answer, Fleet.perform]
    cases ((Op.upsertVIP vip).outcome (r.envs s.2) s.1.plane).1 <;> rfl
  | setBackendDrainingByKey vipKey backendKey draining => exact ⟨r.envs s.2, rfl⟩
  | removeVIP key => exact ⟨r.envs s.2, rfl⟩
  | getInstalled key => exact rfl
  | setInstalled key keys => exact rfl
  | deleteInstalled key => exact rfl
  | iterate keys => exact rfl
  | onChange => exact rfl

theorem planeSpec_keeps_owned {α : Type} (program : Reconcile α) {leak : String → Nat} {p : Dataplane}
    (owned : Owned leak p) : program.Meets planeSpec (fun _ q => ∃ leak', Owned leak' q) p := by
  induction program generalizing leak p with
  | done a => exact ⟨leak, owned⟩
  | call c next ih =>
    refine ⟨trivial, fun r q answered => ?_⟩
    obtain ⟨leak', owned'⟩ := planeSpec_owned owned answered
    exact ih r owned'

/-- A reconcile keeps the books. -/
theorem Fleet.after_owned (owned : ∃ leak, Owned leak s.plane) (r : Round) :
    ∃ leak, Owned leak (s.after r).plane := by
  obtain ⟨leak, owned⟩ := owned
  exact Prog.Meets.run_view (fun t : Fleet × Nat => t.1.plane) (t := (s, 0))
    (planeSpec_keeps_owned _ owned) fun t c _ => r.obeys t c

/-- No backend that is wanted as ready is flagged already, or wanted as draining by another VIP. -/
def NoReturns (p : Dataplane) (desired : List DesiredVIP) : Prop :=
  ∀ d ∈ desired, ∀ name ∈ names d.vip.backends, name ∉ names d.drainingBackends →
    Unflagged name p ∧ ∀ d' ∈ desired, name ∉ names d'.drainingBackends

/-- After a successful reconcile a backend is flagged exactly if it is wanted as draining. -/
theorem drain_flags_match_endpoints {leak : String → Nat} {p : Dataplane} (owned : Owned leak p)
    {rounds : List Round} {last : Round} {desired : List DesiredVIP}
    (wants : last.observed = .wants desired)
    (noReturns : NoReturns (Run.run Fleet.after (Fleet.start p) rounds).plane desired)
    (ok : ((Run.run Fleet.after (Fleet.start p) rounds).reconciled last).1 = .ok ())
    {before after : List DesiredVIP} {d : DesiredVIP} (split : desired = before ++ d :: after)
    (final : vipKeyString d.vip ∉ (Observed.wants after).keys) :
    (∀ name, (∃ id, Lists ((Run.run Fleet.after (Fleet.start p) rounds).after last).plane
      (vipKeyString d.vip) name id) ↔ name ∈ names d.vip.backends) ∧
    ∀ name id, Lists ((Run.run Fleet.after (Fleet.start p) rounds).after last).plane
      (vipKeyString d.vip) name id →
      ∃ st, ((Run.run Fleet.after (Fleet.start p) rounds).after last).plane.backendStates.get? id =
        some st ∧ (st.draining = true ↔ name ∈ names d.drainingBackends) := by
  have along : Run.Along Fleet.after (fun _ _ => True) (Fleet.start p) rounds :=
    Run.along_of_forall (fun _ _ => trivial) _
  have reached : ∃ leak, Owned leak (Run.run Fleet.after (Fleet.start p) rounds).plane :=
    Run.invariant (P := fun s : Fleet => ∃ leak, Owned leak s.plane)
      (fun {_ r} owned _ => Fleet.after_owned owned r) ⟨leak, owned⟩ along
  generalize Run.run Fleet.after (Fleet.start p) rounds = s at reached noReturns ok ⊢
  obtain ⟨leak', owned'⟩ := reached
  obtain ⟨leak'', owned''⟩ := Fleet.after_owned ⟨leak', owned'⟩ last
  -- What holds before the reconcile and survives each of its calls holds after it.
  have settled : ∀ P : Dataplane → Prop, (∀ d ∈ desired, Stable P (.upsertVIP d.vip) ∧
      ∀ b ∈ d.drainingBackends,
        Stable P (.setBackendDrainingByKey (vipKeyString d.vip) (backendName b) true)) →
      (∀ k, Stable P (.removeVIP k)) → P s.plane → P (s.after last).plane ∧
      InPlace d (s.after last).plane := by
    intro P stable stableRemove start
    have met := Prog.Meets.run_view (fun t : Fleet × Nat => t.1.plane) (t := (s, 0))
      (removeAllFor_places last.owner.key desired stable stableRemove owned' start)
      fun t c _ => last.obeys t c
    have same : reconcile last.owner.key last.observed = removeAllFor last.owner.key desired := by
      rw [wants]
      rfl
    rw [← same] at met
    obtain ⟨kept, places⟩ := met ok
    exact ⟨kept, places before d after split final⟩
  obtain ⟨lists, flags⟩ := (settled (fun _ => True) (fun _ _ => ⟨fun _ _ _ _ _ _ _ => trivial,
    fun _ _ _ _ _ _ _ _ _ => trivial⟩) (fun _ _ _ _ _ _ _ _ => trivial) trivial).2
  refine ⟨lists, fun name id listed => ?_⟩
  by_cases draining : name ∈ names d.drainingBackends
  · obtain ⟨st, known, flag⟩ := flags name draining listed
    exact ⟨st, known, by simp [flag, draining]⟩
  · -- A backend wanted as ready was not flagged before, and no call of the reconcile flags it.
    have among : d ∈ desired := split ▸ List.mem_append_right _ List.mem_cons_self
    obtain ⟨clear, nobody⟩ := noReturns d among name ((lists name).mp ⟨id, listed⟩) draining
    obtain ⟨unflagged, _⟩ := settled (Unflagged name) (fun d' member =>
      ⟨Unflagged.stable_upsert name _, fun b drained => Unflagged.stable_drain
        (fun same => nobody d' member (List.mem_map.mpr ⟨b, drained, same⟩)) _ _⟩)
      (Unflagged.stable_remove name) clear
    obtain ⟨entry, found, named⟩ := listed
    obtain ⟨st, known, same⟩ := owned''.backends.state_of_listed found named
    exact ⟨st, known, by simp [unflagged known same, draining]⟩

section Inputs

theorem removeStale_of_wanted {newKeys : List String} (previous : List String) (changed : Bool)
    (wanted : ∀ k ∈ previous, k ∈ newKeys) :
    removeStale newKeys previous changed = .done (.ok changed) := by
  induction previous with
  | nil => rfl
  | cons k rest ih =>
    rw [removeStale, if_pos (wanted k List.mem_cons_self)]
    exact ih fun k' member => wanted k' (List.mem_cons_of_mem _ member)

theorem Fleet.reconciled_single {r : Round}
    (wants : r.observed = .wants [d]) {s₁ s₂ : Fleet × Nat}
    (upserted : r.answer (.upsertVIP d.vip) (s, 0) = (.ok (), s₁))
    (drained : (drainAll (vipKeyString d.vip) d.drainingBackends).run r.answer s₁ = (.ok (), s₂))
    (recorded : ∀ k ∈ s₂.1.recorded r.owner, k = vipKeyString d.vip) :
    (s.reconciled r).1 = .ok () ∧ (s.after r).plane = s₂.1.plane ∧
      ∀ k ∈ (s.after r).recorded r.owner, k = vipKeyString d.vip := by
  have walked : ∀ i, (r.envs i).order 0 [vipKeyString d.vip] = [vipKeyString d.vip] :=
    fun i => List.perm_singleton.mp ((r.envs i).order_perm 0 _)
  have nothing : removeStale [vipKeyString d.vip] (s₂.1.recorded r.owner) true = .done (.ok true) :=
    removeStale_of_wanted _ _ fun k member => by rw [recorded k member]; exact List.mem_singleton_self _
  have read : r.answer (.getInstalled r.owner.key) s₂ = (s₂.1.recorded r.owner, (s₂.1, s₂.2 + 1)) := rfl
  have run : (reconcile r.owner.key r.observed).run r.answer (s, 0) = (.ok (),
      ({ s₂.1 with installed := s₂.1.installed.insert r.owner [vipKeyString d.vip] }, s₂.2 + 4)) := by
    rw [wants]
    simp only [reconcile, removeAllFor, upsertAll, Prog.run_bind, upsertVIP_answer, upserted, drained,
      Prog.run_pure, getInstalled_answer, read, List.insert_nil, List.isEmpty_cons, Bool.not_false,
      nothing]
    simp [recordInstalled, Prog.run, Round.answer, Fleet.answer, walked]
  simp only [Fleet.after, Fleet.reconciled, run]
  refine ⟨trivial, trivial, fun k member => ?_⟩
  simpa [Fleet.recorded] using member

/-- A Service with one address and one port. -/
def webService : Service := ⟨true, ["10.0.0.1"], [⟨"http", .tcp, 80⟩], false, false⟩

/-- Its only endpoint, serving, and ready or not. -/
def webSlices (ready : Bool) : List EndpointSlice :=
  [⟨[⟨some "http", some 8080⟩], [⟨["10.1.0.1"], ⟨some ready, some true⟩, none⟩]⟩]

/-- The VIPs wanted for it. -/
def webVIPs (ready : Bool) : List DesiredVIP := buildDesiredVIPs webService (webSlices ready) ⟨"", none⟩

/-- A reconcile of it. -/
def webRound (ready : Bool) : Round := ⟨⟨.service, "default/web"⟩, .wants (webVIPs ready), fun _ => calm⟩

theorem webVIPs_ready : webVIPs true = [⟨plainVIP "10.0.0.1" ["10.1.0.1"], []⟩] := by decide +kernel

theorem webVIPs_draining :
    webVIPs false = [⟨plainVIP "10.0.0.1" ["10.1.0.1"], [plainBackend "10.1.0.1"]⟩] := by decide +kernel

/-- The data plane after a reconcile of the Service. -/
def webAfter (ready : Bool) (p : Dataplane) : Dataplane :=
  let q := p.upserted calm (plainVIP "10.0.0.1" ["10.1.0.1"])
  if ready then q
  else ((Op.setBackendDrainingByKey "10.0.0.1:80:tcp" "10.1.0.1:8080" true).outcome calm q).2.plane

theorem web_reconciled {leak : String → Nat} (owned : Owned leak s.plane) (ready : Bool)
    (fits : Fits s.plane (plainVIP "10.0.0.1" ["10.1.0.1"]))
    (marks : ((Op.setBackendDrainingByKey "10.0.0.1:80:tcp" "10.1.0.1:8080" true).outcome calm
      (s.plane.upserted calm (plainVIP "10.0.0.1" ["10.1.0.1"]))).1.isOk = true)
    (recorded : ∀ k ∈ s.recorded ⟨.service, "default/web"⟩, k = "10.0.0.1:80:tcp") :
    (s.reconciled (webRound ready)).1 = .ok () ∧
      (s.after (webRound ready)).plane = webAfter ready s.plane ∧
      ∀ k ∈ (s.after (webRound ready)).recorded ⟨.service, "default/web"⟩, k = "10.0.0.1:80:tcp" := by
  have key : vipKeyString (plainVIP "10.0.0.1" ["10.1.0.1"]) = "10.0.0.1:80:tcp" := by decide +kernel
  have name : backendName (plainBackend "10.1.0.1") = "10.1.0.1:8080" := by decide +kernel
  obtain ⟨w, run⟩ := upsertVIP_of_fits (s := ⟨s.plane, [], 0⟩) owned fits calm_reliable
  have plane : w.plane = s.plane.upserted calm (plainVIP "10.0.0.1" ["10.1.0.1"]) :=
    upsertVIP_plane owned run
  have outcome : (Op.upsertVIP (plainVIP "10.0.0.1" ["10.1.0.1"])).outcome calm s.plane = (.ok (), w) :=
    run
  have ready₀ := webVIPs_ready
  have draining₀ := webVIPs_draining
  simp only [webAfter]
  generalize plainVIP "10.0.0.1" ["10.1.0.1"] = vip at *
  have upserted : (webRound ready).answer (.upsertVIP vip) (s, 0) = (.ok (),
      (Fleet.note { s with plane := w.plane } ⟨.service, "default/web"⟩ (vipKeyString vip) (.ok ()), 1)) := by
    simp only [Round.answer, webRound, Fleet.answer, Fleet.perform, outcome]
  rw [← plane] at marks ⊢
  rw [← key] at recorded ⊢
  cases ready with
  | true =>
    exact Fleet.reconciled_single (d := ⟨vip, []⟩) (congrArg Observed.wants ready₀) upserted rfl recorded
  | false =>
    have marked : ((Op.setBackendDrainingByKey (vipKeyString vip) "10.1.0.1:8080" true).outcome calm
        w.plane).1 = .ok () := by
      rw [key]
      cases result : ((Op.setBackendDrainingByKey "10.0.0.1:80:tcp" "10.1.0.1:8080" true).outcome calm
          w.plane).1 with
      | ok _ => rfl
      | error e =>
        rw [result] at marks
        cases marks
    have drained : (drainAll (vipKeyString vip) [plainBackend "10.1.0.1"]).run (webRound false).answer
        (Fleet.note { s with plane := w.plane } ⟨.service, "default/web"⟩ (vipKeyString vip) (.ok ()), 1) =
        (.ok (), (Fleet.note { s with
          plane := ((Op.setBackendDrainingByKey (vipKeyString vip) "10.1.0.1:8080" true).outcome calm
            w.plane).2.plane } ⟨.service, "default/web"⟩ (vipKeyString vip) (.ok ()), 2)) := by
      simp only [drainAll, Prog.run_bind, setBackendDrainingByKey_answer, Round.answer, webRound,
        Fleet.answer, Fleet.perform, name]
      simp only [Fleet.note, Fleet.setTask_plane, marked, Prog.run_pure]
      rfl
    exact Fleet.reconciled_single (d := ⟨vip, [plainBackend "10.1.0.1"]⟩)
      (congrArg Observed.wants draining₀) upserted drained recorded

/-- Whether the backend of the Service is flagged. -/
def webFlag (p : Dataplane) : Option Bool :=
  (((p.services.get? "10.0.0.1:80:tcp").bind fun e => e.backendIDs.get? "10.1.0.1:8080").bind
    p.backendStates.get?).map BackendState.draining

/-- The Service's VIP can be programmed, and its backend marked. -/
def webFits (p : Dataplane) : Bool :=
  decide (Fits p (plainVIP "10.0.0.1" ["10.1.0.1"])) &&
    ((Op.setBackendDrainingByKey "10.0.0.1:80:tcp" "10.1.0.1:8080" true).outcome calm
      (p.upserted calm (plainVIP "10.0.0.1" ["10.1.0.1"]))).1.isOk

theorem web_step (owned : ∃ leak, Owned leak s.plane) (ready : Bool)
    (fits : webFits s.plane = true)
    (recorded : ∀ k ∈ s.recorded ⟨.service, "default/web"⟩, k = "10.0.0.1:80:tcp") :
    (s.reconciled (webRound ready)).1 = .ok () ∧
      (s.after (webRound ready)).plane = webAfter ready s.plane ∧
      ∀ k ∈ (s.after (webRound ready)).recorded ⟨.service, "default/web"⟩, k = "10.0.0.1:80:tcp" := by
  obtain ⟨leak, owned⟩ := owned
  simp only [webFits, Bool.and_eq_true, decide_eq_true_eq] at fits
  exact web_reconciled owned ready fits.1 fits.2 recorded

theorem web_returns {leak : String → Nat} {p : Dataplane} (owned : Owned leak p)
    (fits₁ : webFits p = true) (fits₂ : webFits (webAfter true p) = true)
    (fits₃ : webFits (webAfter false (webAfter true p)) = true) :
    ((Run.run Fleet.after (Fleet.start p) [webRound true, webRound false]).reconciled
      (webRound true)).1 = .ok () ∧
    ((Run.run Fleet.after (Fleet.start p) [webRound true, webRound false]).after
      (webRound true)).plane = webAfter true (webAfter false (webAfter true p)) := by
  have owned₀ : ∃ leak, Owned leak (Fleet.start p).plane := ⟨leak, owned⟩
  simp only [Run.run_cons, Run.run_nil]
  obtain ⟨-, plane₁, recorded₁⟩ := web_step owned₀ true fits₁ nofun
  have owned₁ := Fleet.after_owned owned₀ (webRound true)
  generalize (Fleet.start p).after (webRound true) = s₁ at *
  have start : (Fleet.start p).plane = p := rfl
  rw [start] at plane₁
  rw [← plane₁] at fits₂ fits₃ ⊢
  obtain ⟨-, plane₂, recorded₂⟩ := web_step owned₁ false fits₂ recorded₁
  have owned₂ := Fleet.after_owned owned₁ (webRound false)
  generalize s₁.after (webRound false) = s₂ at *
  rw [← plane₂] at fits₃ ⊢
  obtain ⟨ok, plane₃, -⟩ := web_step owned₂ true fits₃ recorded₂
  exact ⟨ok, plane₃⟩

theorem web_drains {leak : String → Nat} {p : Dataplane} (owned : Owned leak p)
    (fits₁ : webFits p = true) (fits₂ : webFits (webAfter true p) = true) :
    ((Run.run Fleet.after (Fleet.start p) [webRound true]).reconciled (webRound false)).1 = .ok () := by
  have owned₀ : ∃ leak, Owned leak (Fleet.start p).plane := ⟨leak, owned⟩
  simp only [Run.run_cons, Run.run_nil]
  obtain ⟨-, plane₁, recorded₁⟩ := web_step owned₀ true fits₁ nofun
  have owned₁ := Fleet.after_owned owned₀ (webRound true)
  generalize (Fleet.start p).after (webRound true) = s₁ at *
  have start : (Fleet.start p).plane = p := rfl
  rw [start] at plane₁
  rw [← plane₁] at fits₂
  exact (web_step owned₁ false fits₂ recorded₁).1

end Inputs

/-- An endpoint that was draining and is ready again leaves its backend flagged. -/
theorem returned_endpoint_stays_flagged :
    ((Run.run Fleet.after (Fleet.start (.new plainNode)) [webRound true, webRound false]).reconciled
      (webRound true)).1 = .ok () ∧
    (∀ d ∈ webVIPs true, d.drainingBackends = []) ∧
    webFlag ((Run.run Fleet.after (Fleet.start (.new plainNode)) [webRound true, webRound false]).after
      (webRound true)).plane = some true := by
  have computed : (webFits (.new plainNode) && webFits (webAfter true (.new plainNode)) &&
      webFits (webAfter false (webAfter true (.new plainNode))) &&
      decide (webFlag (webAfter true (webAfter false (webAfter true (.new plainNode)))) = some true)) =
      true := by decide +kernel
  have owned := Owned.new plainNode
  generalize Dataplane.new plainNode = p at computed owned ⊢
  simp only [Bool.and_eq_true, decide_eq_true_eq] at computed
  obtain ⟨⟨⟨fits₁, fits₂⟩, fits₃⟩, flag⟩ := computed
  obtain ⟨ok, plane⟩ := web_returns owned fits₁ fits₂ fits₃
  refine ⟨ok, ?_, ?_⟩
  · rw [webVIPs_ready]
    exact fun d member => List.mem_singleton.mp member ▸ rfl
  · rw [plane]
    exact flag

/-- An endpoint that starts draining has its backend flagged. -/
theorem drain_flags_match_draining_endpoint :
    ∃ id st, Lists ((Run.run Fleet.after (Fleet.start (.new plainNode)) [webRound true]).after
        (webRound false)).plane "10.0.0.1:80:tcp" "10.1.0.1:8080" id ∧
      ((Run.run Fleet.after (Fleet.start (.new plainNode)) [webRound true]).after
        (webRound false)).plane.backendStates.get? id = some st ∧ st.draining = true := by
  have key : vipKeyString (plainVIP "10.0.0.1" ["10.1.0.1"]) = "10.0.0.1:80:tcp" := by decide +kernel
  have listed : names (plainVIP "10.0.0.1" ["10.1.0.1"]).backends = ["10.1.0.1:8080"] := by
    decide +kernel
  have drained : names [plainBackend "10.1.0.1"] = ["10.1.0.1:8080"] := by decide +kernel
  have computed : (webFits (.new plainNode) && webFits (webAfter true (.new plainNode))) = true := by
    decide +kernel
  have owned := Owned.new plainNode
  generalize Dataplane.new plainNode = p at computed owned ⊢
  simp only [Bool.and_eq_true] at computed
  have ok := web_drains owned computed.1 computed.2
  have noReturns : NoReturns (Run.run Fleet.after (Fleet.start p) [webRound true]).plane
      [⟨plainVIP "10.0.0.1" ["10.1.0.1"], [plainBackend "10.1.0.1"]⟩] := by
    intro d member name among absent
    cases List.mem_singleton.mp member
    rw [listed] at among
    rw [drained] at absent
    exact absurd among absent
  have alone : [(⟨plainVIP "10.0.0.1" ["10.1.0.1"], [plainBackend "10.1.0.1"]⟩ : DesiredVIP)] =
      [] ++ ⟨plainVIP "10.0.0.1" ["10.1.0.1"], [plainBackend "10.1.0.1"]⟩ :: [] := rfl
  obtain ⟨lists, flags⟩ := drain_flags_match_endpoints owned
    (congrArg Observed.wants webVIPs_draining) noReturns ok alone nofun
  rw [key, listed] at lists
  obtain ⟨id, lists⟩ := (lists "10.1.0.1:8080").mpr (List.mem_singleton_self _)
  obtain ⟨st, known, flag⟩ := flags _ id (key ▸ lists)
  exact ⟨id, st, lists, known, flag.mpr (drained ▸ List.mem_singleton_self _)⟩

end Rivora.Reconciler

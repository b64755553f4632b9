import Rivora.Proofs.ImageRuns

/-! What an operation leaves behind, whether or not it fails. -/

namespace Rivora

/-- What an attempt to program a VIP leaves behind. -/
structure Attempted (spec : VIP) (p q : Dataplane) (r : Except GoError Unit) : Prop where
  owned : ∃ leak, Owned leak q
  others : ∀ k, k ≠ vipKeyString spec → q.services.get? k = p.services.get? k
  stays : p.services.contains (vipKeyString spec) = true →
    q.services.contains (vipKeyString spec) = true
  enters : r = .ok () → q.services.contains (vipKeyString spec) = true
  tunnel : q.checkTunnelReady = p.checkTunnelReady
  lineage : ∀ {id st'}, q.backendStates.get? id = some st' →
    (∃ st, p.backendStates.get? id = some st ∧ st'.Continues st) ∨
      (p.backendAlloc.ids.get? st'.name = none ∧ (p.wanted spec).contains st'.name = true ∧
        st'.Unmarked)

section

variable {leak : String → Nat} {spec : VIP} {p q : Dataplane} {e : ServiceEntry} {ws : List MapWrite}

theorem Arranged.attempted (arranged : Arranged leak spec p q e ws) (err : GoError) :
    Attempted spec p q (.error err) where
  owned := ⟨leak, arranged.owned⟩
  others := arranged.others
  stays _ := by rw [FMap.contains, arranged.entry]; rfl
  enters := nofun
  tunnel := by rw [arranged.rest]; rfl
  lineage := arranged.lineage

theorem Attempted.rearranged {r : Except GoError Unit} (attempted : Attempted spec p q r)
    {q' : Dataplane} (rest : q' = { q with services := q'.services, maglevAlloc := q'.maglevAlloc })
    (owned : ∃ leak, Owned leak q')
    (others : ∀ k, k ≠ vipKeyString spec → q'.services.get? k = q.services.get? k)
    (entry : q'.services.contains (vipKeyString spec) = true) : Attempted spec p q' r where
  owned := owned
  others k differ := (others k differ).trans (attempted.others k differ)
  stays _ := entry
  enters _ := entry
  tunnel := by rw [rest]; exact attempted.tunnel
  lineage stored := by rw [rest] at stored; exact attempted.lineage stored

theorem upsertVIP_attempted {env : Env} {s s' : World} {r : Except GoError Unit}
    (owned : Owned leak s.plane) (run : upsertVIP spec env s = (r, s')) :
    Attempted spec s.plane s'.plane r := by
  have ends := upsertVIP_run spec env owned
  rw [run] at ends
  cases ends with
  | refused reason =>
    exact ⟨⟨leak, owned⟩, fun _ _ => rfl, id, nofun, rfl,
      fun {_ st'} stored => Or.inl ⟨st', stored, .refl st'⟩⟩
  | unsettled arranged logged reason => exact arranged.attempted _
  | unbuilt settled logged rest tiled stop =>
    -- A range that could not be filled has been given back, so the rest is as settled.
    have services := congrArg Dataplane.services rest
    refine (settled.toArranged.attempted _).rearranged (by rw [rest]) ⟨leak, ?_, ?_, tiled, ?_⟩ ?_ ?_
    · rw [rest]
      exact settled.owned.backends.congr (fun _ => rfl) (fun _ => rfl) rfl
    · rw [rest]
      exact settled.owned.services.congr (fun _ => rfl) rfl
    · intro key entry found
      rw [services] at found
      exact settled.owned.sized found
    · intro k _
      rw [services]
    · rw [services, FMap.contains, settled.entry]
      rfl
  | unprogrammed settled logged built logged' plane stop =>
    obtain ⟨rest, others, _⟩ := built.rest
    rw [plane]
    refine (settled.toArranged.attempted _).rearranged rest ⟨leak, built.owned settled⟩ others ?_
    rw [FMap.contains, built.entry settled]
    rfl
  | done settled logged built logged' able logged'' plane =>
    obtain ⟨f, ip, ws, ws', up, _⟩ := upsertVIP_ok owned run
    have entry : s'.plane.services.contains (vipKeyString spec) = true := by
      rw [FMap.contains, up.entry]
      rfl
    refine ⟨⟨leak, up.owned⟩, up.others, fun _ => entry, fun _ => entry, by rw [up.rest]; rfl, fun stored => ?_⟩
    have lineage := up.lineage stored
    rw [up.vip] at lineage
    exact lineage

theorem Owned.upsert_attempted (owned : Owned leak p) (vip : VIP) (env : Env) :
    Attempted vip p ((Op.upsertVIP vip).outcome env p).2.plane ((Op.upsertVIP vip).outcome env p).1 :=
  upsertVIP_attempted (s := ⟨p, [], 0⟩) owned rfl

/-- Every state of a backend goes on from an earlier one or starts unmarked. -/
structure Follows (p q : Dataplane) : Prop where
  owned : ∃ leak, Owned leak q
  lineage : ∀ {id st'}, q.backendStates.get? id = some st' →
    (∃ st, p.backendStates.get? id = some st ∧ st'.Continues st) ∨
      (p.backendAlloc.ids.get? st'.name = none ∧ st'.Unmarked)

theorem Follows.refl (owned : Owned leak p) : Follows p p :=
  ⟨⟨leak, owned⟩, fun {_ st'} stored => Or.inl ⟨st', stored, .refl st'⟩⟩

theorem Attempted.follows {vip : VIP} {r : Except GoError Unit} (attempted : Attempted vip p q r) :
    Follows p q :=
  ⟨attempted.owned, fun stored => (attempted.lineage stored).imp_right fun ⟨unused, _, unmarked⟩ =>
    ⟨unused, unmarked⟩⟩

theorem Owned.remove_follows (owned : Owned leak p) (key : String) (env : Env) :
    Follows p ((Op.removeVIP key).outcome env p).2.plane ∧ ∀ k, k ≠ key →
      ((Op.removeVIP key).outcome env p).2.plane.services.get? k = p.services.get? k := by
  have plane : ((Op.removeVIP key).outcome env p).2.plane =
      (removeVIP key env ⟨p, [], 0⟩).2.plane := rfl
  rw [plane]
  rcases removeVIP_run key env (s := ⟨p, [], 0⟩) owned with
    ⟨_, run⟩ | ⟨entry, s', ws₁, ws₂, _, run, _, removed⟩
  · rw [run]
    exact ⟨.refl owned, fun _ _ => rfl⟩
  · rw [run]
    exact ⟨⟨⟨leak, removed.owned⟩, fun stored => Or.inl (removed.lineage stored)⟩, removed.others⟩

end

theorem setBackendDrainingByKey_marks {leak : String → Nat} {p : Dataplane} (owned : Owned leak p)
    (vipKey backendKey : String) (draining : Bool) (env : Env) :
    ((∀ id, ¬ Lists p vipKey backendKey id) ∧
      ((Op.setBackendDrainingByKey vipKey backendKey draining).outcome env p).2.plane = p) ∨
    ∃ id, Lists p vipKey backendKey id ∧
      ((Op.setBackendDrainingByKey vipKey backendKey draining).outcome env p).2.plane =
        p.modifyBackend id fun st => st.mark draining .drain := by
  rw [Op.outcome, Op.run, Rivora.setBackendDrainingByKey]
  simp only [Effect.bind_apply, getPlane_apply]
  cases found : p.services.get? vipKey with
  | none =>
    refine Or.inl ⟨?_, rfl⟩
    rintro id ⟨e, stored, _⟩
    rw [found] at stored
    cases stored
  | some entry =>
    cases named : entry.backendIDs.get? backendKey with
    | none =>
      refine Or.inl ⟨?_, by dsimp only; rw [named]; rfl⟩
      rintro id ⟨e, stored, lists⟩
      rw [found] at stored
      cases stored
      rw [named] at lists
      cases lists
    | some id =>
      refine Or.inr ⟨id, ⟨entry, found, named⟩, ?_⟩
      obtain ⟨st, known, _⟩ := owned.backends.state_of_listed found named
      dsimp only
      rw [named]
      have marked := setMark_run .drain id draining env (s := ⟨p, [], 0⟩) owned.backends
      rcases marked with ⟨unknown, _⟩ | ⟨_, s', _, plane, ⟨run, _⟩ | ⟨⟨e, run⟩, _⟩⟩
      · rw [known] at unknown
        cases unknown
      · exact (congrArg (fun r => r.2.plane) run).trans plane
      · exact (congrArg (fun r => r.2.plane) run).trans plane

end Rivora

import Rivora.Controller.Fleet
import Rivora.Proofs.Attempts

/-! What the answer to one call of a reconcile does to the data plane and to the work on every object. -/

namespace Rivora.Reconciler

variable {s : Fleet} {o : Owner} {env : Env} {c : Call}

theorem Fleet.note_fields (s : Fleet) (o : Owner) (key : String) (r : Except GoError Unit) :
    (s.note o key r).plane = s.plane ∧ (∀ other, (s.note o key r).recorded other = s.recorded other) ∧
      (∀ other, other ≠ o → (s.note o key r).tasks other = s.tasks other) ∧
      ((s.note o key r).tasks o).wanted = (s.tasks o).wanted ∧
      ∀ k ∈ ((s.note o key r).tasks o).programmed, k ∈ (s.tasks o).programmed ∨ (r = .ok () ∧ k = key) := by
  cases r with
  | error e => exact ⟨rfl, fun _ => rfl, fun _ _ => rfl, rfl, fun _ member => Or.inl member⟩
  | ok _ =>
    refine ⟨rfl, fun _ => rfl, fun other differ => s.setTask_of_ne _ differ, ?_, ?_⟩
    · simp [Fleet.note]
    · intro k member
      simp only [Fleet.note, Fleet.setTask_self, List.mem_cons] at member
      rcases member with rfl | before
      · exact Or.inr ⟨rfl, rfl⟩
      · exact Or.inl before

theorem Fleet.answer_tasks_of_ne {other : Owner} (differ : other ≠ o) :
    (Fleet.answer o env c s).2.tasks other = s.tasks other := by
  cases c with
  | upsertVIP vip => exact (Fleet.note_fields _ o _ _).2.2.1 other differ
  | setBackendDrainingByKey vipKey backendKey draining => rfl
  | removeVIP key => rfl
  | getInstalled key => rfl
  | setInstalled key keys => rfl
  | deleteInstalled key => rfl
  | iterate keys => rfl
  | onChange => rfl

theorem Fleet.answer_task :
    ((Fleet.answer o env c s).2.tasks o).wanted = (s.tasks o).wanted ∧
    ∀ k ∈ ((Fleet.answer o env c s).2.tasks o).programmed, k ∈ (s.tasks o).programmed ∨
      ∃ vip, c = .upsertVIP vip ∧ k = vipKeyString vip ∧
        ((Op.upsertVIP vip).outcome env s.plane).1 = .ok () := by
  have same : ∀ s' : Fleet, s'.tasks o = s.tasks o → (s'.tasks o).wanted = (s.tasks o).wanted ∧
      ∀ k ∈ (s'.tasks o).programmed, k ∈ (s.tasks o).programmed ∨
        ∃ vip, c = .upsertVIP vip ∧ k = vipKeyString vip ∧
          ((Op.upsertVIP vip).outcome env s.plane).1 = .ok () := by
    intro s' task
    rw [task]
    exact ⟨rfl, fun _ member => Or.inl member⟩
  cases c with
  | upsertVIP vip =>
    obtain ⟨_, _, _, wanted, noted⟩ :=
      Fleet.note_fields (s.perform (.upsertVIP vip) env).2 o (vipKeyString vip)
        (s.perform (.upsertVIP vip) env).1
    refine ⟨wanted, fun k member => ?_⟩
    rcases noted k member with before | ⟨ok, rfl⟩
    · exact Or.inl before
    · exact Or.inr ⟨vip, rfl, rfl, ok⟩
  | setBackendDrainingByKey vipKey backendKey draining => exact same _ rfl
  | removeVIP key => exact same _ rfl
  | getInstalled key => exact same _ rfl
  | setInstalled key keys => exact same _ rfl
  | deleteInstalled key => exact same _ rfl
  | iterate keys => exact same _ rfl
  | onChange => exact same _ rfl

theorem Fleet.answer_wanted (env : Env) (c : Call) (other : Owner) :
    ((Fleet.answer o env c s).2.tasks other).wanted = (s.tasks other).wanted := by
  by_cases mine : other = o
  · subst mine
    exact Fleet.answer_task.1
  · rw [Fleet.answer_tasks_of_ne mine]

theorem Fleet.step_call {env : Env} {c : Call} {next : c.Reply → Reconcile (Except GoError Unit)}
    (left : (s.tasks o).left = some (.call c next)) :
    s.step (.advance o env) = (Fleet.answer o env c s).2.setTask o
      { (Fleet.answer o env c s).2.tasks o with left := some (next (Fleet.answer o env c s).1) } := by
  simp only [Fleet.step, left]

theorem Fleet.answer_plane {leak : String → Nat} (owned : Owned leak s.plane) (o : Owner) (env : Env)
    (c : Call) :
    (∃ leak', Owned leak' (Fleet.answer o env c s).2.plane) ∧
    (∀ k, s.plane.services.contains k = true → c ≠ .removeVIP k →
      (Fleet.answer o env c s).2.plane.services.contains k = true) ∧
    ∀ vip, c = .upsertVIP vip → ((Op.upsertVIP vip).outcome env s.plane).1 = .ok () →
      (Fleet.answer o env c s).2.plane.services.contains (vipKeyString vip) = true := by
  have same : ∀ s' : Fleet, s'.plane = s.plane → (∀ vip, c ≠ .upsertVIP vip) →
      (∃ leak', Owned leak' s'.plane) ∧
      (∀ k, s.plane.services.contains k = true → c ≠ .removeVIP k →
        s'.plane.services.contains k = true) ∧
      ∀ vip, c = .upsertVIP vip → ((Op.upsertVIP vip).outcome env s.plane).1 = .ok () →
        s'.plane.services.contains (vipKeyString vip) = true := by
    intro s' plane no
    rw [plane]
    exact ⟨⟨leak, owned⟩, fun _ member _ => member, fun vip is => absurd is (no vip)⟩
  cases c with
  | upsertVIP vip =>
    have attempted := owned.upsert_attempted vip env
    have plane : (Fleet.answer o env (.upsertVIP vip) s).2.plane =
        ((Op.upsertVIP vip).outcome env s.plane).2.plane :=
      (Fleet.note_fields _ o _ _).1
    rw [plane]
    refine ⟨attempted.owned, fun k member _ => ?_, ?_⟩
    · by_cases this : k = vipKeyString vip
      · subst this
        exact attempted.stays member
      · rw [FMap.contains, attempted.others k this]
        exact member
    · rintro _ ⟨⟩ ok
      exact attempted.enters ok
  | setBackendDrainingByKey vipKey backendKey draining =>
    have plane : (Fleet.answer o env (.setBackendDrainingByKey vipKey backendKey draining) s).2.plane =
        ((Op.setBackendDrainingByKey vipKey backendKey draining).outcome env s.plane).2.plane := rfl
    rcases setBackendDrainingByKey_marks owned vipKey backendKey draining env with
      ⟨_, unchanged⟩ | ⟨id, _, marked⟩
    · exact same _ (plane.trans unchanged) fun _ is => (by cases is)
    · rw [plane, marked]
      refine ⟨⟨leak, owned.mark id draining .drain⟩, fun k member _ => ?_, fun _ is => (by cases is)⟩
      rw [modifyBackend_rest]
      exact member
  | removeVIP key =>
    have plane : (Fleet.answer o env (.removeVIP key) s).2.plane =
        (Rivora.removeVIP key env ⟨s.plane, [], 0⟩).2.plane := rfl
    rcases removeVIP_run key env (s := ⟨s.plane, [], 0⟩) owned with
      ⟨_, run⟩ | ⟨entry, s', ws₁, ws₂, _, run, _, removed⟩
    · exact same _ (plane.trans (by rw [run])) fun _ is => (by cases is)
    · rw [plane, run]
      refine ⟨⟨leak, removed.owned⟩, fun k member differ => ?_, fun _ is => (by cases is)⟩
      rw [FMap.contains, removed.others k (fun this => differ (this ▸ rfl))]
      exact member
  | getInstalled key => exact same _ rfl fun _ is => (by cases is)
  | setInstalled key keys => exact same _ rfl fun _ is => (by cases is)
  | deleteInstalled key => exact same _ rfl fun _ is => (by cases is)
  | iterate keys => exact same _ rfl fun _ is => (by cases is)
  | onChange => exact same _ rfl fun _ is => (by cases is)

end Rivora.Reconciler

import Rivora.Proofs.FleetRuns
import Rivora.Proofs.Rehearsal

/-! A VIP that moves from one object to another. -/

namespace Rivora.Reconciler

open Interaction

/-- What one object's reconcile may call, given what it wants and what is recorded for it. -/
def ownSpec (key : String) (wanted : List String) : Spec Call.Reply (List String) where
  may recorded
    | .upsertVIP vip => vipKeyString vip ∈ wanted
    | .removeVIP k => k ∈ recorded ∧ k ∉ wanted
    | .getInstalled k | .deleteInstalled k => k = key
    | .setInstalled k keys => k = key ∧ keys ⊆ wanted
    | .setBackendDrainingByKey _ _ _ | .iterate _ | .onChange => True
  answers recorded c r recorded' := match c, r with
    | .getInstalled _, r => r = recorded ∧ recorded' = recorded
    | .iterate keys, r => r.Perm keys ∧ recorded' = recorded
    | .setInstalled _ keys, _ => recorded' = keys
    | .deleteInstalled _, _ => recorded' = []
    | .upsertVIP _, _ | .setBackendDrainingByKey _ _ _, _ | .removeVIP _, _ | .onChange, _ =>
      recorded' = recorded

section Lawful

variable {key : String} {wanted recorded : List String}

theorem drainAll_lawful (vipKey : String) (backends : List Backend) :
    (drainAll vipKey backends).Meets (ownSpec key wanted) (fun _ s => s = recorded) recorded :=
  (drainAll_calls vipKey backends).keeps
    (fun _ _ ⟨_, _, is⟩ same => is ▸ ⟨trivial, fun _ _ answered => Eq.trans answered same⟩) rfl

theorem upsertAll_lawful (desired : List DesiredVIP) (newKeys : List String)
    (among : ∀ k ∈ (Observed.wants desired).keys, k ∈ wanted) :
    (upsertAll desired newKeys).Meets (ownSpec key wanted) (fun r s => s = recorded ∧
      ∀ keys, r = .ok keys → ∀ k, k ∈ keys ↔ k ∈ newKeys ∨ k ∈ (Observed.wants desired).keys)
      recorded := by
  induction desired generalizing newKeys with
  | nil =>
    refine ⟨rfl, ?_⟩
    rintro keys ⟨⟩
    simp [Observed.keys]
  | cons d rest ih =>
    refine .bind (.ask (among _ List.mem_cons_self) fun r s same => ?_)
    obtain rfl : s = recorded := same
    cases r with
    | error e => exact ⟨rfl, nofun⟩
    | ok _ =>
      refine .bind (Prog.Meets.mono (drainAll_lawful _ _) fun r s' same => ?_)
      obtain rfl := same
      cases r with
      | error e => exact ⟨rfl, nofun⟩
      | ok _ =>
        refine Prog.Meets.mono (ih _ fun k member => among k (List.mem_cons_of_mem _ member))
          fun r s' after => ⟨after.1, fun keys ok k => ?_⟩
        simp only [after.2 keys ok k, List.mem_insert_iff, Observed.keys, List.map_cons, List.mem_cons]
        tauto

theorem removeStale_lawful {newKeys : List String} (all : ∀ k ∈ wanted, k ∈ newKeys)
    (previous : List String) (listed : previous ⊆ recorded) (changed : Bool) :
    (removeStale newKeys previous changed).Meets (ownSpec key wanted) (fun _ s => s = recorded)
      recorded := by
  refine (removeStale_calls newKeys previous changed).keeps ?_ rfl
  rintro _ s ⟨k, member, unwanted, rfl⟩ rfl
  exact ⟨⟨listed member, fun needed => unwanted (all k needed)⟩, fun _ _ answered => answered⟩

/-- A reconcile removes only what was recorded for its own object and is no longer wanted. -/
theorem reconcile_lawful (key : String) (observed : Observed) (recorded : List String) :
    (reconcile key observed).Meets (ownSpec key observed.keys) (fun _ _ => True) recorded := by
  have applied : ∀ desired, (removeAllFor key desired).Meets
      (ownSpec key (Observed.wants desired).keys) (fun _ _ => True) recorded := by
    intro desired
    refine .bind (Prog.Meets.mono (upsertAll_lawful desired [] fun _ member => member)
      fun r s upserted => ?_)
    obtain ⟨rfl, exact⟩ := upserted
    cases r with
    | error e => trivial
    | ok newKeys =>
      have all : ∀ k, k ∈ newKeys ↔ k ∈ (Observed.wants desired).keys := by
        intro k
        simp [exact newKeys rfl k]
      refine .bind (.ask rfl fun previous s' read => ?_)
      obtain ⟨rfl, rfl⟩ := read
      refine .bind (Prog.Meets.mono (removeStale_lawful (fun k => (all k).mpr) _
        (List.Subset.refl _) _) fun r s' same => ?_)
      obtain rfl := same
      cases r with
      | error e => trivial
      | ok changed =>
        -- The record is set to the wanted keys, in some order.
        have recording : (recordInstalled key newKeys).Meets
            (ownSpec key (Observed.wants desired).keys) (fun _ _ => True) s' := by
          unfold recordInstalled
          split
          · exact .ask rfl fun _ _ _ => trivial
          · refine .bind (.ask trivial fun (keys : List String) s₁ listed => ?_)
            refine .ask ⟨rfl, fun k member => ?_⟩ fun _ _ _ => trivial
            exact (all k).mp (listed.1.mem_iff.mp member)
        refine .bind (Prog.Meets.mono recording fun _ s₁ _ => ?_)
        cases changed with
        | false => trivial
        | true => exact .bind (.ask trivial fun _ _ _ => trivial)
  cases observed with
  | unmanaged => exact applied []
  | failed e => trivial
  | wants desired => exact applied desired

end Lawful

section Answers

variable {s : Fleet} {o : Owner} {env : Env} {c : Call}

theorem Fleet.answer_recorded (env : Env) {wanted : List String}
    (permitted : (ownSpec o.key wanted).may (s.recorded o) c) :
    (ownSpec o.key wanted).answers (s.recorded o) c (Fleet.answer o env c s).1
        ((Fleet.answer o env c s).2.recorded o) ∧
      ∀ other, other ≠ o → (Fleet.answer o env c s).2.recorded other = s.recorded other := by
  cases c with
  | upsertVIP vip =>
    have noted := (Fleet.note_fields (s.perform (.upsertVIP vip) env).2 o (vipKeyString vip)
      (s.perform (.upsertVIP vip) env).1).2.1
    exact ⟨noted o, fun other _ => noted other⟩
  | setBackendDrainingByKey vipKey backendKey draining => exact ⟨rfl, fun _ _ => rfl⟩
  | removeVIP key => exact ⟨rfl, fun _ _ => rfl⟩
  | getInstalled key =>
    obtain rfl : key = o.key := permitted
    exact ⟨⟨rfl, rfl⟩, fun _ _ => rfl⟩
  | setInstalled key keys =>
    obtain rfl : key = o.key := permitted.1
    refine ⟨congrArg (Option.getD · []) (FMap.get?_insert_self _ _ _), fun other differ => ?_⟩
    exact congrArg (Option.getD · []) (FMap.get?_insert_of_ne _ _ differ)
  | deleteInstalled key =>
    obtain rfl : key = o.key := permitted
    refine ⟨congrArg (Option.getD · []) (FMap.get?_erase_self _ _), fun other differ => ?_⟩
    exact congrArg (Option.getD · []) (FMap.get?_erase_of_ne _ differ)
  | iterate keys => exact ⟨⟨env.order_perm 0 keys, rfl⟩, fun _ _ => rfl⟩
  | onChange => exact ⟨rfl, fun _ _ => rfl⟩

end Answers

/-- A VIP is taken up only when no other object wants it or still has it on record. -/
def Orderly (s : Fleet) : Turn → Prop
  | .start o observed => ∀ other, other ≠ o → ∀ k ∈ observed.keys,
    k ∉ s.recorded other ∧ k ∉ (s.tasks other).wanted
  | .advance _ _ => True

/-- No two objects share a VIP, and what a reconcile has programmed is programmed still. -/
structure Fleet.Apart (s : Fleet) : Prop where
  owned : ∃ leak, Owned leak s.plane
  alone : ∀ a b, a ≠ b → ∀ k ∈ (s.tasks b).wanted, k ∉ s.recorded a ∧ k ∉ (s.tasks a).wanted
  wanted : ∀ o, ∀ k ∈ (s.tasks o).programmed, k ∈ (s.tasks o).wanted
  there : ∀ o, ∀ k ∈ (s.tasks o).programmed, s.plane.services.contains k = true

/-- What is left of every reconcile keeps to its own object. -/
def Fleet.Lawful (s : Fleet) : Prop :=
  ∀ o p, (s.tasks o).left = some p →
    p.Meets (ownSpec o.key (s.tasks o).wanted) (fun _ _ => True) (s.recorded o)

section Steps

variable {s : Fleet} {o : Owner}

theorem ownSpec_recorded {key : String} {wanted recorded recorded' : List String} {c : Call}
    {r : c.Reply} (permitted : (ownSpec key wanted).may recorded c)
    (answered : (ownSpec key wanted).answers recorded c r recorded') :
    ∀ k ∈ recorded', k ∈ recorded ∨ k ∈ wanted := by
  have same : recorded' = recorded → ∀ k ∈ recorded', k ∈ recorded ∨ k ∈ wanted := by
    rintro rfl k member
    exact Or.inl member
  cases c with
  | setInstalled k keys =>
    obtain rfl : recorded' = keys := answered
    exact fun k member => Or.inr (permitted.2 member)
  | deleteInstalled k =>
    obtain rfl : recorded' = [] := answered
    nofun
  | getInstalled k => exact same answered.2
  | iterate keys => exact same answered.2
  | upsertVIP vip => exact same answered
  | setBackendDrainingByKey vipKey backendKey draining => exact same answered
  | removeVIP k => exact same answered
  | onChange => exact same answered

theorem Fleet.Apart.setTask (apart : s.Apart) {t : Task}
    (alone : ∀ other, other ≠ o → ∀ k ∈ t.wanted, k ∉ s.recorded other ∧ k ∉ (s.tasks other).wanted)
    (wanted : ∀ k ∈ t.programmed, k ∈ t.wanted)
    (there : ∀ k ∈ t.programmed, s.plane.services.contains k = true) : (s.setTask o t).Apart := by
  refine ⟨apart.owned, fun a b differ k member => ?_, fun b k member => ?_, fun b k member => ?_⟩
  · -- The changed object is the one that wants the VIP, or the one that might share it, or neither.
    by_cases mine : b = o
    · subst mine
      rw [Fleet.setTask_self] at member
      rw [Fleet.setTask_recorded, Fleet.setTask_of_ne _ _ differ]
      exact alone a differ k member
    · rw [Fleet.setTask_of_ne _ _ mine] at member
      obtain ⟨unrecorded, unwanted⟩ := apart.alone a b differ k member
      refine ⟨unrecorded, ?_⟩
      by_cases other : a = o
      · subst other
        rw [Fleet.setTask_self]
        exact fun shared => (alone b mine k shared).2 member
      · rw [Fleet.setTask_of_ne _ _ other]
        exact unwanted
  · by_cases mine : b = o
    · subst mine
      rw [Fleet.setTask_self] at member ⊢
      exact wanted k member
    · rw [Fleet.setTask_of_ne _ _ mine] at member ⊢
      exact apart.wanted b k member
  · by_cases mine : b = o
    · subst mine
      rw [Fleet.setTask_self] at member
      exact there k member
    · rw [Fleet.setTask_of_ne _ _ mine] at member
      exact apart.there b k member

theorem Fleet.Apart.setLeft (apart : s.Apart) (left : Option (Reconcile (Except GoError Unit))) :
    (s.setTask o { s.tasks o with left := left }).Apart :=
  apart.setTask (fun other differ k member => apart.alone other o differ k member)
    (apart.wanted o) (apart.there o)

/-- A permitted call takes nothing from another object. -/
theorem Fleet.Apart.spared (apart : s.Apart) {c : Call}
    (permitted : (ownSpec o.key (s.tasks o).wanted).may (s.recorded o) c) {b : Owner} {k : String}
    (programmed : k ∈ (s.tasks b).programmed) : c ≠ .removeVIP k := by
  rintro rfl
  have wanted := apart.wanted b k programmed
  by_cases mine : b = o
  · exact permitted.2 (mine ▸ wanted)
  · exact (apart.alone o b (Ne.symm mine) k wanted).1 permitted.1

theorem Fleet.Apart.answer (apart : s.Apart) {env : Env} {c : Call}
    (permitted : (ownSpec o.key (s.tasks o).wanted).may (s.recorded o) c) :
    (Fleet.answer o env c s).2.Apart := by
  obtain ⟨leak, owned⟩ := apart.owned
  obtain ⟨owned', kept, entered⟩ := Fleet.answer_plane owned o env c
  obtain ⟨answered, others⟩ := Fleet.answer_recorded env permitted
  refine ⟨owned', fun a b differ k member => ?_, fun b k member => ?_, fun b k member => ?_⟩
  · rw [Fleet.answer_wanted] at member ⊢
    obtain ⟨unrecorded, unwanted⟩ := apart.alone a b differ k member
    refine ⟨fun recorded => ?_, unwanted⟩
    by_cases mine : a = o
    · subst mine
      rcases ownSpec_recorded permitted answered k recorded with before | own
      · exact unrecorded before
      · exact unwanted own
    · rw [others a mine] at recorded
      exact unrecorded recorded
  · rw [Fleet.answer_wanted]
    by_cases mine : b = o
    · subst mine
      rcases Fleet.answer_task.2 k member with before | ⟨vip, rfl, rfl, _⟩
      · exact apart.wanted b k before
      · exact permitted
    · rw [Fleet.answer_tasks_of_ne mine] at member
      exact apart.wanted b k member
  · by_cases mine : b = o
    · subst mine
      rcases Fleet.answer_task.2 k member with before | ⟨vip, is, rfl, ok⟩
      · exact kept k (apart.there b k before) (apart.spared permitted before)
      · exact entered vip is ok
    · rw [Fleet.answer_tasks_of_ne mine] at member
      exact kept k (apart.there b k member) (apart.spared permitted member)

theorem Fleet.Lawful.setTask {s' : Fleet} (lawful : s.Lawful) {t : Task}
    (tasks : ∀ other, other ≠ o → s'.tasks other = s.tasks other)
    (records : ∀ other, other ≠ o → s'.recorded other = s.recorded other)
    (mine : ∀ p, t.left = some p →
      p.Meets (ownSpec o.key t.wanted) (fun _ _ => True) (s'.recorded o)) :
    (s'.setTask o t).Lawful := by
  intro other p left
  by_cases this : other = o
  · subst this
    rw [Fleet.setTask_self] at left ⊢
    exact mine p left
  · rw [Fleet.setTask_of_ne _ _ this, tasks other this] at left ⊢
    rw [Fleet.setTask_recorded, records other this]
    exact lawful other p left

/-- One turn keeps the objects apart. -/
theorem Fleet.step_keeps {turn : Turn} (kept : s.Apart ∧ s.Lawful) (orderly : Orderly s turn) :
    (s.step turn).Apart ∧ (s.step turn).Lawful := by
  obtain ⟨apart, lawful⟩ := kept
  cases turn with
  | start o observed =>
    simp only [Fleet.step]
    cases idle : (s.tasks o).left with
    | some p => exact ⟨apart, lawful⟩
    | none =>
      -- A look-up that succeeded replaces what is wanted; a failed one leaves it.
      have taken : observed.keys = ((s.tasks o).begin o.key observed).wanted →
          ((s.tasks o).begin o.key observed).programmed = [] →
          ((s.tasks o).begin o.key observed).left = some (reconcile o.key observed) →
          (s.setTask o ((s.tasks o).begin o.key observed)).Apart ∧
          (s.setTask o ((s.tasks o).begin o.key observed)).Lawful := by
        intro wanted programmed left
        refine ⟨apart.setTask (wanted ▸ orderly) (by simp [programmed])
          (by simp [programmed]), lawful.setTask (fun _ _ => rfl) (fun _ _ => rfl) ?_⟩
        intro p begun
        cases left.symm.trans begun
        rw [← wanted]
        exact reconcile_lawful _ _ _
      cases observed with
      | unmanaged => exact taken rfl rfl rfl
      | wants desired => exact taken rfl rfl rfl
      | failed e =>
        refine ⟨apart.setLeft _, lawful.setTask (fun _ _ => rfl) (fun _ _ => rfl) ?_⟩
        rintro p ⟨⟩
        trivial
  | advance o env =>
    cases left : (s.tasks o).left with
    | none =>
      simp only [Fleet.step, left]
      exact ⟨apart, lawful⟩
    | some p =>
      have meets := lawful o p left
      cases p with
      | done r =>
        simp only [Fleet.step, left]
        exact ⟨apart.setLeft _, lawful.setTask (fun _ _ => rfl) (fun _ _ => rfl) fun p left => by cases left⟩
      | call c next =>
        obtain ⟨permitted, after⟩ := meets
        obtain ⟨answered, others⟩ := Fleet.answer_recorded env permitted
        rw [Fleet.step_call left]
        refine ⟨(apart.answer permitted).setLeft _, lawful.setTask
          (fun _ differ => Fleet.answer_tasks_of_ne differ) others ?_⟩
        rintro p ⟨⟩
        have goes := after _ _ answered
        rw [← Fleet.answer_wanted env c o] at goes
        exact goes

theorem Fleet.start_keeps {leak : String → Nat} {p : Dataplane} (owned : Owned leak p) :
    (Fleet.start p).Apart ∧ (Fleet.start p).Lawful :=
  ⟨⟨⟨leak, owned⟩, fun _ _ _ _ none => (nomatch none), fun _ _ none => (nomatch none),
    fun _ _ none => (nomatch none)⟩, fun _ _ none => (nomatch none)⟩

end Steps

/-- In an orderly run no call takes away a VIP that an object's latest reconcile has programmed. -/
theorem removal_spares_other_objects {leak : String → Nat} {p : Dataplane} (owned : Owned leak p)
    {turns : List Turn} {turn : Turn}
    (orderly : Run.Along Fleet.step Orderly (Fleet.start p) (turns ++ [turn])) {o : Owner} {k : String}
    (programmed : k ∈ ((Run.run Fleet.step (Fleet.start p) turns).tasks o).programmed) :
    k ∈ ((Run.run Fleet.step (Fleet.start p) turns).tasks o).wanted ∧
    ((Run.run Fleet.step (Fleet.start p) turns).step turn).plane.services.contains k = true := by
  obtain ⟨earlier, now, -⟩ := Run.along_append.mp orderly
  have kept : (Run.run Fleet.step (Fleet.start p) turns).Apart ∧
      (Run.run Fleet.step (Fleet.start p) turns).Lawful :=
    Run.invariant (P := fun s => s.Apart ∧ s.Lawful) Fleet.step_keeps (Fleet.start_keeps owned) earlier
  generalize Run.run Fleet.step (Fleet.start p) turns = s at kept programmed ⊢
  obtain ⟨apart, lawful⟩ := kept
  have there := apart.there o k programmed
  refine ⟨apart.wanted o k programmed, ?_⟩
  -- Only a call can change the data plane, and a call that is permitted does not remove this VIP.
  cases turn with
  | start other observed =>
    simp only [Fleet.step]
    split <;> exact there
  | advance other env =>
    cases left : (s.tasks other).left with
    | none =>
      simp only [Fleet.step, left]
      exact there
    | some rest =>
      cases rest with
      | done r =>
        simp only [Fleet.step, left]
        exact there
      | call c next =>
        obtain ⟨permitted, -⟩ := lawful other _ left
        obtain ⟨leak', owned'⟩ := apart.owned
        rw [Fleet.step_call left]
        exact (Fleet.answer_plane owned' other env c).2.1 k there (apart.spared permitted programmed)

section Inputs

variable {s : Fleet} {o : Owner}

/-- The work on an object, put at another place. -/
def Fleet.setLeft (s : Fleet) (o : Owner) (left : Option (Reconcile (Except GoError Unit))) : Fleet :=
  s.setTask o { s.tasks o with left := left }

theorem Fleet.answer_setLeft (env : Env) (c : Call) (s : Fleet)
    (left : Option (Reconcile (Except GoError Unit))) :
    Fleet.answer o env c (s.setLeft o left) =
      ((Fleet.answer o env c s).1, (Fleet.answer o env c s).2.setLeft o left) := by
  cases c with
  | upsertVIP vip =>
    simp only [Fleet.answer, Fleet.perform, Fleet.setLeft, Fleet.setTask_plane]
    cases ((Op.upsertVIP vip).outcome env s.plane).1 with
    | error e => rfl
    | ok _ => simp [Fleet.note, Fleet.setTask]
  | setBackendDrainingByKey vipKey backendKey draining => rfl
  | removeVIP key => rfl
  | getInstalled key => rfl
  | setInstalled key keys => rfl
  | deleteInstalled key => rfl
  | iterate keys => rfl
  | onChange => rfl

/-- A reconcile that nobody interrupts runs to its end. -/
theorem Fleet.run_alone (env : Env) (p : Reconcile (Except GoError Unit)) (s : Fleet) :
    ∃ n, Run.run Fleet.step (s.setLeft o (some p)) (List.replicate n (.advance o env)) =
      (p.run (Fleet.answer o env) s).2.setLeft o none := by
  induction p generalizing s with
  | done r =>
    refine ⟨1, ?_⟩
    simp [Fleet.step, Fleet.setLeft, Fleet.setTask, Prog.run]
  | call c next ih =>
    obtain ⟨n, rest⟩ := ih (Fleet.answer o env c s).1 (Fleet.answer o env c s).2
    refine ⟨n + 1, ?_⟩
    have left : ((s.setLeft o (some (.call c next))).tasks o).left = some (.call c next) := by
      simp [Fleet.setLeft]
    rw [List.replicate_succ, Run.run_cons, Fleet.step_call left, Fleet.answer_setLeft]
    rw [Prog.run, ← rest]
    simp [Fleet.setLeft, Fleet.setTask]

theorem Fleet.reconcile_first {vip : VIP} {w : World}
    (ok : (Op.upsertVIP vip).outcome calm s.plane = (.ok (), w)) (unrecorded : s.recorded o = []) :
    ((reconcile o.key (.wants [⟨vip, []⟩])).run (Fleet.answer o calm) s).2 =
      Fleet.note { s with
        plane := w.plane
        installed := s.installed.insert o [vipKeyString vip] } o (vipKeyString vip) (.ok ()) := by
  have empty : (s.installed.get? o).getD [] = [] := unrecorded
  have answered : Fleet.answer o calm (.upsertVIP vip) s =
      (.ok (), Fleet.note { s with plane := w.plane } o (vipKeyString vip) (.ok ())) := by
    simp only [Fleet.answer, Fleet.perform, ok]
  have walked : ∀ keys, calm.order 0 keys = keys := fun _ => rfl
  simp only [reconcile, removeAllFor, upsertAll, drainAll, Prog.run_bind, upsertVIP_answer, answered,
    Prog.run_pure]
  simp [removeStale, recordInstalled, Fleet.answer, Fleet.note, Fleet.setTask, Fleet.recorded, empty,
    walked]

/-- An object takes up a VIP that can be programmed. -/
theorem Fleet.takes_up {vip : VIP} {w : World} (idle : (s.tasks o).left = none)
    (ok : (Op.upsertVIP vip).outcome calm s.plane = (.ok (), w)) (unrecorded : s.recorded o = []) :
    ∃ turns, (Orderly s (.start o (.wants [⟨vip, []⟩])) → Run.Along Fleet.step Orderly s turns) ∧
      (Run.run Fleet.step s turns).plane = w.plane ∧
      (Run.run Fleet.step s turns).tasks o = ⟨[vipKeyString vip], [vipKeyString vip], none⟩ ∧
      (Run.run Fleet.step s turns).recorded o = [vipKeyString vip] ∧
      ∀ other, other ≠ o → (Run.run Fleet.step s turns).tasks other = s.tasks other ∧
        (Run.run Fleet.step s turns).recorded other = s.recorded other := by
  -- The reconcile starts from the object's work with the new wish noted down.
  let s₀ := s.setTask o ⟨[vipKeyString vip], [], none⟩
  obtain ⟨n, ran⟩ := Fleet.run_alone (o := o) calm (reconcile o.key (.wants [⟨vip, []⟩])) s₀
  have started : s.step (.start o (.wants [⟨vip, []⟩])) =
      s₀.setLeft o (some (reconcile o.key (.wants [⟨vip, []⟩]))) := by
    simp [Fleet.step, idle, Task.begin, s₀, Fleet.setLeft, Fleet.setTask, Observed.keys]
  have along : ∀ (n : Nat) (s : Fleet),
      Run.Along Fleet.step Orderly s (List.replicate n (.advance o calm)) := by
    intro n
    induction n with
    | zero => exact fun _ => trivial
    | succ n ih => exact fun s => ⟨trivial, ih _⟩
  refine ⟨.start o (.wants [⟨vip, []⟩]) :: List.replicate n (.advance o calm),
    fun orderly => ⟨orderly, along n _⟩, ?_⟩
  rw [Run.run_cons, started, ran, Fleet.reconcile_first (s := s₀) ok unrecorded]
  refine ⟨rfl, by simp [Fleet.setLeft, Fleet.note, s₀], ?_, fun other differ => ⟨?_, ?_⟩⟩
  · exact congrArg (Option.getD · []) (FMap.get?_insert_self _ _ _)
  · simp [Fleet.setLeft, Fleet.note, s₀, differ, Fleet.setTask]
  · exact congrArg (Option.getD · []) (FMap.get?_insert_of_ne _ _ differ)

/-- An object lets go of its only VIP. -/
theorem Fleet.lets_go {k : String} (idle : (s.tasks o).left = none) (recorded : s.recorded o = [k]) :
    (∀ other, other ≠ o →
      (Run.run Fleet.step s [.start o .unmanaged, .advance o calm]).tasks other = s.tasks other) ∧
    (Run.run Fleet.step s [.start o .unmanaged, .advance o calm]).plane = s.plane ∧
    ((Run.run Fleet.step s [.start o .unmanaged, .advance o calm]).step (.advance o calm)).plane =
      ((Op.removeVIP k).outcome calm s.plane).2.plane := by
  obtain ⟨next, reads, next', removes⟩ : ∃ next, reconcile o.key .unmanaged =
      .call (.getInstalled o.key) next ∧ ∃ next', next [k] = .call (.removeVIP k) next' :=
    ⟨_, rfl, _, rfl⟩
  have started : s.step (.start o .unmanaged) =
      s.setTask o ⟨[], [], some (.call (.getInstalled o.key) next)⟩ := by
    simp only [Fleet.step, idle, Task.begin, reads]
    rfl
  have read : (s.setTask o ⟨[], [], some (.call (.getInstalled o.key) next)⟩).step (.advance o calm) =
      s.setTask o ⟨[], [], some (.call (.removeVIP k) next')⟩ := by
    rw [Fleet.step_call (by rw [Fleet.setTask_self])]
    have answer : (s.setTask o ⟨[], [], some (.call (.getInstalled o.key) next)⟩).recorded o = [k] :=
      recorded
    simp only [Fleet.answer, answer, removes, Fleet.setTask_self]
    simp [Fleet.setTask]
  simp only [Run.run_cons, Run.run_nil, started, read]
  refine ⟨fun other differ => by simp [differ], rfl, ?_⟩
  rw [Fleet.step_call (by rw [Fleet.setTask_self])]
  rfl

/-- Two services. -/
def serviceA : Owner := ⟨.service, "default/a"⟩
@[inherit_doc serviceA] def serviceB : Owner := ⟨.service, "default/b"⟩

theorem Fleet.both_take_up {leak : String → Nat} {p : Dataplane} (owned : Owned leak p)
    {vip vip' : VIP} (fits : Fits p vip) (fits' : Fits (p.upserted calm vip) vip') :
    ∃ turns, (vipKeyString vip ≠ vipKeyString vip' →
        Run.Along Fleet.step Orderly (Fleet.start p) turns) ∧
      (Run.run Fleet.step (Fleet.start p) turns).tasks serviceA =
        ⟨[vipKeyString vip], [vipKeyString vip], none⟩ ∧
      (Run.run Fleet.step (Fleet.start p) turns).recorded serviceA = [vipKeyString vip] ∧
      (Run.run Fleet.step (Fleet.start p) turns).tasks serviceB =
        ⟨[vipKeyString vip'], [vipKeyString vip'], none⟩ ∧
      Owned leak (Run.run Fleet.step (Fleet.start p) turns).plane ∧
      (Run.run Fleet.step (Fleet.start p) turns).plane.services.contains (vipKeyString vip') = true := by
  obtain ⟨w₁, run₁⟩ := upsertVIP_of_fits (s := ⟨p, [], 0⟩) owned fits calm_reliable
  obtain ⟨_, _, _, _, up₁, _⟩ := upsertVIP_ok (s := ⟨p, [], 0⟩) owned run₁
  rw [← upsertVIP_plane owned run₁] at fits'
  obtain ⟨w₂, run₂⟩ := upsertVIP_of_fits (s := ⟨w₁.plane, [], 0⟩) up₁.owned fits' calm_reliable
  obtain ⟨f, _, _, _, up₂, _⟩ := upsertVIP_ok (s := ⟨w₁.plane, [], 0⟩) up₁.owned run₂
  obtain ⟨turns₁, along₁, plane₁, mine, record, others⟩ :=
    Fleet.takes_up (s := Fleet.start p) (o := serviceA) rfl run₁ rfl
  have apart : serviceB ≠ serviceA := by decide
  obtain ⟨idle, unrecorded⟩ := others _ apart
  obtain ⟨turns₂, along₂, plane₂, theirs, _, others'⟩ := Fleet.takes_up
    (s := Run.run Fleet.step (Fleet.start p) turns₁) (o := serviceB)
    (by rw [idle]; rfl) (by rw [plane₁]; exact run₂) (by rw [unrecorded]; rfl)
  obtain ⟨mine', record'⟩ := others' _ apart.symm
  refine ⟨turns₁ ++ turns₂, fun differ => Run.along_append.mpr ⟨along₁ ?_, along₂ ?_⟩, ?_⟩
  · exact fun other _ k _ => ⟨nofun, nofun⟩
  · -- Only the first service has a VIP by now, and it is another one.
    intro other _ k member
    obtain rfl : k = vipKeyString vip' := List.mem_singleton.mp member
    by_cases this : other = serviceA
    · subst this
      rw [mine, record]
      simp [Ne.symm differ]
    · obtain ⟨tasks, records⟩ := others other this
      rw [tasks, records]
      exact ⟨nofun, nofun⟩
  · rw [Run.run_append, mine', record', mine, record, theirs, plane₂]
    refine ⟨rfl, rfl, rfl, up₂.owned, ?_⟩
    rw [FMap.contains, up₂.entry]
    rfl

end Inputs

/-- An object that lets go of a VIP removes it, though another object has programmed it since. -/
theorem handover_removes_wanted_vip :
    ∃ turns, "10.0.0.1:80:tcp" ∈
        ((Run.run Fleet.step (Fleet.start (.new plainNode)) turns).tasks serviceB).wanted ∧
      "10.0.0.1:80:tcp" ∈
        ((Run.run Fleet.step (Fleet.start (.new plainNode)) turns).tasks serviceB).programmed ∧
      ((Run.run Fleet.step (Fleet.start (.new plainNode)) turns).tasks serviceB).left = none ∧
      (Run.run Fleet.step (Fleet.start (.new plainNode)) turns).plane.services.contains
        "10.0.0.1:80:tcp" = true ∧
      ((Run.run Fleet.step (Fleet.start (.new plainNode)) turns).step
        (.advance serviceA calm)).plane.services.contains "10.0.0.1:80:tcp" = false := by
  have key : vipKeyString (plainVIP "10.0.0.1" ["10.1.0.1"]) = "10.0.0.1:80:tcp" := by decide +kernel
  have fits : Fits (.new plainNode) (plainVIP "10.0.0.1" ["10.1.0.1"]) := by decide +kernel
  have fits' : Fits ((Dataplane.new plainNode).upserted calm (plainVIP "10.0.0.1" ["10.1.0.1"]))
      (plainVIP "10.0.0.1" ["10.1.0.1"]) := by decide +kernel
  obtain ⟨turns, _, mine, record, theirs, owned, there⟩ :=
    Fleet.both_take_up (Owned.new plainNode) fits fits'
  rw [key] at mine record theirs there
  refine ⟨turns ++ [.start serviceA .unmanaged, .advance serviceA calm], ?_⟩
  rw [Run.run_append]
  generalize Run.run Fleet.step (Fleet.start (.new plainNode)) turns = s at *
  -- Service a is gone, and its next call removes the VIP that service b has.
  obtain ⟨tasks, plane, removed⟩ := Fleet.lets_go (s := s) (o := serviceA) (by rw [mine]) record
  rw [tasks _ (by decide), plane, removed, theirs]
  refine ⟨List.mem_singleton_self _, List.mem_singleton_self _, rfl, there, ?_⟩
  rcases removeVIP_run "10.0.0.1:80:tcp" calm (s := ⟨s.plane, [], 0⟩) owned with
    ⟨absent, _⟩ | ⟨_, s', _, _, _, run, _, gone⟩
  · rw [FMap.contains, absent] at there
    cases there
  · have after : ((Op.removeVIP "10.0.0.1:80:tcp").outcome calm s.plane).2.plane = s'.plane :=
      congrArg (fun r => r.2.plane) run
    rw [after, FMap.contains, gone.gone]
    rfl

/-- An object that lets go of its VIP leaves the other VIP of another object alone. -/
theorem removal_spares_another_vip :
    ∃ turns, ((Run.run Fleet.step (Fleet.start (.new plainNode)) turns).step
        (.advance serviceA calm)).plane.services.contains "10.0.0.2:80:tcp" = true := by
  have key : vipKeyString (plainVIP "10.0.0.1" ["10.1.0.1"]) = "10.0.0.1:80:tcp" := by decide +kernel
  have key' : vipKeyString (plainVIP "10.0.0.2" ["10.1.0.1"]) = "10.0.0.2:80:tcp" := by decide +kernel
  have fits : Fits (.new plainNode) (plainVIP "10.0.0.1" ["10.1.0.1"]) := by decide +kernel
  have fits' : Fits ((Dataplane.new plainNode).upserted calm (plainVIP "10.0.0.1" ["10.1.0.1"]))
      (plainVIP "10.0.0.2" ["10.1.0.1"]) := by decide +kernel
  obtain ⟨turns, along, mine, record, theirs, _, _⟩ :=
    Fleet.both_take_up (Owned.new plainNode) fits fits'
  rw [key] at mine record along
  rw [key'] at theirs along
  refine ⟨turns ++ [.start serviceA .unmanaged, .advance serviceA calm], ?_⟩
  have orderly : Run.Along Fleet.step Orderly (Fleet.start (.new plainNode))
      (turns ++ [.start serviceA .unmanaged, .advance serviceA calm] ++ [.advance serviceA calm]) := by
    rw [List.append_assoc, Run.along_append]
    exact ⟨along (by decide), nofun, trivial, trivial, trivial⟩
  refine (removal_spares_other_objects (o := serviceB) (Owned.new plainNode) orderly ?_).2
  rw [Run.run_append]
  obtain ⟨tasks, -, -⟩ := Fleet.lets_go (s := Run.run Fleet.step (Fleet.start (.new plainNode)) turns)
    (o := serviceA) (by rw [mine]) record
  rw [tasks _ (by decide), theirs]
  exact List.mem_singleton_self _

end Rivora.Reconciler

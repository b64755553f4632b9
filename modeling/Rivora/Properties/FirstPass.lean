import Mathlib
import Rivora.Controller.FirstPass
import Rivora.Proofs.FleetRuns
import Rivora.Proofs.Kept
import Rivora.Proofs.Rehearsal

/-! What is removed once the first pass is over. -/

namespace Rivora

/-- A VIP that is claimed stays claimed. -/
theorem claims_closed (u : FMap String Bool) :
    Closed fun _ unclaimed => ∀ k, u.get? k = none → unclaimed.get? k = none where
  entry _ _ _ _ _ _ _ holds := holds
  move _ _ _ _ _ _ _ holds := holds
  create _ _ _ _ holds := holds
  claim _ unclaimed key holds k claimed := by
    rw [FMap.get?_erase]
    split
    · rfl
    · exact holds k claimed
  gone _ _ _ holds := holds

/-- A VIP that was programmed is claimed. -/
theorem upsertVIP_claims {spec : VIP} {env : Env} {s s' : World} (run : upsertVIP spec env s = (.ok (), s')) :
    s'.plane.unclaimed.get? (vipKeyString spec) = none := by
  -- Recording the VIP is the last thing that is done.
  obtain ⟨_, _, _, run⟩ := Effect.bind_eq_ok.mp run
  obtain ⟨_, _, _, run⟩ := Effect.bind_eq_ok.mp run
  obtain ⟨_, _, _, run⟩ := Effect.bind_eq_ok.mp run
  obtain ⟨_, _, _, run⟩ := Effect.bind_eq_ok.mp run
  obtain ⟨_, _, _, run⟩ := Effect.bind_eq_ok.mp run
  cases run
  exact FMap.get?_erase_self _ _

/-- What is unclaimed goes, and nothing else does. -/
theorem pruned_spares (p : Dataplane) (env : Env) {k : String} (claimed : p.unclaimed.get? k = none) :
    (p.pruned env).services.get? k = p.services.get? k := by
  have spared : k ∉ p.unclaimed.keys.insertionSort (· ≤ ·) := by
    intro member
    rw [List.mem_insertionSort, FMap.mem_keys] at member
    obtain ⟨value, stored⟩ := member
    rw [claimed] at stored
    cases stored
  -- Each removal leaves the entries of other keys as they are.
  have kept : Kept (fun services _ => services.get? k = p.services.get? k) env (Effect.forEach
      (p.unclaimed.keys.insertionSort (· ≤ ·)) fun key => Effect.ignoring (removeVIP key)) := by
    refine Kept.forEach_mem fun key member => Kept.ignoring (Kept.removeVIP (fun _ _ holds => holds) ?_)
    intro services _ holds
    have other : k ≠ key := fun same => spared (same ▸ member)
    rw [FMap.get?_erase, if_neg other]
    exact holds
  unfold Dataplane.pruned pruneUnclaimed
  simp only [Effect.bind_apply, getPlane_apply]
  have after := kept.after (s := ⟨p, [], 0⟩) rfl
  split
  · rename_i run
    rwa [run] at after
  · rename_i run
    rwa [run] at after

end Rivora

namespace Rivora.Reconciler

open Interaction

/-- How the list of VIPs that a reconcile has programmed grows with its calls. -/
def noteSpec : Spec Call.Reply (List String) where
  may _ _ := True
  answers noted c r noted' := match c, r with
    | .upsertVIP vip, .ok _ => noted' = vipKeyString vip :: noted
    | .upsertVIP _, .error _ => noted' = noted
    | .setBackendDrainingByKey _ _ _, _ | .removeVIP _, _ | .getInstalled _, _ | .setInstalled _ _, _
    | .deleteInstalled _, _ | .iterate _, _ | .onChange, _ => noted' = noted

section Notes

variable {noted : List String}

theorem drainAll_notes (vipKey : String) (backends : List Backend) :
    (drainAll vipKey backends).Meets noteSpec (fun _ noted' => noted' = noted) noted :=
  (drainAll_calls vipKey backends).keeps
    (fun _ _ ⟨_, _, is⟩ same => is ▸ ⟨trivial, fun _ _ answered => Eq.trans answered same⟩) rfl

/-- Every VIP that is wanted is upserted. -/
theorem upsertAll_notes (desired : List DesiredVIP) (newKeys : List String) :
    (upsertAll desired newKeys).Meets noteSpec (fun r noted' => (∀ k ∈ noted, k ∈ noted') ∧
      ((∃ keys, r = .ok keys) → ∀ k ∈ (Observed.wants desired).keys, k ∈ noted')) noted := by
  induction desired generalizing noted newKeys with
  | nil => exact ⟨fun _ member => member, fun _ _ none => (nomatch none)⟩
  | cons d rest ih =>
    refine .bind (.ask trivial fun r noted₁ answered => ?_)
    cases r with
    | error e =>
      obtain rfl : noted₁ = noted := answered
      exact ⟨fun _ member => member, nofun⟩
    | ok _ =>
      obtain rfl : noted₁ = vipKeyString d.vip :: noted := answered
      refine .bind (Prog.Meets.mono (drainAll_notes _ _) fun r noted₂ same => ?_)
      subst same
      cases r with
      | error e => exact ⟨fun _ member => List.mem_cons_of_mem _ member, nofun⟩
      | ok _ =>
        -- The VIP just noted stays noted while the others are programmed.
        refine Prog.Meets.mono (ih _) fun r noted₃ after => ?_
        obtain ⟨kept, all⟩ := after
        refine ⟨fun k member => kept k (List.mem_cons_of_mem _ member), fun ok k member => ?_⟩
        rcases List.mem_cons.mp member with rfl | later
        · exact kept _ List.mem_cons_self
        · exact all ok k later

theorem removeStale_notes (newKeys previous : List String) (changed : Bool) :
    (removeStale newKeys previous changed).Meets noteSpec (fun _ noted' => noted' = noted) noted :=
  (removeStale_calls newKeys previous changed).keeps
    (fun _ _ ⟨_, _, _, is⟩ same => is ▸ ⟨trivial, fun _ _ answered => Eq.trans answered same⟩) rfl

/-- A reconcile that succeeds has programmed what it wants. -/
theorem reconcile_notes (key : String) (observed : Observed) :
    (reconcile key observed).Meets noteSpec (fun r noted' => r = .ok () →
      ∀ k ∈ observed.keys, k ∈ noted') noted := by
  have applied : ∀ desired, (removeAllFor key desired).Meets noteSpec (fun r noted' => r = .ok () →
      ∀ k ∈ (Observed.wants desired).keys, k ∈ noted') noted := by
    intro desired
    refine .bind (Prog.Meets.mono (upsertAll_notes desired []) fun r noted₁ after => ?_)
    cases r with
    | error e => exact nofun
    | ok newKeys =>
      have all := after.2 ⟨newKeys, rfl⟩
      -- Nothing that follows takes a note away.
      refine .bind (.ask trivial fun previous noted₂ same => ?_)
      obtain rfl : noted₂ = noted₁ := same
      refine .bind (Prog.Meets.mono (removeStale_notes newKeys previous _) fun r noted₃ same => ?_)
      subst same
      cases r with
      | error e => exact nofun
      | ok changed =>
        have recorded : (recordInstalled key newKeys).Meets noteSpec
            (fun _ noted' => noted' = noted₃) noted₃ := by
          unfold recordInstalled
          split
          · exact .ask trivial fun _ _ same => same
          · refine .bind (.ask trivial fun keys noted₄ same => .ask trivial fun _ noted₅ same' => ?_)
            exact Eq.trans same' same
        refine .bind (Prog.Meets.mono recorded fun _ noted₄ same => ?_)
        subst same
        cases changed with
        | false => exact fun _ => all
        | true =>
          refine .bind (.ask trivial fun _ noted₅ same => ?_)
          obtain rfl : noted₅ = noted₄ := same
          exact fun _ => all
  cases observed with
  | unmanaged => exact applied []
  | failed e => exact nofun
  | wants desired => exact applied desired

theorem Fleet.answer_notes (s : Fleet) (o : Owner) (env : Env) (c : Call) :
    noteSpec.answers (s.tasks o).programmed c (Fleet.answer o env c s).1
      ((Fleet.answer o env c s).2.tasks o).programmed := by
  cases c with
  | upsertVIP vip =>
    simp only [Fleet.answer, Fleet.perform]
    cases ((Op.upsertVIP vip).outcome env s.plane).1 with
    | error e => exact rfl
    | ok _ => simp [noteSpec, Fleet.note]
  | setBackendDrainingByKey vipKey backendKey draining => exact rfl
  | removeVIP key => exact rfl
  | getInstalled key => exact rfl
  | setInstalled key keys => exact rfl
  | deleteInstalled key => exact rfl
  | iterate keys => exact rfl
  | onChange => exact rfl

end Notes

section Claims

variable {s : Fleet}

/-- An answer takes back no claim, and claims the VIP that it programs. -/
theorem Fleet.answer_unclaimed (s : Fleet) (o : Owner) (env : Env) (c : Call) :
    (∀ k, s.plane.unclaimed.get? k = none → (Fleet.answer o env c s).2.plane.unclaimed.get? k = none) ∧
    ∀ vip, c = .upsertVIP vip → ((Op.upsertVIP vip).outcome env s.plane).1 = .ok () →
      (Fleet.answer o env c s).2.plane.unclaimed.get? (vipKeyString vip) = none := by
  have kept : ∀ op : Op, ∀ k, s.plane.unclaimed.get? k = none →
      (op.outcome env s.plane).2.plane.unclaimed.get? k = none := fun op =>
    ((claims_closed s.plane.unclaimed).op op).after (s := ⟨s.plane, [], 0⟩) fun _ claimed => claimed
  cases c with
  | upsertVIP vip =>
    have plane : (Fleet.answer o env (.upsertVIP vip) s).2.plane =
        ((Op.upsertVIP vip).outcome env s.plane).2.plane := (Fleet.note_fields _ o _ _).1
    rw [plane]
    refine ⟨kept (.upsertVIP vip), ?_⟩
    rintro _ ⟨⟩ ok
    exact upsertVIP_claims (Prod.ext ok rfl)
  | setBackendDrainingByKey vipKey backendKey draining =>
    exact ⟨kept (.setBackendDrainingByKey vipKey backendKey draining), fun _ is => by cases is⟩
  | removeVIP key => exact ⟨kept (.removeVIP key), fun _ is => by cases is⟩
  | getInstalled key => exact ⟨fun _ claimed => claimed, fun _ is => by cases is⟩
  | setInstalled key keys => exact ⟨fun _ claimed => claimed, fun _ is => by cases is⟩
  | deleteInstalled key => exact ⟨fun _ claimed => claimed, fun _ is => by cases is⟩
  | iterate keys => exact ⟨fun _ claimed => claimed, fun _ is => by cases is⟩
  | onChange => exact ⟨fun _ claimed => claimed, fun _ is => by cases is⟩

/-- Every VIP that the work on some object has programmed is claimed. -/
structure Fleet.Claiming (s : Fleet) : Prop where
  claimed : ∀ o, ∀ k ∈ (s.tasks o).programmed, s.plane.unclaimed.get? k = none
  /-- What is left of a reconcile programs the rest of what is wanted before it succeeds. -/
  lawful : ∀ o p, (s.tasks o).left = some p → p.Meets noteSpec
    (fun r noted => r = .ok () → ∀ k ∈ (s.tasks o).wanted, k ∈ noted) (s.tasks o).programmed

theorem Fleet.Claiming.setTask (claiming : s.Claiming) {o : Owner} {t : Task}
    (claimed : ∀ k ∈ t.programmed, s.plane.unclaimed.get? k = none)
    (lawful : ∀ p, t.left = some p → p.Meets noteSpec
      (fun r noted => r = .ok () → ∀ k ∈ t.wanted, k ∈ noted) t.programmed) :
    (s.setTask o t).Claiming := by
  refine ⟨fun b k member => ?_, fun b p left => ?_⟩
  · by_cases mine : b = o
    · subst mine
      rw [Fleet.setTask_self] at member
      exact claimed k member
    · rw [Fleet.setTask_of_ne _ _ mine] at member
      exact claiming.claimed b k member
  · by_cases mine : b = o
    · subst mine
      rw [Fleet.setTask_self] at left ⊢
      exact lawful p left
    · rw [Fleet.setTask_of_ne _ _ mine] at left ⊢
      exact claiming.lawful b p left

/-- What a reconciler has programmed is claimed. -/
theorem Fleet.Claiming.step (claiming : s.Claiming) (turn : Turn) :
    (s.step turn).Claiming ∧ ∀ k, s.plane.unclaimed.get? k = none →
      (s.step turn).plane.unclaimed.get? k = none := by
  cases turn with
  | start o observed =>
    simp only [Fleet.step]
    cases (s.tasks o).left with
    | some p => exact ⟨claiming, fun _ claimed => claimed⟩
    | none =>
      -- The work begins with nothing programmed; a failed look-up leaves it as it was.
      refine ⟨?_, fun _ claimed => claimed⟩
      cases observed with
      | unmanaged =>
        refine claiming.setTask (fun k member => by cases member) ?_
        rintro p ⟨⟩
        exact reconcile_notes o.key .unmanaged
      | wants desired =>
        refine claiming.setTask (fun k member => by cases member) ?_
        rintro p ⟨⟩
        exact reconcile_notes o.key (.wants desired)
      | failed e =>
        refine claiming.setTask (claiming.claimed o) ?_
        rintro p ⟨⟩
        exact fun ok => by cases ok
  | advance o env =>
    cases left : (s.tasks o).left with
    | none =>
      simp only [Fleet.step, left]
      exact ⟨claiming, fun _ claimed => claimed⟩
    | some p =>
      have meets := claiming.lawful o p left
      cases p with
      | done r =>
        simp only [Fleet.step, left]
        exact ⟨claiming.setTask (claiming.claimed o) (fun p left => by cases left), fun _ claimed => claimed⟩
      | call c next =>
        obtain ⟨kept, enters⟩ := Fleet.answer_unclaimed s o env c
        rw [Fleet.step_call left]
        refine ⟨⟨fun b k member => ?_, fun b p left' => ?_⟩, kept⟩
        · by_cases mine : b = o
          · subst mine
            rw [Fleet.setTask_self] at member
            rcases Fleet.answer_task.2 k member with before | ⟨vip, is, rfl, ok⟩
            · exact kept k (claiming.claimed b k before)
            · exact enters vip is ok
          · rw [Fleet.setTask_of_ne _ _ mine, Fleet.answer_tasks_of_ne mine] at member
            exact kept k (claiming.claimed b k member)
        · by_cases mine : b = o
          · -- The reconcile goes on with the answer, and with what it has noted by then.
            subst mine
            rw [Fleet.setTask_self] at left' ⊢
            cases left'
            have goes := meets.2 _ _ (Fleet.answer_notes s b env c)
            rw [← Fleet.answer_wanted env c b] at goes
            exact goes
          · rw [Fleet.setTask_of_ne _ _ mine, Fleet.answer_tasks_of_ne mine] at left' ⊢
            exact claiming.lawful b p left'

end Claims

section Passes

/-- A tracker knows of every key that has not been reconciled, and announces the end when there is none. -/
structure Side.Tracked (reconciled : String → Prop) (side : Side) : Prop where
  armed : side.tracker.armed = side.present.isSome
  covered : ∀ present, side.present = some present → ∀ k ∈ present,
    k ∈ side.tracker.pending ∨ reconciled k
  ended : side.tracker.done = true → side.tracker.armed = true ∧ side.tracker.pending = []

theorem Tracker.complete_fields (t : Tracker) :
    t.complete.armed = t.armed ∧ t.complete.pending = t.pending ∧
      (t.complete.done = true → t.done = true ∨ t.pending = []) := by
  unfold Tracker.complete
  split
  · rename_i nothing
    exact ⟨rfl, rfl, fun _ => Or.inr nothing⟩
  · exact ⟨rfl, rfl, Or.inl⟩

variable {reconciled reconciled' : String → Prop} {side : Side}

theorem Side.Tracked.mono (tracked : side.Tracked reconciled) {side' : Side}
    (tracker : side'.tracker = side.tracker) (present : side'.present = side.present)
    (more : ∀ k, reconciled k → reconciled' k) : side'.Tracked reconciled' := by
  refine ⟨by rw [tracker, present, tracked.armed], fun keys is k member => ?_, fun ended => ?_⟩
  · rw [tracker]
    exact (tracked.covered keys (present ▸ is) k member).imp_right (more k)
  · rw [tracker] at ended ⊢
    exact tracked.ended ended

theorem Side.Tracked.run (tracked : side.Tracked reconciled) (idle : side.present = none)
    (present : List String) :
    ({ side with tracker := side.tracker.arm present, present := some present } : Side).Tracked
      reconciled := by
  have unarmed : side.tracker.armed = false := by rw [tracked.armed, idle]; rfl
  have arm : side.tracker.arm present =
      ({ side.tracker with armed := true, pending := present.eraseDups } : Tracker).complete := by
    rw [Tracker.arm, unarmed]
    rfl
  obtain ⟨armed, pending, done⟩ :=
    ({ side.tracker with armed := true, pending := present.eraseDups } : Tracker).complete_fields
  refine ⟨?_, ?_, ?_⟩
  · rw [arm]
    exact armed
  · rintro _ ⟨⟩ k member
    rw [arm, pending]
    exact Or.inl (List.mem_eraseDups.mpr member)
  · intro ended
    rw [arm] at ended ⊢
    refine ⟨armed, ?_⟩
    rcases done ended with before | nothing
    · -- An unarmed tracker has announced nothing.
      rw [(tracked.ended before).1] at unarmed
      cases unarmed
    · rw [pending]
      exact nothing

/-- A key that is done leaves the tracker. -/
theorem Side.Tracked.finish (tracked : side.Tracked reconciled) {key : String}
    (more : ∀ k, reconciled k → reconciled' k) (now : reconciled' key) (queue : WorkQueue String) :
    ({ side with tracker := side.tracker.finished key, queue := queue } : Side).Tracked reconciled' := by
  unfold Tracker.finished
  split
  · exact tracked.mono rfl rfl more
  · rename_i known
    obtain ⟨armed, pending, done⟩ := ({ side.tracker with
      pending := side.tracker.pending.filter (· ≠ key) } : Tracker).complete_fields
    refine ⟨armed.trans tracked.armed, fun present is k member => ?_, fun ended => ?_⟩
    · rw [pending]
      by_cases this : k = key
      · exact Or.inr (this ▸ now)
      · refine (tracked.covered present is k member).imp (fun waits => ?_) (more k)
        simp [waits, this]
    · simp only [Bool.or_eq_true, Bool.not_eq_true', decide_eq_true_eq, not_or] at known
      refine ⟨armed.trans (by simpa using known.1), ?_⟩
      rcases done ended with before | nothing
      · -- A tracker that had announced the end had nothing pending to finish.
        have none := (tracked.ended before).2
        rw [none] at known
        exact absurd List.not_mem_nil known.2
      · rw [pending]
        exact nothing

/-- An object has been reconciled without an error. -/
def Startup.Reconciled (s : Startup) (o : Owner) : Prop := (s.settled o).isSome = true

/-- What holds throughout start-up. -/
structure Startup.Sound (kinds : List Kind) (s : Startup) : Prop where
  firstPass : s.firstPass = kinds
  claiming : s.fleet.Claiming
  settled : ∀ o wanted, s.settled o = some wanted → ∀ k ∈ wanted, s.fleet.plane.unclaimed.get? k = none
  tracked : ∀ kind, (s.sides kind).Tracked fun key => s.Reconciled ⟨kind, key⟩
  waited : ∀ i, s.waiting = some i → ∀ kind ∈ kinds.take i, (s.sides kind).tracker.done = true

variable {kinds : List Kind} {s : Startup}

theorem Startup.Sound.setQueue (sound : s.Sound kinds) {kind : Kind} {side : Side}
    (tracker : side.tracker = (s.sides kind).tracker) (present : side.present = (s.sides kind).present) :
    (s.setSide kind side).Sound kinds := by
  refine ⟨sound.firstPass, sound.claiming, sound.settled, fun other => ?_, fun i waiting other member => ?_⟩
  · by_cases this : other = kind
    · subst this
      rw [Startup.setSide_self]
      exact (sound.tracked other).mono tracker present fun _ done => done
    · rw [Startup.setSide_of_ne _ _ this]
      exact sound.tracked other
  · have before := sound.waited i waiting other member
    by_cases this : other = kind
    · subst this
      rw [Startup.setSide_self, tracker]
      exact before
    · rw [Startup.setSide_of_ne _ _ this]
      exact before

/-- A call of a reconcile keeps the account. -/
theorem Startup.Sound.setFleet (sound : s.Sound kinds) (turn : Turn) : (s.setFleet turn).Sound kinds := by
  obtain ⟨claiming, kept⟩ := sound.claiming.step turn
  exact ⟨sound.firstPass, claiming, fun o wanted is k member => kept k (sound.settled o wanted is k member),
    sound.tracked, sound.waited⟩

theorem Tracker.done_stays (t : Tracker) (announced : t.done = true) (keys : List String) (key : String) :
    (t.arm keys).done = true ∧ (t.finished key).done = true := by
  have complete : ∀ t : Tracker, t.done = true → t.complete.done = true := by
    intro t announced
    unfold Tracker.complete
    split
    · rfl
    · exact announced
  unfold Tracker.arm Tracker.finished
  constructor
  · split
    · exact announced
    · exact complete _ announced
  · split
    · exact announced
    · exact complete _ announced

/-- So does its return. -/
theorem Startup.Sound.returns (sound : s.Sound kinds) {o : Owner} {r : Except GoError Unit}
    (left : (s.fleet.tasks o).left = some (.done r)) :
    ({ s.setSide o.kind ((s.sides o.kind).putDown o.key r) with settled := s.settle o r } :
      Startup).Sound kinds := by
  cases r with
  | error e => exact sound.setQueue rfl rfl
  | ok _ =>
    -- What is wanted has been noted, and what is noted is claimed.
    have noted : ∀ k ∈ (s.fleet.tasks o).wanted, k ∈ (s.fleet.tasks o).programmed :=
      sound.claiming.lawful o _ left rfl
    have more : ∀ b, s.Reconciled b → (Function.update s.settled o
        (some (s.fleet.tasks o).wanted) b).isSome = true := by
      intro b reconciled
      by_cases this : b = o
      · simp [this]
      · simpa [this, Startup.Reconciled] using reconciled
    refine ⟨sound.firstPass, sound.claiming, fun b wanted is k member => ?_, fun kind => ?_,
      fun i waiting kind member => ?_⟩
    · by_cases this : b = o
      · subst this
        simp only [Startup.settle, Function.update_self, Option.some.injEq] at is
        subst is
        exact sound.claiming.claimed b k (noted k member)
      · simp only [Startup.settle, Function.update_of_ne this] at is
        exact sound.settled b wanted is k member
    · by_cases this : kind = o.kind
      · subst this
        have now : (Function.update s.settled o (some (s.fleet.tasks o).wanted) o).isSome = true := by
          simp
        have finished : ((s.sides o.kind).putDown o.key (.ok ())).Tracked fun key =>
            (Function.update s.settled o (some (s.fleet.tasks o).wanted) ⟨o.kind, key⟩).isSome = true :=
          (sound.tracked o.kind).finish (fun key => more ⟨o.kind, key⟩) now _
        simpa [Startup.setSide, Startup.Reconciled, Startup.settle] using finished
      · have kept : (s.sides kind).Tracked fun key =>
            (Function.update s.settled o (some (s.fleet.tasks o).wanted) ⟨kind, key⟩).isSome = true :=
          (sound.tracked kind).mono rfl rfl fun key => more ⟨kind, key⟩
        simpa [Startup.setSide, this, Startup.Reconciled, Startup.settle] using kept
    · have before := sound.waited i waiting kind member
      by_cases this : kind = o.kind
      · subst this
        simpa [Startup.setSide, Side.putDown] using
          ((s.sides o.kind).tracker.done_stays before [] o.key).2
      · simpa [Startup.setSide, this] using before

/-- So do workers that start. -/
theorem Startup.Sound.runs (sound : s.Sound kinds) {kind : Kind} (idle : (s.sides kind).present = none)
    (present : List String) :
    (s.setSide kind { s.sides kind with
      tracker := (s.sides kind).tracker.arm present, present := some present }).Sound kinds := by
  refine ⟨sound.firstPass, sound.claiming, sound.settled, fun other => ?_, fun i waiting other member => ?_⟩
  · by_cases this : other = kind
    · subst this
      rw [Startup.setSide_self]
      exact (sound.tracked other).run idle present
    · rw [Startup.setSide_of_ne _ _ this]
      exact sound.tracked other
  · have before := sound.waited i waiting other member
    by_cases this : other = kind
    · subst this
      rw [Startup.setSide_self]
      exact ((s.sides other).tracker.done_stays before present "").1
    · rw [Startup.setSide_of_ne _ _ this]
      exact before

theorem Startup.Sound.wait (sound : s.Sound kinds) {waiting : Option Nat}
    (waited : ∀ i, waiting = some i → ∀ kind ∈ kinds.take i, (s.sides kind).tracker.done = true) :
    ({ s with waiting := waiting } : Startup).Sound kinds :=
  ⟨sound.firstPass, sound.claiming, sound.settled, sound.tracked, waited⟩

/-- So does the removal. -/
theorem Startup.Sound.prune (sound : s.Sound kinds) (env : Env) :
    ({ s with fleet := { s.fleet with plane := s.fleet.plane.pruned env }, waiting := none } :
      Startup).Sound kinds := by
  have unclaimed : ∀ k, s.fleet.plane.unclaimed.get? k = none →
      (s.fleet.plane.pruned env).unclaimed.get? k = none :=
    (claims_closed s.fleet.plane.unclaimed).pruneUnclaimed.after (s := ⟨s.fleet.plane, [], 0⟩)
      fun _ claimed => claimed
  refine ⟨sound.firstPass, ⟨fun o k member => ?_, sound.claiming.lawful⟩,
    fun o wanted is k member => ?_, sound.tracked, nofun⟩
  · exact unclaimed k (sound.claiming.claimed o k member)
  · exact unclaimed k (sound.settled o wanted is k member)

/-- So does every event. -/
theorem Startup.Sound.step (sound : s.Sound kinds) (event : StartupEvent) :
    (s.step event).Sound kinds := by
  cases event with
  | enqueue kind key => exact sound.setQueue rfl rfl
  | run kind present =>
    simp only [Startup.step]
    split
    · rename_i ready
      exact sound.runs ready.2 present
    · exact sound
  | take kind observed =>
    simp only [Startup.step]
    split
    · refine Startup.Sound.setFleet ?_ _
      exact sound.setQueue rfl rfl
    · exact sound
  | advance o env =>
    simp only [Startup.step]
    split
    · rename_i r left
      exact (sound.returns left).setFleet _
    · exact sound.setFleet _
  | retry kind key =>
    simp only [Startup.step]
    split
    · exact sound.setQueue rfl rfl
    · exact sound
  | awaited =>
    simp only [Startup.step]
    split
    · exact sound
    · rename_i i waiting
      split
      · exact sound
      · rename_i kind this
        split
        · rename_i done
          refine sound.wait ?_
          rintro _ ⟨⟩ other member
          -- The trackers waited for are those before and the one just seen.
          rw [sound.firstPass] at this
          rw [List.take_add_one, this, List.mem_append] at member
          rcases member with before | here
          · exact sound.waited i waiting other before
          · obtain rfl : other = kind := by simpa using here
            exact done
        · exact sound
  | giveUp => exact sound.wait nofun
  | prune env =>
    simp only [Startup.step]
    split
    · exact sound.prune env
    · exact sound

theorem Startup.sound_start (p : Dataplane) (withGateway : Bool) :
    (Startup.start p withGateway).Sound (if withGateway then [.service, .gateway] else [.service]) := by
  refine ⟨rfl, ⟨nofun, nofun⟩, nofun, fun kind => ⟨rfl, nofun, nofun⟩, ?_⟩
  intro i waiting kind member
  simp only [Startup.start] at waiting
  split at waiting
  · cases waiting
    cases member
  · cases waiting

end Passes

/--
What is unclaimed is removed only once every object there was has been reconciled, and nothing wanted goes.

The objects are those in the caches of each reconciler when its workers started. A VIP is wanted if the
latest successful reconcile of some object, there from the start or not, wants it.
-/
theorem prune_waits_for_first_pass {p : Dataplane} (withGateway : Bool) {events : List StartupEvent}
    (prunes : (Run.run Startup.step (Startup.start p withGateway) events).Prunes) (env : Env) :
    (∀ kind ∈ (if withGateway then [.service, .gateway] else [Kind.service]),
      ∃ present, ((Run.run Startup.step (Startup.start p withGateway) events).sides kind).present =
        some present ∧ ∀ key ∈ present,
          (Run.run Startup.step (Startup.start p withGateway) events).Reconciled ⟨kind, key⟩) ∧
    ∀ o wanted, (Run.run Startup.step (Startup.start p withGateway) events).settled o = some wanted →
      ∀ k ∈ wanted,
        ((Run.run Startup.step (Startup.start p withGateway) events).step
          (.prune env)).fleet.plane.services.get? k =
        (Run.run Startup.step (Startup.start p withGateway) events).fleet.plane.services.get? k := by
  have along : Run.Along Startup.step (fun _ _ => True) (Startup.start p withGateway) events :=
    Run.along_of_forall (fun _ _ => trivial) _
  have start := Startup.sound_start p withGateway
  generalize (if withGateway then [.service, .gateway] else [Kind.service]) = kinds at start ⊢
  have sound := Run.invariant (P := fun s : Startup => s.Sound kinds) (fun {_ e} sound _ => sound.step e)
    start along
  generalize Run.run Startup.step (Startup.start p withGateway) events = s at prunes sound ⊢
  constructor
  · intro kind member
    -- The task has waited for all trackers, so this one is done: it was armed and has nothing pending.
    have done := sound.waited _ prunes kind (by
      rw [sound.firstPass, List.take_length]
      exact member)
    obtain ⟨armed, pending⟩ := (sound.tracked kind).ended done
    rw [(sound.tracked kind).armed] at armed
    obtain ⟨present, there⟩ := Option.isSome_iff_exists.mp armed
    refine ⟨present, there, fun key listed => ?_⟩
    refine ((sound.tracked kind).covered present there key listed).resolve_left fun waits => ?_
    rw [pending] at waits
    cases waits
  · intro o wanted settled k member
    simp only [Startup.step, if_pos prunes]
    exact pruned_spares _ env (sound.settled o wanted settled k member)

section Inputs

/-- A Service at start-up, under its key in the caches. -/
def web : Owner := ⟨.service, "default/web"⟩

/-- A first pass over a Service: its first reconcile fails, and the second is about to ask for a VIP. -/
def retriedEvents (vip : VIP) : List StartupEvent :=
  [.enqueue .service "default/web", .run .service ["default/web"],
    .take .service (.failed (.plain "lister")), .advance web calm, .awaited,
    .retry .service "default/web", .take .service (.wants [⟨vip, []⟩])]

/-- The rest of it: the VIP is programmed and recorded, and the task sees that the pass is over. -/
def programmedEvents : List StartupEvent := List.replicate 6 (.advance web calm) ++ [.awaited]

theorem Fleet.step_upsert {s : Fleet} {o : Owner} {vip : VIP} {w : World}
    {next : Except GoError Unit → Reconcile (Except GoError Unit)}
    (left : (s.tasks o).left = some (.call (.upsertVIP vip) next))
    (ok : (Op.upsertVIP vip).outcome calm s.plane = (.ok (), w)) :
    s.step (.advance o calm) =
      (Fleet.note { s with plane := w.plane } o (vipKeyString vip) (.ok ())).setTask o
        ⟨(s.tasks o).wanted, vipKeyString vip :: (s.tasks o).programmed, some (next (.ok ()))⟩ := by
  have answer : Fleet.answer o calm (.upsertVIP vip) s =
      (.ok (), Fleet.note { s with plane := w.plane } o (vipKeyString vip) (.ok ())) := by
    simp only [Fleet.answer, Fleet.perform, ok]
  rw [Fleet.step_call left, answer]
  simp only [Fleet.note, Fleet.setTask_self]

theorem firstPass_over {p : Dataplane} {vip : VIP} {w : World}
    (ok : (Op.upsertVIP vip).outcome calm p = (.ok (), w)) (unclaimed : 0 < p.unclaimed.size) :
    (Run.run Startup.step (Startup.start p false) (retriedEvents vip ++ programmedEvents)).Prunes ∧
      (Run.run Startup.step (Startup.start p false) (retriedEvents vip ++ programmedEvents)).settled web =
        some [vipKeyString vip] ∧
      (Run.run Startup.step (Startup.start p false)
        (retriedEvents vip ++ programmedEvents)).fleet.plane = w.plane := by
  have start : Startup.start p false = ⟨.start p, fun _ => .new, [.service], some 0, fun _ => none⟩ := by
    simp only [Startup.start, unclaimed, if_true, Bool.false_eq_true, if_false]
  rw [start, Run.run_append, programmedEvents, List.replicate_succ, List.cons_append, Run.run_cons]
  -- The reconcile asks for the VIP, and only this answer depends on the control plane.
  have left : ((Run.run Startup.step ⟨.start p, fun _ => .new, [.service], some 0, fun _ => none⟩
      (retriedEvents vip)).fleet.tasks web).left = some (.call (.upsertVIP vip) _) :=
    Eq.trans (b := some (reconcile "default/web" (.wants [⟨vip, []⟩]))) rfl (congrArg some rfl)
  have asked := Fleet.step_upsert left ok
  simp only [Startup.step, left, Startup.setFleet, asked]
  refine ⟨?_, by cbv, by cbv⟩
  unfold Startup.Prunes
  cbv

/-- The control plane at start-up, with the VIP left behind waiting to be claimed. -/
def leftBehindPlane : Dataplane := .recovered plainNode (leftBehindScan 1031) calm true

theorem leftBehindPlane_owned : Owned (fun _ => 0) leftBehindPlane := by
  have backends : leftBehindPlane.backendAlloc.max = maxBackends ∧
      (∀ e ∈ leftBehindPlane.services.entries, ∀ b ∈ e.2.backendIDs.entries,
        leftBehindPlane.backendAlloc.ids.get? b.1 = some b.2) ∧
      (∀ b ∈ leftBehindPlane.backendAlloc.ids.entries,
        (leftBehindPlane.backendStates.get? b.2).map BackendState.name = some b.1) ∧
      ∀ e ∈ leftBehindPlane.backendStates.entries,
        leftBehindPlane.backendAlloc.ids.get? e.2.name = some e.1 ∧
          e.2.isV4 = ((parseIP e.2.address).bind IP.to4).isSome ∧
          e.2.refCount = leftBehindPlane.refs e.2.name ∧ 0 < leftBehindPlane.refs e.2.name := by
    decide +kernel
  have services : leftBehindPlane.serviceAlloc.max = maxVIPs ∧
      leftBehindPlane.serviceAlloc.ids.entries = [("10.0.0.100:80:tcp", 0)] ∧
      leftBehindPlane.services.entries.map (fun e => (e.1, e.2.serviceID, e.2.extent.offset, e.2.extent.size)) =
        [("10.0.0.100:80:tcp", 0, 0, 1031)] ∧
      leftBehindPlane.maglevAlloc.free.map (fun e => (e.offset, e.size)) = [(1031, 64506)] := by
    decide +kernel
  generalize leftBehindPlane = p at backends services ⊢
  obtain ⟨capacity, listed, stated, held⟩ := backends
  obtain ⟨capacity', ids, entries, free⟩ := services
  obtain ⟨⟨key, entry⟩, entries, is⟩ := List.map_eq_singleton_iff.mp entries
  obtain ⟨⟨offset, size⟩, free, is'⟩ := List.map_eq_singleton_iff.mp free
  simp only [Prod.mk.injEq] at is is'
  obtain ⟨rfl, serviceID, start, length⟩ := is
  obtain ⟨rfl, rfl⟩ := is'
  refine ⟨⟨capacity, fun found lists => ?_, fun given => ?_, fun found => ?_, fun found => ?_, nofun⟩,
    ⟨capacity', fun k => ?_⟩, ?_, fun found => ?_⟩
  · exact listed _ (FMap.get?_eq_some.mp found) _ (FMap.get?_eq_some.mp lists)
  · exact Option.map_eq_some_iff.mp (stated _ (FMap.get?_eq_some.mp given))
  · obtain ⟨given, family, _⟩ := held _ (FMap.get?_eq_some.mp found)
    exact ⟨given, family⟩
  · obtain ⟨_, _, counted⟩ := held _ (FMap.get?_eq_some.mp found)
    exact counted
  · by_cases same : "10.0.0.100:80:tcp" = k <;>
      simp [FMap.get?, ids, entries, same, serviceID]
  · have slots : entry.extent.slots = List.range' 0 1031 := by rw [Extent.slots, start, length]
    simp only [Tiled, ExtentAllocator.slots, Dataplane.extents, FMap.values, free, entries, List.map_cons,
      List.map_nil, List.append_nil, List.flatMap_cons, List.flatMap_nil, slots]
    refine List.perm_append_comm.trans (.of_eq ?_)
    rw [Extent.slots, List.range_eq_range']
    exact List.range'_append_1
  · rw [FMap.get?_eq_some, entries, List.mem_singleton] at found
    cases found
    exact .inr (length ▸ by decide)

end Inputs

/-- The removal after a first pass over one Service spares the recovered VIP the Service wants. -/
theorem prune_waits_for_retried_service :
    leftBehindPlane.unclaimed.contains "10.0.0.100:80:tcp" = true ∧
      (∃ present, ((Run.run Startup.step (Startup.start leftBehindPlane false)
        (retriedEvents leftBehindVIP ++ programmedEvents)).sides .service).present = some present ∧
        ∀ key ∈ present, (Run.run Startup.step (Startup.start leftBehindPlane false)
          (retriedEvents leftBehindVIP ++ programmedEvents)).Reconciled ⟨.service, key⟩) ∧
      ((Run.run Startup.step (Startup.start leftBehindPlane false)
        (retriedEvents leftBehindVIP ++ programmedEvents)).step
          (.prune calm)).fleet.plane.services.contains "10.0.0.100:80:tcp" = true := by
  have key : vipKeyString leftBehindVIP = "10.0.0.100:80:tcp" := by decide +kernel
  have fits : Fits leftBehindPlane leftBehindVIP := by decide +kernel
  have unclaimed : leftBehindPlane.unclaimed.contains "10.0.0.100:80:tcp" = true ∧
      0 < leftBehindPlane.unclaimed.size := by decide +kernel
  obtain ⟨w, run⟩ := upsertVIP_of_fits (s := ⟨leftBehindPlane, [], 0⟩) leftBehindPlane_owned fits calm_reliable
  obtain ⟨_, _, _, _, up, _⟩ := upsertVIP_ok (s := ⟨leftBehindPlane, [], 0⟩) leftBehindPlane_owned run
  have entry := up.entry
  obtain ⟨prunes, settled, plane⟩ := @firstPass_over leftBehindPlane leftBehindVIP w run unclaimed.2
  obtain ⟨reconciled, spared⟩ := prune_waits_for_first_pass false prunes calm
  rw [key] at settled entry
  have kept := spared _ _ settled _ (List.mem_singleton_self _)
  refine ⟨unclaimed.1, reconciled .service (List.mem_singleton_self _), ?_⟩
  rw [FMap.contains, kept, plane, entry]
  rfl

end Rivora.Reconciler

import Rivora.Healthcheck
import Rivora.Lib.Run

/-! The verdict on a backend as a property of its probe results alone. -/

namespace Rivora.Healthcheck

variable {need : Bool → Nat} {s : State} {results : List Bool} {id : Nat} {c : Checker}

/-- The results of a backend since it became a target, newest first; nothing while it is none. -/
def heard (id : Nat) (known : Option (List Bool)) : Event → Option (List Bool)
  | .setTargets targets => if targets.any fun t => t.id = id then some (known.getD []) else none
  | .probed id' ok => if id' = id then known.map (ok :: ·) else known

/-- What the newest run of results that was long enough for a verdict says; up before there is one. -/
def lastDecision (need : Bool → Nat) : List Bool → Bool
  | [] => true
  | ok :: earlier =>
    if (ok :: earlier).take (need ok) = List.replicate (need ok) ok then ok else lastDecision need earlier

/-- The length of a run that decides: the threshold, but at least one result. -/
def needed (threshold : Bool → Int) (ok : Bool) : Nat := max 1 (threshold ok).toNat

/-- The state that counting results leads to. -/
def tally (threshold : Bool → Int) : List Bool → State
  | [] => ⟨true, 0⟩
  | ok :: earlier => (tally threshold earlier).count (threshold ok) ok

/-- A counter that is right about the results behind it. -/
structure Counted (need : Bool → Nat) (s : State) (results : List Bool) : Prop where
  verdict : s.healthy = lastDecision need results
  run : s.consecutive = (results.takeWhile (· != s.healthy)).length

theorem take_eq_replicate (b : Bool) (k : Nat) (results : List Bool) :
    results.take k = List.replicate k b ↔ k ≤ (results.takeWhile (· == b)).length := by
  induction results generalizing k with
  | nil => cases k <;> simp [List.replicate_succ]
  | cons r rest ih =>
    cases k with
    | zero => simp
    | succ k =>
      rw [List.take_succ_cons, List.replicate_succ, List.cons.injEq, ih, List.takeWhile_cons]
      by_cases same : r = b <;> simp [same]

/-- Counting a result keeps the counter right: a verdict changes when the run of results says so. -/
theorem Counted.count (counted : Counted need s results) {threshold : Int} {ok : Bool}
    (enough : ∀ k : Nat, threshold ≤ k + 1 ↔ need ok ≤ k + 1) :
    Counted need (s.count threshold ok) (ok :: results) := by
  obtain ⟨verdict, run⟩ := counted
  unfold State.count
  by_cases agrees : ok = s.healthy
  · -- A result that agrees ends the run against the verdict, and cannot decide otherwise.
    rw [if_pos agrees]
    refine ⟨?_, by simp [agrees]⟩
    rw [lastDecision, ← verdict, agrees]
    split <;> rfl
  · rw [if_neg agrees]
    have opposite : ∀ r : Bool, (r != s.healthy) = (r == ok) := by
      cases ok <;> cases healthy : s.healthy <;> simp_all
    simp only [opposite] at run
    have longer : ((ok :: results).takeWhile (· == ok)).length = s.consecutive + 1 := by simp [run]
    split
    · rename_i long
      rw [enough, ← longer, ← take_eq_replicate] at long
      exact ⟨by rw [lastDecision, if_pos long], by simp⟩
    · rename_i short
      rw [enough, ← longer, ← take_eq_replicate] at short
      refine ⟨?_, by simp only [opposite]; exact longer.symm⟩
      rw [lastDecision, if_neg short]
      exact verdict

theorem counted_tally (threshold : Bool → Int) (results : List Bool) :
    Counted (needed threshold) (tally threshold results) results := by
  induction results with
  | nil => exact ⟨rfl, rfl⟩
  | cons ok earlier ih =>
    refine ih.count fun k => ?_
    unfold needed
    omega

theorem get?_setTargets (c : Checker) (targets : List Target) (id : Nat) :
    (c.setTargets targets).states.get? id =
      if targets.any fun t => t.id = id then some ((c.states.get? id).getD ⟨true, 0⟩) else none := by
  have one : ∀ (states : FMap Nat State) (t : Target),
      (if states.contains t.id then states else states.insert t.id ⟨true, 0⟩).get? id =
        if t.id = id then some ((states.get? id).getD ⟨true, 0⟩) else states.get? id := by
    intro states t
    by_cases same : t.id = id
    · subst same
      cases known : states.get? t.id <;> simp [FMap.contains, known]
    · rw [if_neg same]
      split <;> simp [FMap.get?_insert_of_ne _ _ (Ne.symm same)]
  -- Going through the targets adds those among them that are new.
  have added : ∀ states : FMap Nat State, (targets.foldl (fun states t =>
      if states.contains t.id then states else states.insert t.id ⟨true, 0⟩) states).get? id =
        if targets.any fun t => t.id = id then some ((states.get? id).getD ⟨true, 0⟩) else states.get? id := by
    induction targets with
    | nil => simp
    | cons t rest ih =>
      intro states
      rw [List.foldl_cons, ih, one, List.any_cons]
      by_cases same : t.id = id <;> simp [same]
  rw [Checker.setTargets, FMap.get?_filterKeys, added]
  split <;> simp_all

/-- A step keeps the state of each backend the tally of what was heard of it. -/
theorem tally_step {known : Option (List Bool)} (tallied : c.states.get? id = known.map (tally c.threshold))
    (event : Event) : (c.step event).threshold = c.threshold ∧
      (c.step event).states.get? id = (heard id known event).map (tally c.threshold) := by
  cases event with
  | setTargets targets =>
    refine ⟨rfl, ?_⟩
    rw [Checker.step, get?_setTargets, tallied, heard]
    split
    · cases known <;> rfl
    · rfl
  | probed id' ok =>
    rw [Checker.step, Checker.probeOne, heard]
    by_cases same : id' = id
    · subst same
      rw [tallied, if_pos rfl]
      cases known with
      | none => exact ⟨rfl, tallied⟩
      | some results => exact ⟨rfl, FMap.get?_insert_self _ _ _⟩
    · rw [if_neg same]
      cases c.states.get? id' with
      | none => exact ⟨rfl, tallied⟩
      | some s => exact ⟨rfl, (FMap.get?_insert_of_ne _ _ (Ne.symm same)).trans tallied⟩

/--
After any interleaving of probes of any backends and changes of the targets, the verdict on a backend is that
of its newest run of equal results that reached the threshold of its kind, since it became a target.

It is healthy before there is such a run, and a backend that is no target is not healthy.
-/
theorem verdict_is_last_decision (failThreshold successThreshold : Int) (events : List Event) (id : Nat) :
    let c := Checker.new failThreshold successThreshold
    (Run.run Checker.step c events).isHealthy id =
      ((events.foldl (heard id) none).map (lastDecision (needed c.threshold))).getD false := by
  -- Both folds go on from any checker whose state for the backend is the tally of what was heard.
  suffices general : ∀ (c : Checker) known, c.states.get? id = known.map (tally c.threshold) →
      (Run.run Checker.step c events).isHealthy id =
        ((events.foldl (heard id) known).map (lastDecision (needed c.threshold))).getD false from general _ none rfl
  induction events with
  | nil =>
    intro c known tallied
    rw [Run.run_nil, Checker.isHealthy, tallied]
    cases known with
    | none => rfl
    | some results => exact (counted_tally c.threshold results).verdict
  | cons event rest ih =>
    intro c known tallied
    obtain ⟨same, next⟩ := tally_step tallied event
    rw [← same] at next ⊢
    exact ih _ _ next

end Rivora.Healthcheck

import Rivora.Dataplane.Ops

/-! The health checker: results of probes are counted, and enough of them in a row change a verdict. -/

namespace Rivora.Healthcheck

/-- What is kept of a probed backend: the verdict, and how many results in a row have disagreed with it. -/
structure State where
  healthy : Bool
  consecutive : Nat
  deriving DecidableEq, Repr

/-- The thresholds of a checker, and the backends it knows. -/
structure Checker where
  failThreshold : Int
  successThreshold : Int
  states : FMap Nat State

/-- A checker that has probed nothing. -/
def Checker.new (failThreshold successThreshold : Int) : Checker := ⟨failThreshold, successThreshold, FMap.empty⟩

/-- Replace the set of checked backends; a new one starts healthy. -/
def Checker.setTargets (c : Checker) (targets : List Target) : Checker :=
  let states := targets.foldl (fun states t =>
    if states.contains t.id then states else states.insert t.id ⟨true, 0⟩) c.states
  { c with states := states.filterKeys fun id => targets.any fun t => t.id = id }

/-- Whether a backend counts as healthy. -/
def Checker.isHealthy (c : Checker) (id : Nat) : Bool :=
  match c.states.get? id with
  | some s => s.healthy
  | none => false

/-- How many results of a kind in a row a verdict takes. -/
def Checker.threshold (c : Checker) (ok : Bool) : Int := if ok then c.successThreshold else c.failThreshold

/-- Count a result. -/
def State.count (threshold : Int) (ok : Bool) (s : State) : State :=
  if ok = s.healthy then { s with consecutive := 0 }
  else if threshold ≤ s.consecutive + 1 then ⟨ok, 0⟩
  else { s with consecutive := s.consecutive + 1 }

/-- What a finished probe does behind the lock; the verdict is reported if it changed. -/
def Checker.probeOne (c : Checker) (id : Nat) (ok : Bool) : Checker × Option Bool :=
  match c.states.get? id with
  -- The backend was dropped while its probe ran.
  | none => (c, none)
  | some s =>
    let s' := s.count (c.threshold ok) ok
    ({ c with states := c.states.insert id s' }, if s'.healthy ≠ s.healthy then some s'.healthy else none)

/-- Probes of one round run side by side, and targets are replaced at any time between their ends. -/
inductive Event where
  | setTargets (targets : List Target)
  | probed (id : Nat) (ok : Bool)

/-- The checker after an event. -/
def Checker.step (c : Checker) : Event → Checker
  | .setTargets targets => c.setTargets targets
  | .probed id ok => (c.probeOne id ok).1

end Rivora.Healthcheck

import Rivora.Controller.Fleet
import Rivora.Lib.WorkQueue

/-!
Start-up: the first pass of the reconcilers over what there is, and the removal of what none of them claims.

Each reconciler waits for its caches, notes the keys in them with a tracker and then lets its workers at the
queue. Beside them a task waits for every tracker and then has the unclaimed VIPs removed.
-/

namespace Rivora.Reconciler

/-- The keys a reconciler has still to finish before its first pass is over. -/
structure Tracker where
  pending : List String
  armed : Bool
  /-- Whether the channel that announces the end is closed. -/
  done : Bool
  deriving DecidableEq, Repr

/-- A tracker that has not been armed. -/
def Tracker.new : Tracker := ⟨[], false, false⟩

/-- Announce the end if nothing is pending. -/
def Tracker.complete (t : Tracker) : Tracker :=
  if t.pending = [] then { t with done := true } else t

/-- Record the keys to wait for; only the first time counts. -/
def Tracker.arm (t : Tracker) (keys : List String) : Tracker :=
  if t.armed then t
  else ({ t with armed := true, pending := keys.eraseDups } : Tracker).complete

/-- A key was reconciled. -/
def Tracker.finished (t : Tracker) (key : String) : Tracker :=
  if !t.armed || key ∉ t.pending then t
  else ({ t with pending := t.pending.filter (· ≠ key) } : Tracker).complete

/-- One reconciler at start-up. -/
structure Side where
  queue : WorkQueue String
  /-- The keys that failed and wait to be queued again. -/
  delayed : List String
  tracker : Tracker
  /-- The keys its caches held when its workers started, once they have. -/
  present : Option (List String)

/-- A reconciler before its caches are there. -/
def Side.new : Side := ⟨.empty, [], .new, none⟩

/-- Both reconcilers and the task that waits for them. -/
structure Startup where
  fleet : Fleet
  sides : Kind → Side
  /-- The reconcilers there are, in the order in which the task waits for them. -/
  firstPass : List Kind
  /-- For how many of them the task has waited; nothing once it is over. -/
  waiting : Option Nat
  /-- What the latest successful reconcile of an object wanted, once there was one. -/
  settled : Owner → Option (List String)

/-- A daemon that has recovered VIPs and starts its reconcilers. -/
def Startup.start (plane : Dataplane) (withGateway : Bool) : Startup where
  fleet := .start plane
  sides _ := .new
  firstPass := if withGateway then [.service, .gateway] else [.service]
  -- Without unclaimed VIPs there is nothing to wait for.
  waiting := if 0 < plane.unclaimed.size then some 0 else none
  settled _ := none

/-- One reconciler changed. -/
def Startup.setSide (s : Startup) (kind : Kind) (side : Side) : Startup :=
  { s with sides := Function.update s.sides kind side }

@[simp] theorem Startup.setSide_self (s : Startup) (kind : Kind) (side : Side) :
    (s.setSide kind side).sides kind = side := by simp [Startup.setSide]

@[simp] theorem Startup.setSide_of_ne (s : Startup) {kind other : Kind} (side : Side)
    (differ : other ≠ kind) : (s.setSide kind side).sides other = s.sides other := by
  simp [Startup.setSide, differ]

/-- The next thing that happens at start-up. -/
inductive StartupEvent where
  /-- An informer's event handler queues a key. -/
  | enqueue (kind : Kind) (key : String)
  /-- A reconciler's caches are there and hold these keys: it arms its tracker and starts its workers. -/
  | run (kind : Kind) (present : List String)
  /-- A worker takes the next key and looks its object up. -/
  | take (kind : Kind) (observed : Observed)
  /-- The reconcile of an object makes its next call, or returns. -/
  | advance (o : Owner) (env : Env)
  /-- The delay of a key that failed is over. -/
  | retry (kind : Kind) (key : String)
  /-- The task sees that the next tracker is done. -/
  | awaited
  /-- The task's time is up, or the daemon is stopping. -/
  | giveUp
  /-- The task has the unclaimed VIPs removed. -/
  | prune (env : Env)

/-- The task has waited for every tracker and calls for the removal. -/
def Startup.Prunes (s : Startup) : Prop := s.waiting = some s.firstPass.length

instance (s : Startup) : Decidable s.Prunes := inferInstanceAs (Decidable (_ = _))

/-- A worker puts a key down, with what its reconcile returned. -/
def Side.putDown (side : Side) (key : String) : Except GoError Unit → Side
  | .error _ => { side with delayed := key :: side.delayed, queue := side.queue.done key }
  | .ok _ => { side with tracker := side.tracker.finished key, queue := side.queue.done key }

/-- What is known of the successful reconciles once one has returned. -/
def Startup.settle (s : Startup) (o : Owner) : Except GoError Unit → Owner → Option (List String)
  | .error _ => s.settled
  | .ok _ => Function.update s.settled o (some (s.fleet.tasks o).wanted)

/-- What happens to the fleet. -/
def Startup.setFleet (s : Startup) (turn : Turn) : Startup := { s with fleet := s.fleet.step turn }

/-- One event. -/
def Startup.step (s : Startup) : StartupEvent → Startup
  | .enqueue kind key =>
    s.setSide kind { s.sides kind with queue := (s.sides kind).queue.add key }
  | .run kind present =>
    -- A reconciler that is not there does not run, and none runs twice.
    if kind ∈ s.firstPass ∧ (s.sides kind).present = none then
      s.setSide kind { s.sides kind with
        tracker := (s.sides kind).tracker.arm present, present := some present }
    else s
  | .take kind observed =>
    match (s.sides kind).present, (s.sides kind).queue.get with
    | some _, some (key, queue) =>
      (s.setSide kind { s.sides kind with queue := queue }).setFleet (.start ⟨kind, key⟩ observed)
    | _, _ => s
  | .advance o env =>
    match (s.fleet.tasks o).left with
    | some (.done r) =>
      ({ s.setSide o.kind ((s.sides o.kind).putDown o.key r) with settled := s.settle o r }).setFleet
        (.advance o env)
    | _ => s.setFleet (.advance o env)
  | .retry kind key =>
    if key ∈ (s.sides kind).delayed then
      s.setSide kind { s.sides kind with
        delayed := (s.sides kind).delayed.erase key, queue := (s.sides kind).queue.add key }
    else s
  | .awaited =>
    match s.waiting with
    | none => s
    | some i =>
      match s.firstPass[i]? with
      | none => s
      | some kind => if (s.sides kind).tracker.done then { s with waiting := some (i + 1) } else s
  | .giveUp => { s with waiting := none }
  | .prune env =>
    if s.Prunes then
      { s with fleet := { s.fleet with plane := s.fleet.plane.pruned env }, waiting := none }
    else s

end Rivora.Reconciler

import Rivora.Controller.Reconcile
import Rivora.Dataplane.Ops
import Rivora.Lib.Run

/-!
The Service and the Gateway reconciler at work on one data plane.

The queue hands an object to one worker at a time, so each object has at most one reconcile in progress.
The reconciles of different objects take turns: between two calls of one, any number of calls of others
can happen. Each call is one step, because the data plane and the tables are behind locks.
-/

namespace Rivora.Reconciler

open Interaction

/-- The two reconcilers. -/
inductive Kind where
  | service
  | gateway
  deriving DecidableEq, Repr

/-- An object, under the reconciler it belongs to. -/
structure Owner where
  kind : Kind
  key : String
  deriving DecidableEq, Repr

/-- Where the work on one object stands. -/
structure Task where
  /-- The VIPs its latest reconcile wants. -/
  wanted : List String
  /-- Those of them that this reconcile has programmed. -/
  programmed : List String
  /-- What is left of the reconcile, if it is in progress. -/
  left : Option (Reconcile (Except GoError Unit))

/-- Nothing has been done about an object yet. -/
def Task.idle : Task := ⟨[], [], none⟩

/-- The data plane, the tables of both reconcilers, and the work on every object. -/
structure Fleet where
  plane : Dataplane
  installed : FMap Owner (List String)
  tasks : Owner → Task

/-- Both reconcilers before their first reconcile. -/
def Fleet.start (plane : Dataplane) : Fleet := ⟨plane, FMap.empty, fun _ => .idle⟩

/-- What is recorded as installed for an object. -/
def Fleet.recorded (s : Fleet) (o : Owner) : List String := (s.installed.get? o).getD []

/-- The work on one object taken further. -/
def Fleet.setTask (s : Fleet) (o : Owner) (t : Task) : Fleet :=
  { s with tasks := Function.update s.tasks o t }

@[simp] theorem Fleet.setTask_plane (s : Fleet) (o : Owner) (t : Task) :
    (s.setTask o t).plane = s.plane := rfl

@[simp] theorem Fleet.setTask_recorded (s : Fleet) (o other : Owner) (t : Task) :
    (s.setTask o t).recorded other = s.recorded other := rfl

@[simp] theorem Fleet.setTask_self (s : Fleet) (o : Owner) (t : Task) :
    (s.setTask o t).tasks o = t := by simp [Fleet.setTask]

@[simp] theorem Fleet.setTask_of_ne (s : Fleet) {o other : Owner} (t : Task) (differ : other ≠ o) :
    (s.setTask o t).tasks other = s.tasks other := by simp [Fleet.setTask, differ]

/-- Run an operation of the data plane. -/
def Fleet.perform (s : Fleet) (op : Op) (env : Env) : Except GoError Unit × Fleet :=
  ((op.outcome env s.plane).1, { s with plane := (op.outcome env s.plane).2.plane })

/-- Note that the reconcile of an object has programmed a VIP. -/
def Fleet.note (s : Fleet) (o : Owner) (key : String) : Except GoError Unit → Fleet
  | .ok _ => s.setTask o { s.tasks o with programmed := key :: (s.tasks o).programmed }
  | .error _ => s

/-- The answer to a call that the reconcile of an object makes. -/
def Fleet.answer (o : Owner) (env : Env) : (c : Call) → Fleet → c.Reply × Fleet
  | .upsertVIP vip, s =>
    let (r, s') := s.perform (.upsertVIP vip) env
    (r, s'.note o (vipKeyString vip) r)
  | .setBackendDrainingByKey vipKey backendKey draining, s =>
    s.perform (.setBackendDrainingByKey vipKey backendKey draining) env
  | .removeVIP key, s => s.perform (.removeVIP key) env
  | .getInstalled key, s => (s.recorded ⟨o.kind, key⟩, s)
  | .setInstalled key keys, s => ((), { s with installed := s.installed.insert ⟨o.kind, key⟩ keys })
  | .deleteInstalled key, s => ((), { s with installed := s.installed.erase ⟨o.kind, key⟩ })
  | .iterate keys, s => (env.order 0 keys, s)
  | .onChange, s => ((), s)

/-- What can happen next. -/
inductive Turn where
  /-- A worker takes an object up. -/
  | start (o : Owner) (observed : Observed)
  /-- The reconcile in progress for an object makes its next call, or returns. -/
  | advance (o : Owner) (env : Env)

/-- The work on an object that a worker takes up; a failed look-up says nothing about what is wanted. -/
def Task.begin (t : Task) (key : String) (observed : Observed) : Task :=
  match observed with
  | .failed e => { t with left := some (reconcile key (.failed e)) }
  | observed => ⟨observed.keys, [], some (reconcile key observed)⟩

/-- One turn. -/
def Fleet.step (s : Fleet) : Turn → Fleet
  | .start o observed =>
    match (s.tasks o).left with
    | none => s.setTask o ((s.tasks o).begin o.key observed)
    -- The queue does not hand out an object that is being worked on.
    | some _ => s
  | .advance o env =>
    match (s.tasks o).left with
    | none => s
    | some (.done _) => s.setTask o { s.tasks o with left := none }
    | some (.call c next) =>
      let (r, s') := Fleet.answer o env c s
      s'.setTask o { s'.tasks o with left := some (next r) }

end Rivora.Reconciler

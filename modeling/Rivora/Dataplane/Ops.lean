import Rivora.Dataplane.Vips

/-! The remaining operations of the control plane, and a run of one operation on a node. -/

namespace Rivora

/-- What a reload changed. -/
structure ReloadResult where
  added : Nat
  updated : Nat
  removed : Nat
  unchanged : Nat
  deriving DecidableEq, Repr

/-- What a reload will do, computed without touching any map. -/
structure ReloadPlan where
  /-- New or changed VIPs, in the order they are wanted. -/
  upserts : List VIP
  /-- Keys no longer wanted, in order. -/
  removes : List String
  unchanged : Nat

/-- Compare the recorded specs with the wanted VIPs; a later entry of a key wins. -/
def planReload (current : FMap String VIP) (desired : List VIP) : ReloadPlan :=
  let want := FMap.ofList (desired.map fun v => (vipKeyString v, v))
  -- Each wanted key once, at its first place.
  let wanted := (desired.map vipKeyString).eraseDups.filterMap want.get?
  { upserts := wanted.filter fun v => current.get? (vipKeyString v) ≠ some v
    removes := (current.keys.filter fun k => !want.contains k).insertionSort (· ≤ ·)
    unchanged := (wanted.filter fun v => current.get? (vipKeyString v) = some v).length }

/-- The recorded specs of the programmed VIPs. -/
def Dataplane.currentSpecs (p : Dataplane) : FMap String VIP :=
  ⟨p.services.entries.map fun (key, entry) => (key, entry.vipSpec), by
    simpa [Function.comp_def] using p.services.nodup⟩

/-- Whether an attempt failed. -/
def failedWith {α : Type} : α × Except GoError Unit → Option GoError
  | (_, .error e) => some e
  | (_, .ok _) => none

/-- The errors of several attempts as one error, a line for each. -/
def joinErrors : List GoError → Option GoError
  | [] => none
  | e :: rest => some
      ⟨rest.foldl (fun text e => text ++ "\n" ++ e.text) e.text,
        ((e :: rest).findSome? GoError.sentinel)⟩

/-- Make the programmed VIPs equal a list: removals first, then additions and updates. -/
def reloadVIPs (desired : List VIP) : M (ReloadResult × Option GoError) := do
  let p ← getPlane
  let current := p.currentSpecs
  let plan := planReload current desired
  let removals ← Effect.attempt plan.removes fun key =>
    Effect.mapError (GoError.wrap ("remove vip " ++ key ++ ": ")) (removeVIP key)
  let upserts ← Effect.attempt plan.upserts upsertVIP
  let done := upserts.filter fun r => (failedWith r).isNone
  return (
    { added := done.countP fun r => !current.contains (vipKeyString r.1)
      updated := done.countP fun r => current.contains (vipKeyString r.1)
      removed := removals.countP fun r => (failedWith r).isNone
      unchanged := plan.unchanged },
    joinErrors (removals.filterMap failedWith ++ upserts.filterMap failedWith))

/-- Record a probe verdict for a backend; a removed backend's verdict is stale and ignored. -/
def setBackendHealth (backendID : Nat) (healthy : Bool) : M Unit := do
  let p ← getPlane
  match p.backendStates.get? backendID with
  | none => pure ()
  | some _ => do
    modifyPlane fun p => p.modifyBackend backendID fun st => { st with probeHealthy := healthy }
    writeHealth backendID

/-- Record an endpoint's drain for a backend. -/
def setBackendDraining (backendID : Nat) (draining : Bool) : M Unit := do
  let p ← getPlane
  match p.backendStates.get? backendID with
  | none => pure ()
  | some _ => do
    modifyPlane fun p => p.modifyBackend backendID fun st => { st with draining := draining }
    writeHealth backendID

/-- Record an endpoint's drain for a backend named within a VIP; a miss is ignored. -/
def setBackendDrainingByKey (vipKey backendKey : String) (draining : Bool) : M Unit := do
  let p ← getPlane
  match p.services.get? vipKey with
  | none => pure ()
  | some entry =>
    match entry.backendIDs.get? backendKey with
    | none => pure ()
    | some id => setBackendDraining id draining

/-- No VIP lists a backend. -/
def errBackendNotFound (backendID : Nat) : GoError :=
  ⟨"backend " ++ toString backendID ++ ": backend not found", some .backendNotFound⟩

/-- Record an operator's drain for a backend. -/
def setBackendAdminDraining (backendID : Nat) (draining : Bool) : M Unit := do
  let p ← getPlane
  match p.backendStates.get? backendID with
  | none => Effect.fail (errBackendNotFound backendID)
  | some _ => do
    modifyPlane fun p => p.modifyBackend backendID fun st => { st with adminDraining := draining }
    writeHealth backendID

/-- The largest weight an operator may set. -/
def maxBackendWeight : Nat := 1000

/-- A weight is above the largest. -/
def errInvalidWeight (weight : Nat) : GoError :=
  ⟨"weight " ++ toString weight ++ " exceeds maximum " ++ toString maxBackendWeight
    ++ ": invalid weight", some .invalidWeight⟩

/-- No VIP has a key. -/
def errVIPNotFound (key : String) : GoError :=
  ⟨"vip " ++ key.quote ++ ": vip not found", some .vipNotFound⟩

/-- A VIP recovered at start-up has not been programmed since. -/
def errNotReconciled (key : String) : GoError :=
  ⟨"vip " ++ key.quote ++ " was recovered at start-up and is not reconciled yet, " ++
    "try again shortly: vip not found", some .vipNotFound⟩

/-- The VIPs and names under which a backend is listed, over VIP keys in a given order. -/
def weightTargets (backendID : Nat) : List String → M (List (String × String))
  | [] => pure []
  | key :: rest => do
    let entry ← getEntry key
    let names ← iterate entry.backendIDs.keys
    let here := (names.filter fun name => entry.backendIDs.get? name = some backendID).map (key, ·)
    let later ← weightTargets backendID rest
    return here ++ later

/-- Set or clear a backend's weight override in one VIP. -/
def ServiceEntry.overrideWeight (e : ServiceEntry) (name : String) (weight : Nat) : ServiceEntry :=
  { e with
    weightOverrides :=
      if weight = 0 then e.weightOverrides.erase name else e.weightOverrides.insert name weight }

/-- Override a backend's weight in one VIP and program that VIP again from its recorded spec. -/
def reweighVIP (key name : String) (weight : Nat) : M Unit := do
  modifyEntry key fun e => e.overrideWeight name weight
  let entry ← getEntry key
  upsertVIP entry.vipSpec

/-- Override a backend's weight in one VIP, or in every VIP that lists it. -/
def setBackendWeight (backendID : Nat) (vipKey : String) (weight : Nat) : M Nat :=
  if weight > maxBackendWeight then Effect.fail (errInvalidWeight weight)
  else do
    let p ← getPlane
    if vipKey ≠ "" ∧ p.services.contains vipKey = false then
      Effect.fail (errVIPNotFound vipKey)
    else do
      let keys ← iterate p.services.keys
      let asked := keys.filter fun key => vipKey = "" || key = vipKey
      -- A VIP recovered at start-up and not yet programmed has no spec to program again from.
      let waiting := asked.filter fun key => (p.unclaimed.get? key).getD false
      let targets ← weightTargets backendID
        (asked.filter fun key => !(p.unclaimed.get? key).getD false)
      if targets = [] then
        match waiting.getLast? with
        | some key => Effect.fail (errNotReconciled key)
        | none => Effect.fail (errBackendNotFound backendID)
      else do
        Effect.forEach targets fun (key, name) => reweighVIP key name weight
        return targets.length

/-- Remove every VIP recovered at start-up that nobody has programmed since. -/
def pruneUnclaimed : M (List String) := do
  let p ← getPlane
  let keys := p.unclaimed.keys.insertionSort (· ≤ ·)
  Effect.forEach keys fun key => Effect.ignoring (removeVIP key)
  return keys

/-- The control plane once the unclaimed VIPs are removed. -/
def Dataplane.pruned (p : Dataplane) (env : Env) : Dataplane := (pruneUnclaimed env ⟨p, [], 0⟩).2.plane

/-- One backend as the health checker is told to probe it. -/
structure Target where
  id : Nat
  address : String
  port : UInt16
  probe : ProbeSpec
  deriving DecidableEq, Repr

/-- The operations of the control plane. -/
inductive Op where
  | upsertVIP (vip : VIP)
  | removeVIP (key : String)
  | reloadVIPs (desired : List VIP)
  | setBackendWeight (backendID : Nat) (vipKey : String) (weight : Nat)
  | setBackendHealth (backendID : Nat) (healthy : Bool)
  | setBackendDraining (backendID : Nat) (draining : Bool)
  | setBackendDrainingByKey (vipKey backendKey : String) (draining : Bool)
  | setBackendAdminDraining (backendID : Nat) (draining : Bool)

/-- Run an operation; a reload fails if any of its parts did. -/
def Op.run : Op → M Unit
  | .upsertVIP vip => Rivora.upsertVIP vip
  | .removeVIP key => Rivora.removeVIP key
  | .reloadVIPs desired => do
    match (← Rivora.reloadVIPs desired).2 with
    | none => pure ()
    | some e => Effect.fail e
  | .setBackendWeight id key weight => do
    let _ ← Rivora.setBackendWeight id key weight
    pure ()
  | .setBackendHealth id healthy => Rivora.setBackendHealth id healthy
  | .setBackendDraining id draining => Rivora.setBackendDraining id draining
  | .setBackendDrainingByKey vipKey backendKey draining =>
    Rivora.setBackendDrainingByKey vipKey backendKey draining
  | .setBackendAdminDraining id draining => Rivora.setBackendAdminDraining id draining

/-- A node: its control state and its kernel maps. -/
structure Node where
  plane : Dataplane
  maps : Maps

/-- The error an operation on a node returns, if any, and the writes it made in order. -/
def Op.outcome (op : Op) (env : Env) (plane : Dataplane) : Except GoError Unit × World :=
  op.run env ⟨plane, [], 0⟩

/-- The node after an operation. -/
def Node.after (node : Node) (op : Op) (env : Env) : Node :=
  let world := (op.outcome env node.plane).2
  ⟨world.plane, replay world.writes node.maps⟩

/-- An operation returns no error. -/
def Op.Succeeds (op : Op) (env : Env) (plane : Dataplane) : Prop :=
  (op.outcome env plane).1 = .ok ()

end Rivora

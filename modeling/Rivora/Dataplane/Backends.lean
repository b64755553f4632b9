import Rivora.Dataplane.State

/-! Backends of the control plane: acquiring, describing, releasing, and their health entries. -/

namespace Rivora

/-- Stop with an error, or go on with a value. -/
def liftExcept {α : Type} : Except GoError α → M α
  | .ok a => pure a
  | .error e => Effect.fail e

/-- The state a backend starts with when no VIP listed it before. -/
def BackendState.fresh (b : Backend) : BackendState where
  address := b.address
  port := b.port
  isV4 := ((parseIP b.address).bind IP.to4).isSome
  probeHealthy := true
  draining := false
  probe := default
  mac := Mac.zero
  hasMAC := false
  adminDraining := false
  refCount := 0

/-- A backend's health entry: a failed probe wins over a drain, and a drain over healthy. -/
def BackendState.health (st : BackendState) : Health :=
  if !st.probeHealthy then .down
  else if st.draining || st.adminDraining then .draining
  else .healthy

/-- Write a backend's health entry; nothing to do for an ID without state. -/
def writeHealth (id : Nat) : M Unit := do
  let p ← getPlane
  match p.backendStates.get? id with
  | none => pure ()
  | some st => write (.setHealth id st.health)

/-- The hardware address to store for a backend, remembering one it names. -/
def backendMAC (id : Nat) (b : Backend) : M Mac :=
  if b.mac ≠ "" then
    match parseMAC b.mac with
    | none => Effect.fail (.plain
        ("backend " ++ b.address ++ ": address " ++ b.mac ++ ": invalid MAC address"))
    | some mac => do
      modifyPlane fun p => p.modifyBackend id fun st => { st with mac := mac, hasMAC := true }
      return mac
  else do
    -- A VIP that names no address must not erase one that another VIP named.
    let p ← getPlane
    match p.backendStates.get? id with
    | none => return Mac.zero
    | some st => return if st.hasMAC then st.mac else Mac.zero

/-- The name of the backend map of one family, as errors print it. -/
def backendMapName (isV4 : Bool) : String := if isV4 then "backend_map" else "backend_map6"

/-- Write a backend's address, port and hardware address into the map of its family. -/
def writeBackendInfo (id : Nat) (b : Backend) : M Unit :=
  match parseIP b.address with
  | none => Effect.fail (.plain ("backend " ++ b.address ++ ": invalid address"))
  | some ip => do
    let mac ← backendMAC id b
    Effect.mapError
      (GoError.wrap ("update " ++ backendMapName ip.toAddr.isV4 ++ "[" ++ toString id ++ "]: "))
      (write (.setBackend ⟨ip.toAddr.isV4, id⟩ ⟨ip.toAddr, htons b.port, mac⟩))

/-- The control state with a backend's state created if it has none, and one more reference. -/
def Dataplane.reference (p : Dataplane) (id : Nat) (b : Backend) : Dataplane :=
  let st := (p.backendStates.get? id).getD (.fresh b)
  { p with backendStates := p.backendStates.insert id { st with refCount := st.refCount + 1 } }

/-- The control state once a backend has an ID and one more reference. -/
def Dataplane.acquired (p : Dataplane) (alloc : IdAllocator) (id : Nat) (b : Backend) : Dataplane :=
  ({ p with backendAlloc := alloc } : Dataplane).reference id b

/-- Give a backend an ID and one more reference, and write its entries. -/
def acquireBackend (name : String) (b : Backend) : M Nat := do
  let p ← getPlane
  match p.backendAlloc.alloc name with
  | (.error text, _) => Effect.fail (.plain text)
  | (.ok id, alloc) => do
    modifyPlane fun p => p.acquired alloc id b
    writeBackendInfo id b
    writeHealth id
    return id

/-- Drop one reference to a backend; the last one frees its entries and its ID. -/
def releaseBackend (name : String) (id : Nat) : M Unit := do
  let p ← getPlane
  match p.backendStates.get? id with
  | none => pure ()
  | some st =>
    if st.refCount - 1 > 0 then
      modifyPlane fun p =>
        { p with backendStates := p.backendStates.insert id { st with refCount := st.refCount - 1 } }
    else do
      modifyPlane fun p => { p with backendStates := p.backendStates.erase id }
      Effect.ignoring (write (.deleteBackend ⟨st.isV4, id⟩))
      -- An array entry cannot be deleted, so it is set to down.
      Effect.ignoring (write (.setHealth id .down))
      modifyPlane fun p => { p with backendAlloc := p.backendAlloc.release name }

end Rivora

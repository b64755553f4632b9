import Mathlib.Data.String.Basic
import Mathlib.Data.List.Sort
import Rivora.Dataplane.Backends
import Rivora.Dataplane.PortRange
import Rivora.Maglev.Table

/-! Programming and removing one VIP. -/

namespace Rivora

/-- Why a tunnel VIP cannot be programmed on this node. -/
def Dataplane.checkTunnelReady (p : Dataplane) (vip : VIP) : Except GoError Unit :=
  let mode := "mode " ++ vip.mode.text
  if !vip.mode.isTunnel then .ok ()
  else if !p.dp.tunnelConfig then
    .error (.plain (mode ++ ": this datapath object has no tunnel support; rebuild the BPF objects"))
  else if ((parseIP vip.address).bind IP.to4).isSome then
    if p.tunnelSrc4.isNone then
      .error (.plain (mode ++ ": no IPv4 tunnel source: set tunnelSource, or give " ++ p.interface
        ++ " an IPv4 address"))
    else .ok ()
  else if p.tunnelSrc6.isNone then
    .error (.plain (mode ++ ": no IPv6 tunnel source: set tunnelSource6, or give " ++ p.interface
      ++ " a global IPv6 address"))
  else .ok ()

/-- A configured limit as the packet program enforces it, divided over the CPUs. -/
def scaleRateLimit (numCPU pps burst : UInt64) : RLConfig :=
  let cpus := if numCPU = 0 then 1 else numCPU
  let rate := pps / cpus
  let b := burst / cpus
  ⟨if rate = 0 then 1 else rate, if b = 0 then 1 else b, true⟩

/-- The limit entry of a VIP. -/
def rateLimitEntry (numCPU : UInt64) (rl : VIPRateLimit) : RLConfig :=
  if rl.set then scaleRateLimit numCPU rl.perSourcePacketsPerSecond rl.burst else .zero

/-- Write or clear a service's own limit. -/
def applyServiceRateLimit (id : Nat) (rl : VIPRateLimit) : M Unit := do
  let p ← getPlane
  if !p.dp.svcRlConfig then
    if rl.set then
      Effect.fail (.plain
        "this datapath object has no per-VIP rate limit support; rebuild the BPF objects")
    else pure ()
  else
    Effect.mapError (GoError.wrap ("update svc_rl_config_map[" ++ toString id ++ "]: "))
      (write (.setSvcRl id (rateLimitEntry p.numCPU rl)))

/-- Zero a service's drop counters; best-effort. -/
def resetDropStats (id : Nat) : M Unit := do
  let p ← getPlane
  if p.dp.dropStats then Effect.ignoring (write (.resetDropStats id)) else pure ()

/-- The protocol number of a VIP. -/
def protoByte (p : Protocol) : UInt8 := if p = .udp then 17 else 6

/-- The mode byte of a VIP; anything unknown is DSR. -/
def modeByte : Mode → ServiceMode
  | .nat => .nat
  | .dsrIPIP => .tunnelIPIP
  | .dsrGRE => .tunnelGRE
  | _ => .dsr

/-- The affinity byte of a VIP. -/
def affinityByte (a : SessionAffinity) : ServiceAffinity :=
  if a.effective = .clientIP then .clientIP else .none

/-- The exact-port key of a VIP. -/
def vipKey (ip : IP) (vip : VIP) : VipKey := ⟨ip.toAddr, htons vip.port, protoByte vip.protocol⟩

/-- The trie key of one block of a VIP's range. -/
def rangeKey (ip : IP) (proto : UInt8) (b : PortBlock) : VipRangeKey :=
  ⟨rangePrefixBase ip.toAddr + b.bits, ip.toAddr, proto, htons b.port⟩

/-- Whether the datapath object has the trie of an address's family. -/
def Dataplane.hasRangeMap (p : Dataplane) (ip : IP) : Bool :=
  if ip.toAddr.isV4 then p.dp.vipRange else p.dp.vipRange6

/-- Delete blocks of a range; best-effort. -/
def rangeMapDeleteBlocks (ip : IP) (proto : UInt8) (blocks : List PortBlock) : M Unit := do
  let p ← getPlane
  if p.hasRangeMap ip then
    Effect.forEach blocks fun b => Effect.ignoring (write (.deleteVipRange (rangeKey ip proto b)))
  else pure ()

/-- Install the blocks of a range one by one, taking back those already in if one fails. -/
def rangeMapWriteFrom (ip : IP) (proto : UInt8) (serviceID : Nat) :
    (written : List PortBlock) → List PortBlock → M Unit
  | _, [] => pure ()
  | written, b :: rest => do
    match ← Effect.outcome (write (.setVipRange (rangeKey ip proto b) serviceID)) with
    | .ok _ => rangeMapWriteFrom ip proto serviceID (written ++ [b]) rest
    | .error e => do
      -- A half-installed range must not answer for part of its ports.
      rangeMapDeleteBlocks ip proto written
      Effect.fail (e.wrap "update vip_range_map: ")

/-- Install every block of a VIP's range. -/
def rangeMapWrite (ip : IP) (vip : VIP) (proto : UInt8) (serviceID : Nat) : M Unit := do
  let p ← getPlane
  if !p.hasRangeMap ip then
    Effect.fail (.plain "this datapath object has no port-range support; rebuild the BPF objects")
  else rangeMapWriteFrom ip proto serviceID [] (rangeBlocks vip.port vip.portEnd)

/-- Map a VIP's key, or the blocks of its range, to its service. -/
def vipMapWrite (vip : VIP) (serviceID : Nat) : M Unit :=
  match parseIP vip.address with
  | none => Effect.fail (.plain ("vip " ++ vip.address ++ ": invalid address"))
  | some ip =>
    if vip.isRange then rangeMapWrite ip vip (protoByte vip.protocol) serviceID
    else
      Effect.mapError
        (GoError.wrap (if ip.toAddr.isV4 then "update vip_map: " else "update vip_map6: "))
        (write (.setVip (vipKey ip vip) serviceID))

/-- Remove a VIP's key, or the blocks of its range. -/
def vipMapDelete (vip : VIP) : M Unit :=
  match parseIP vip.address with
  | none => Effect.fail (.plain ("vip " ++ vip.address ++ ": invalid address"))
  | some ip =>
    if vip.isRange then
      rangeMapDeleteBlocks ip (protoByte vip.protocol) (rangeBlocks vip.port vip.portEnd)
    else write (.deleteVip (vipKey ip vip))

/-- The backends of a VIP by name, the last one of a name winning. -/
def desiredBackends (vip : VIP) : FMap String Backend :=
  FMap.ofList (vip.backends.map fun b => (backendName b, b))

/-- A VIP with each overridden backend's weight replaced. -/
def VIP.overrideWeights (spec : VIP) (overrides : FMap String Nat) : VIP :=
  { spec with
    backends := spec.backends.map fun b =>
      match overrides.get? (backendName b) with
      | some w => { b with weight := w }
      | none => b }

/-- The overrides that still concern a backend of a VIP. -/
def pruneOverrides (spec : VIP) (overrides : FMap String Nat) : FMap String Nat :=
  overrides.filterKeys fun name => spec.backends.any fun b => backendName b = name

/-- The entry of a VIP that has an ID and nothing else yet. -/
def ServiceEntry.new (id : Nat) : ServiceEntry where
  serviceID := id
  vipSpec := default
  vip := default
  weightOverrides := FMap.empty
  backendIDs := FMap.empty
  extent := ⟨0, 0⟩

/-- The entry an operation holds on to; it stays in the map for as long as the operation runs. -/
def getEntry (key : String) : M ServiceEntry :=
  Effect.read fun s => (s.plane.services.get? key).getD (.new 0)

/-- Change the entry of a VIP. -/
def modifyEntry (key : String) (f : ServiceEntry → ServiceEntry) : M Unit :=
  modifyPlane fun p => p.modifyEntry key f

/-- Give a new VIP a service ID and an empty entry. -/
def createService (key : String) : M Unit := do
  let p ← getPlane
  match p.serviceAlloc.alloc key with
  | (.error text, _) => Effect.fail (.plain text)
  | (.ok id, alloc) => do
    modifyPlane fun p =>
      { p with
        serviceAlloc := alloc
        services := p.services.insert key (.new id) }
    -- The counters are pinned, so a freed ID may still carry the last VIP's counts.
    resetDropStats id

/-- The entry change that puts a backend on a VIP's list. -/
def ServiceEntry.list (name : String) (id : Nat) (e : ServiceEntry) : ServiceEntry :=
  { e with backendIDs := e.backendIDs.insert name id }

/-- The entry change that takes a backend off a VIP's list. -/
def ServiceEntry.unlist (name : String) (e : ServiceEntry) : ServiceEntry :=
  { e with backendIDs := e.backendIDs.erase name }

/-- Release one backend of a VIP unless it is wanted; the entry is the one the walk began with. -/
def releaseUnwanted (key : String) (desired : FMap String Backend) (entry : ServiceEntry)
    (name : String) : M Unit :=
  match entry.backendIDs.get? name with
  | none => pure ()
  | some id =>
    if desired.contains name then pure ()
    else do
      releaseBackend name id
      modifyEntry key (ServiceEntry.unlist name)

/-- Release the backends a VIP no longer wants; answers whether there were any. -/
def releaseMissing (key : String) (desired : FMap String Backend) : M Bool := do
  let entry ← getEntry key
  let names ← iterate entry.backendIDs.keys
  Effect.forEach names (releaseUnwanted key desired entry)
  return names.any fun name => !desired.contains name

/-- Acquire one wanted backend, or refresh it if the VIP lists it already. -/
def acquireOrRefresh (key : String) (desired : FMap String Backend) (entry : ServiceEntry)
    (name : String) : M Unit :=
  match desired.get? name with
  | none => pure ()
  | some b =>
    match entry.backendIDs.get? name with
    | some id => writeBackendInfo id b
    | none => do
      let id ← Effect.mapError (GoError.wrap ("vip " ++ key ++ ": ")) (acquireBackend name b)
      modifyEntry key (ServiceEntry.list name id)

/-- Acquire the backends a VIP does not list yet and refresh the others; answers whether any was new. -/
def acquireDesired (key : String) (desired : FMap String Backend) : M Bool := do
  let entry ← getEntry key
  let names ← iterate desired.keys
  Effect.forEach names (acquireOrRefresh key desired entry)
  return names.any fun name => !entry.backendIDs.contains name

/-- Record a probe as that of every backend of a VIP. -/
def Dataplane.applyProbe (p : Dataplane) (key : String) (probe : ProbeSpec) : Dataplane :=
  match p.services.get? key with
  | none => p
  | some entry =>
    entry.backendIDs.values.foldl
      (fun p id => p.modifyBackend id fun st => { st with probe := probe }) p

/-- The normalized weights of a programmed VIP's backends, by name. -/
def programmedWeights (vip : VIP) : FMap String Nat :=
  FMap.ofList (vip.backends.map fun b => (backendName b, Maglev.normalizeWeight b.weight))

/-- Whether some wanted backend's weight differs from the programmed one. -/
def weightsChanged (programmed : VIP) (desired : FMap String Backend) : Bool :=
  desired.entries.any fun (name, b) =>
    ((programmedWeights programmed).get? name).getD 0 ≠ Maglev.normalizeWeight b.weight

/-- The backends of a table, in the order of their names. -/
def tableMembers (backendIDs : FMap String Nat) (desired : FMap String Backend) :
    List Maglev.Member :=
  (backendIDs.keys.insertionSort (· ≤ ·)).map fun name =>
    ⟨name, ((desired.get? name).map Backend.weight).getD 0⟩

/-- Take a range of the table for a VIP. -/
def allocExtent (size : Nat) : M Extent := do
  let p ← getPlane
  match p.maglevAlloc.alloc size with
  | (.error text, _) => Effect.fail (.plain text)
  | (.ok extent, alloc) => do
    modifyPlane fun p => { p with maglevAlloc := alloc }
    return extent

/-- The world with a range of the table given back. -/
def World.freeExtent (s : World) (extent : Extent) : World :=
  s.withPlane { s.plane with maglevAlloc := s.plane.maglevAlloc.freeExtent extent }

/-- Write a table, translated to backend IDs, into a range slot by slot. -/
def writeSlots (target : Extent) (ids : List Nat) : M Unit :=
  Effect.forEach ids.zipIdx fun (id, slot) =>
    Effect.mapError
      (GoError.wrap ("update maglev_table[" ++ toString (target.offset + slot) ++ "]: "))
      (write (.setMaglev (target.offset + slot) id))

/-- A table translated from positions in the list of backends to their IDs. -/
def tableIDs (backendIDs : FMap String Nat) (members : List Maglev.Member) (table : List Nat) :
    List Nat :=
  table.map fun i => ((members[i]?.map Maglev.Member.name).bind backendIDs.get?).getD 0

/-- Build a VIP's table and write it into a range. -/
def fillExtent (target : Extent) (backendIDs : FMap String Nat) (members : List Maglev.Member) :
    M Unit :=
  match Maglev.buildTable target.size members with
  | .error e => Effect.fail (.plain ("build maglev table: " ++ e.text))
  | .ok table => writeSlots target (tableIDs backendIDs members table)

/-- Rebuild a VIP's slice of the table, moving to a larger range when its backends outgrew it. -/
def rebuildMaglev (key : String) (desired : FMap String Backend) : M Unit := do
  let entry ← getEntry key
  let members := tableMembers entry.backendIDs desired
  let size := maglevClassFor members.length
  if entry.extent.size = 0 ∨ size > entry.extent.size then do
    let target ← allocExtent size
    Effect.onError (fillExtent target entry.backendIDs members) fun s => s.freeExtent target
    modifyEntry key fun e => { e with extent := target }
    if entry.extent.size > 0 then Effect.update fun s => s.freeExtent entry.extent else pure ()
  else
    fillExtent entry.extent entry.backendIDs members

/-- The forwarding parameters of a programmed VIP. -/
def serviceConfigOf (entry : ServiceEntry) (vip : VIP) : ServiceConfig where
  backendCount := entry.backendIDs.size
  maglevOffset := entry.extent.offset
  maglevSize := entry.extent.size
  mode := modeByte vip.mode
  affinity := affinityByte vip.sessionAffinity
  range := vip.isRange

/-- Write a VIP's parameters, limit and keys. -/
def programService (key : String) (vip : VIP) : M Unit := do
  let entry ← getEntry key
  Effect.mapError (GoError.wrap "update service_config_map: ")
    (write (.setServiceConfig entry.serviceID (serviceConfigOf entry vip)))
  Effect.mapError (GoError.wrap ("vip " ++ key ++ ": "))
    (applyServiceRateLimit entry.serviceID vip.rateLimit)
  Effect.mapError (GoError.wrap ("vip " ++ key ++ ": ")) (vipMapWrite vip entry.serviceID)

/-- The entry change that forgets the overrides of backends a VIP no longer names. -/
def ServiceEntry.prune (spec : VIP) (e : ServiceEntry) : ServiceEntry :=
  { e with weightOverrides := pruneOverrides spec e.weightOverrides }

/-- Find a VIP's entry, or give a new VIP one; answers what the entry held. -/
def enterService (spec : VIP) : M ServiceEntry := do
  let p ← getPlane
  Effect.mapError (GoError.wrap ("vip " ++ vipKeyString spec ++ ": "))
    (liftExcept (p.checkTunnelReady spec))
  Effect.mapError (GoError.wrap ("vip " ++ vipKeyString spec ++ ": "))
    (if p.services.contains (vipKeyString spec) then pure () else createService (vipKeyString spec))
  let held ← getEntry (vipKeyString spec)
  modifyEntry (vipKeyString spec) (ServiceEntry.prune spec)
  return held

/-- Bring a VIP's backends to the wanted ones; answers whether that changed the set. -/
def settleBackends (key : String) (vip : VIP) : M Bool := do
  let removed ← releaseMissing key (desiredBackends vip)
  let added ← acquireDesired key (desiredBackends vip)
  modifyPlane fun p => p.applyProbe key vip.healthCheck
  return removed || added

/-- Rebuild a VIP's table where its backends or their weights changed, or it has none yet. -/
def rebuildIfNeeded (key : String) (vip programmed : VIP) (setChanged existed : Bool) : M Unit :=
  if setChanged || weightsChanged programmed (desiredBackends vip) || !existed then
    Effect.mapError (GoError.wrap ("vip " ++ key ++ ": ")) (rebuildMaglev key (desiredBackends vip))
  else pure ()

/-- The control state once a VIP recovered at start-up is no longer waiting to be claimed. -/
def Dataplane.claim (p : Dataplane) (key : String) : Dataplane :=
  { p with unclaimed := p.unclaimed.erase key }

/-- The entry change that records a VIP as programmed. -/
def ServiceEntry.record (spec vip : VIP) (e : ServiceEntry) : ServiceEntry :=
  { e with vipSpec := spec, vip := vip }

/-- The control state with a VIP recorded as programmed. -/
def Dataplane.commit (p : Dataplane) (key : String) (spec vip : VIP) : Dataplane :=
  (p.modifyEntry key (ServiceEntry.record spec vip)).claim key

/-- Create or update one VIP. -/
def upsertVIP (spec : VIP) : M Unit := do
  let p ← getPlane
  let held ← enterService spec
  let vip := spec.overrideWeights held.weightOverrides
  let setChanged ← settleBackends (vipKeyString spec) vip
  rebuildIfNeeded (vipKeyString spec) vip held.vip setChanged
    (p.services.contains (vipKeyString spec))
  programService (vipKeyString spec) vip
  modifyPlane fun p => p.commit (vipKeyString spec) spec vip

/-- Release one backend of a VIP that goes; its list is dropped as a whole at the end. -/
def releaseListed (entry : ServiceEntry) (name : String) : M Unit :=
  match entry.backendIDs.get? name with
  | none => pure ()
  | some id => releaseBackend name id

/-- Take a VIP's keys, parameters, limit and counters out of the maps; best-effort. -/
def clearService (entry : ServiceEntry) : M Unit := do
  Effect.ignoring (vipMapDelete entry.vip)
  Effect.ignoring (write (.setServiceConfig entry.serviceID .zero))
  -- A freed ID must not keep the last VIP's limit.
  Effect.ignoring (applyServiceRateLimit entry.serviceID default)
  resetDropStats entry.serviceID

/-- The control state without a VIP, whose range and service ID are free again. -/
def Dataplane.drop (p : Dataplane) (key : String) (entry : ServiceEntry) : Dataplane :=
  { p with
    maglevAlloc := p.maglevAlloc.freeExtent entry.extent
    serviceAlloc := p.serviceAlloc.release key
    services := p.services.erase key }

/-- Tear down one VIP; every write is best-effort, so this never fails. -/
def removeVIP (key : String) : M Unit := do
  let p ← getPlane
  match p.services.get? key with
  | none => pure ()
  | some entry => do
    let names ← iterate entry.backendIDs.keys
    Effect.forEach names (releaseListed entry)
    modifyPlane fun p => p.claim key
    clearService entry
    modifyPlane fun p => p.drop key entry

end Rivora

import Rivora.Dataplane.Ops

/-!
Start-up over maps an earlier run has left: what they hold goes back into the allocators and the entries.

The maps are read as they were before the first write. Adoption writes health entries and deletes keys it
does not trust, and reads neither of them afterwards.
-/

namespace Rivora

namespace IdAllocator

/-- An ID that was never handed out, under a key; those skipped on the way up are free. -/
def reserveAbove (a : IdAllocator) (key : String) (id : Nat) (absent : a.ids.get? key = none)
    (above : a.next ≤ id) (room : id < a.max) : IdAllocator :=
  { a with
    ids := a.ids.insert key id
    free := a.free ++ List.range' a.next (id - a.next)
    next := id + 1
    tracked := by
      -- The numbers below the new mark are the old ones, the skipped ones and the ID itself.
      have mark : List.range (id + 1) = List.range a.next ++ List.range' a.next (id - a.next) ++ [id] := by
        have joined := @List.range'_append_1 0 a.next (id - a.next)
        rw [Nat.zero_add, Nat.add_sub_cancel' above] at joined
        rw [List.range_succ, List.range_eq_range', List.range_eq_range', joined]
      rw [FMap.values_insert_of_absent absent, mark, ← List.append_assoc]
      exact (List.perm_append_singleton id _).symm.trans
        ((a.tracked.append_right _).append_right _)
    bounded := room }

/-- A free ID, under a key. -/
def reserveFree (a : IdAllocator) (key : String) (id : Nat) (absent : a.ids.get? key = none)
    (free : id ∈ a.free) : IdAllocator :=
  { a with
    ids := a.ids.insert key id
    free := a.free.erase id
    tracked := by
      rw [FMap.values_insert_of_absent absent]
      refine List.Perm.trans ?_ a.tracked
      exact (List.perm_middle.symm).trans ((List.perm_cons_erase free).symm.append_left _) }

theorem free_of_unheld (a : IdAllocator) {id : Nat} (below : id < a.next)
    (unheld : a.ids.entries.find? (fun held => held.2 = id) = none) : id ∈ a.free := by
  have listed : id ∈ a.ids.values ++ a.free := a.tracked.mem_iff.mpr (List.mem_range.mpr below)
  rcases List.mem_append.mp listed with held | free
  · obtain ⟨entry, member, same⟩ := List.mem_map.mp held
    have := List.find?_eq_none.mp unheld entry member
    simp [same] at this
  · exact free

/-- Mark an ID as taken by a key, as if it had been allocated; a conflict is refused. -/
def reserve (a : IdAllocator) (key : String) (id : Nat) : Except String Unit × IdAllocator :=
  if room : id < a.max then
    match found : a.ids.get? key with
    | some cur =>
      if cur = id then (.ok (), a)
      else (.error (key.quote ++ " already holds id " ++ toString cur ++ ", not " ++ toString id), a)
    | none =>
      match unheld : a.ids.entries.find? (fun held => held.2 = id) with
      | some held =>
        (.error ("id " ++ toString id ++ " already held by " ++ held.1.quote ++ ", not " ++ key.quote), a)
      | none =>
        if above : a.next ≤ id then (.ok (), a.reserveAbove key id found above room)
        else (.ok (), a.reserveFree key id found (a.free_of_unheld (by omega) unheld))
  else (.error ("id " ++ toString id ++ " out of range (capacity " ++ toString a.max ++ ")"), a)

end IdAllocator

/-- A range of slots as the errors print it. -/
def Extent.text (e : Extent) : String :=
  "extent [" ++ toString e.offset ++ ",+" ++ toString e.size ++ ")"

namespace ExtentAllocator

/-- Cut a range out of the first free range that holds it. -/
def carve (e : Extent) : List Extent → Option (List Extent)
  | [] => none
  | f :: rest =>
    if e.offset < f.offset ∨ e.offset + e.size > f.offset + f.size then (carve e rest).map (f :: ·)
    else
      let front := if e.offset > f.offset then [Extent.mk f.offset (e.offset - f.offset)] else []
      let back := if e.offset + e.size < f.offset + f.size then
          [Extent.mk (e.offset + e.size) (f.offset + f.size - (e.offset + e.size))]
        else []
      some (front ++ back ++ rest)

/-- Take a range out of the free space, as if it had been allocated. -/
def reserve (a : ExtentAllocator) (e : Extent) : Except String Unit × ExtentAllocator :=
  -- The end is computed in 32 bits, so one that wraps lies in front of the start.
  let stop := (e.offset + e.size) % 2 ^ 32
  if e.size = 0 ∨ stop > a.total ∨ stop < e.offset then
    (.error (e.text ++ " outside the " ++ toString a.total ++ "-slot table"), a)
  else
    match carve e a.free with
    | some free => (.ok (), { a with free := free })
    | none => (.error (e.text ++ " overlaps space that is already allocated"), a)

end ExtentAllocator

/-- The protocol of a key's byte; any other byte is not one this program writes. -/
def protoFromByte (b : UInt8) : Option Protocol :=
  if b = 6 then some .tcp else if b = 17 then some .udp else none

/-- The mode of a service's byte. -/
def modeFromByte : ServiceMode → Mode
  | .nat => .nat
  | .tunnelIPIP => .dsrIPIP
  | .tunnelGRE => .dsrGRE
  | .dsr => .dsr

/-- The affinity of a service's byte. -/
def affinityFromByte : ServiceAffinity → SessionAffinity
  | .clientIP => .clientIP
  | .none => .none

/-- An address of a map as the sixteen bytes that are printed. -/
def Addr.ip : Addr → IP
  | .v4 word => #v[0, 0, 0, 0, 0, 0, 0, 0, 0, 0, 0xff, 0xff,
      word.toUInt8, (word >>> 8).toUInt8, (word >>> 16).toUInt8, (word >>> 24).toUInt8]
  | .v6 bytes => bytes

/-- The keys of one VIP in the maps. -/
inductive RawKeys where
  /-- The key of one port. -/
  | exact (key : VipKey)
  /-- The blocks of a range. -/
  | blocks (keys : List VipRangeKey)
  deriving DecidableEq, Repr

/-- One VIP as it stands in the maps, before anything about it is checked. -/
structure RawVIP where
  addr : String
  port : UInt16
  portEnd : UInt16
  proto : Protocol
  sid : Nat
  keys : RawKeys
  /-- The blocks of a range do not tile one; the VIP is deleted, not adopted. -/
  bad : Bool
  deriving DecidableEq, Repr

/-- The order in which the keys of the maps are visited. -/
structure Scan (m : Maps) where
  vips : List (VipKey × Nat)
  vips_perm : vips.Perm m.vip.entries
  ranges : List (VipRangeKey × Nat)
  ranges_perm : ranges.Perm m.vipRange.entries

/-- One exact-port key as a VIP, unless its protocol is not one this program writes. -/
def rawOfKey (entry : VipKey × Nat) : Option RawVIP :=
  (protoFromByte entry.1.proto).map fun proto =>
    ⟨entry.1.addr.ip.text, htons entry.1.port, 0, proto, entry.2, .exact entry.1, false⟩

/-- The first and last port of a set of blocks, if they are exactly the blocks of that range. -/
def blocksSpan (blocks : List PortBlock) : Option (UInt16 × UInt16) :=
  if blocks = [] ∨ blocks.any (fun b => b.bits > 16) then none
  else
    let lo := (blocks.map fun b => b.port.toNat).foldl min (2 ^ 16)
    let hi := (blocks.map fun b => b.port.toNat + b.size - 1).foldl max 0
    if hi > 0xffff ∨ lo = 0 ∨ lo ≥ hi then none
    else
      let want := rangeBlocks (UInt16.ofNat lo) (UInt16.ofNat hi)
      if want.length ≠ blocks.length then none
      else if want.all (fun b => blocks.contains b) then some (UInt16.ofNat lo, UInt16.ofNat hi)
      else none

/-- What the blocks of one range have in common: service, address and protocol. -/
def blockGroup (entry : VipRangeKey × Nat) : Nat × Addr × UInt8 := (entry.2, entry.1.addr, entry.1.proto)

/-- A key's block of ports, if its prefix ends inside the port. -/
def rangeBlock (key : VipRangeKey) : Option PortBlock :=
  if key.prefixLen < rangePrefixBase key.addr ∨ key.prefixLen - rangePrefixBase key.addr > 16 then none
  else some ⟨htons key.port, key.prefixLen - rangePrefixBase key.addr⟩

/-- The blocks of one service, address and protocol as one range VIP. -/
def rawOfGroup (group : Nat × Addr × UInt8) (keys : List VipRangeKey) : RawVIP :=
  let raw (port portEnd : UInt16) (proto : Protocol) (bad : Bool) : RawVIP :=
    ⟨group.2.1.ip.text, port, portEnd, proto, group.1, .blocks keys, bad⟩
  match protoFromByte group.2.2, keys.mapM rangeBlock with
  | some proto, some blocks =>
    match blocksSpan blocks with
    | some (lo, hi) => raw lo hi proto false
    | none => raw 0 1 proto true
  -- A key that is not a well-formed block marks the whole group.
  | proto, _ => raw 0 1 (proto.getD .unset) true

/-- The range VIPs, each at the place of its first block. -/
def scanRanges (ranges : List (VipRangeKey × Nat)) : List RawVIP :=
  let ordered := ranges.filter (fun entry => entry.1.addr.isV4) ++ ranges.filter (fun entry => !entry.1.addr.isV4)
  (ordered.map blockGroup).eraseDups.map fun group =>
    rawOfGroup group ((ordered.filter fun entry => blockGroup entry = group).map Prod.fst)

/-- Every VIP of the maps, in the order of the service IDs. -/
def Scan.raws {m : Maps} (scan : Scan m) : List RawVIP :=
  let exacts := scan.vips.filter (fun entry => entry.1.addr.isV4) ++
    scan.vips.filter (fun entry => !entry.1.addr.isV4)
  (exacts.filterMap rawOfKey ++ scanRanges scan.ranges).insertionSort fun a b => a.sid ≤ b.sid

/-- A backend read back from the maps. -/
structure AdoptedBackend where
  id : Nat
  address : String
  port : UInt16
  isV4 : Bool
  deriving DecidableEq, Repr

/-- The name of a backend read back. -/
def AdoptedBackend.name (b : AdoptedBackend) : String := b.address ++ ":" ++ toString b.port.toNat

/-- Read one backend, from the IPv4 half of the map if it is there. -/
def readBackend (m : Maps) (id : Nat) : Except GoError AdoptedBackend :=
  match m.backend.get? ⟨true, id⟩, m.backend.get? ⟨false, id⟩ with
  | some info, _ => .ok ⟨id, info.addr.ip.text, htons info.port, true⟩
  | none, some info => .ok ⟨id, info.addr.ip.text, htons info.port, false⟩
  | none, none => .error (.plain
      ("maglev slot names backend " ++ toString id ++ " but no backend_map entry exists"))

/-- The slots of a range, numbered in 32 bits; reading outside the table fails. -/
def readSlots (m : Maps) (e : Extent) : Except GoError (List Nat) :=
  let slots := (List.range e.size).map fun i => (e.offset + i) % 2 ^ 32
  match slots.find? (fun slot => slot ≥ maglevM) with
  | some slot => .error (.plain ("maglev_table[" ++ toString slot ++ "]: lookup: key does not exist"))
  | none => .ok (slots.map m.maglevTable)

/-- The distinct backend IDs of a range, in order. -/
def distinctIDs (slots : List Nat) : List Nat := slots.eraseDups.insertionSort (· ≤ ·)

/-- What the maps say about one VIP, if they are consistent about it. -/
structure RawService where
  config : ServiceConfig
  extent : Extent
  /-- Its backends by name; of two IDs under one name the larger wins. -/
  backends : FMap String AdoptedBackend

/-- Read what the maps say about a VIP. -/
def readService (m : Maps) (r : RawVIP) : Except GoError RawService := do
  if r.sid ≥ maxVIPs then
    .error (.plain ("service_config[" ++ toString r.sid ++ "]: lookup: key does not exist"))
  else
    let sc := m.serviceConfig r.sid
    if sc.range ≠ (r.portEnd ≠ 0 : Bool) then
      .error (.plain "service_config's range flag disagrees with the VIP's map entry")
    else if sc.maglevSize = 0 then .error (.plain "empty maglev extent")
    else do
      let slots ← readSlots m ⟨sc.maglevOffset, sc.maglevSize⟩
      let backends ← (distinctIDs slots).mapM (readBackend m)
      return ⟨sc, ⟨sc.maglevOffset, sc.maglevSize⟩, FMap.ofList (backends.map fun b => (b.name, b))⟩

/-- The control state once the reservations of a refused VIP are given back. -/
def Dataplane.unreserve (p : Dataplane) (key : String) (extent : Extent) (claimed : List String) :
    Dataplane :=
  { p with
    backendAlloc := claimed.foldl IdAllocator.release p.backendAlloc
    serviceAlloc := p.serviceAlloc.release key
    maglevAlloc := p.maglevAlloc.freeExtent extent }

/-- Reserve the IDs of a VIP's backends one by one, giving everything back if one is refused. -/
def claimBackends (key : String) (service : RawService) : (claimed : List String) → List String → M Unit
  | _, [] => pure ()
  | claimed, name :: rest => do
    let p ← getPlane
    match service.backends.get? name with
    | none => claimBackends key service claimed rest
    | some b =>
      match p.backendAlloc.reserve name b.id with
      | (.error text, _) => do
        modifyPlane fun p => p.unreserve key service.extent claimed
        Effect.fail (.plain text)
      | (.ok _, alloc) => do
        modifyPlane fun p => { p with backendAlloc := alloc }
        -- One that an earlier VIP claimed is not this one's to give back.
        claimBackends key service (if p.backendAlloc.ids.contains name then claimed else claimed ++ [name])
          rest

/-- The VIP an adopted entry is recorded with. -/
def RawVIP.adopted (r : RawVIP) (config : ServiceConfig) : VIP :=
  { (default : VIP) with
    address := r.addr
    port := r.port
    portEnd := r.portEnd
    protocol := r.proto
    mode := modeFromByte config.mode
    sessionAffinity := affinityFromByte config.affinity }

/-- The key of a VIP read from the maps. -/
def RawVIP.key (r : RawVIP) : String :=
  vipKeyString { (default : VIP) with address := r.addr, port := r.port, portEnd := r.portEnd, protocol := r.proto }

/-- The entry of an adopted VIP. -/
def RawService.entry (service : RawService) (r : RawVIP) : ServiceEntry where
  serviceID := r.sid
  vipSpec := default
  vip := r.adopted service.config
  weightOverrides := FMap.empty
  backendIDs := FMap.ofList (service.backends.values.map fun b => (b.name, b.id))
  extent := service.extent

/-- The state of a backend read back; it counts as healthy until a probe says otherwise. -/
def AdoptedBackend.fresh (b : AdoptedBackend) : BackendState :=
  { BackendState.fresh ⟨b.address, b.port, "", 0⟩ with isV4 := b.isV4 }

/-- The control state with one more reference to a backend read back. -/
def Dataplane.adoptBackend (p : Dataplane) (b : AdoptedBackend) : Dataplane :=
  let st := (p.backendStates.get? b.id).getD b.fresh
  { p with backendStates := p.backendStates.insert b.id { st with refCount := st.refCount + 1 } }

/-- Reserve a VIP's range of the table and its service ID. -/
def reserveService (key : String) (sid : Nat) (extent : Extent) : M Unit := do
  let p ← getPlane
  match p.maglevAlloc.reserve extent with
  | (.error text, _) => Effect.fail (.plain text)
  | (.ok _, maglev) =>
    match p.serviceAlloc.reserve key sid with
    | (.error text, _) => do
      -- The range that was just taken is given back.
      modifyPlane fun p => { p with maglevAlloc := maglev.freeExtent extent }
      Effect.fail (.plain text)
    | (.ok _, services) => modifyPlane fun p => { p with maglevAlloc := maglev, serviceAlloc := services }

/-- The control state with a VIP's backends referenced and its entry recorded. -/
def Dataplane.recover (p : Dataplane) (r : RawVIP) (service : RawService) : Dataplane :=
  let p := service.backends.values.foldl Dataplane.adoptBackend p
  { p with services := p.services.insert r.key (service.entry r) }

/-- Reserve what a VIP holds and record it, or fail and leave nothing reserved for it. -/
def recoverService (r : RawVIP) (service : RawService) : M Unit := do
  reserveService r.key r.sid service.extent
  let order ← iterate service.backends.keys
  claimBackends r.key service [] order
  modifyPlane fun p => p.recover r service
  let order ← iterate service.backends.keys
  Effect.forEach order fun name =>
    match service.backends.get? name with
    | none => pure ()
    | some b => Effect.ignoring (writeHealth b.id)

/-- Recover one VIP if the maps are consistent about it and nothing it holds is taken. -/
def adoptOne (m : Maps) (r : RawVIP) : M Unit := do
  let service ← liftExcept (readService m r)
  recoverService r service

/-- Delete the keys of a VIP that cannot be trusted; best-effort. -/
def dropRawVIP (r : RawVIP) : M Unit :=
  match r.keys with
  | .exact key => Effect.ignoring (write (.deleteVip key))
  | .blocks keys => Effect.forEach keys fun key => Effect.ignoring (write (.deleteVipRange key))

/-- Recover one VIP, or delete its keys; answers whether it was recovered. -/
def adoptOrDrop (m : Maps) (r : RawVIP) : M Bool :=
  if r.bad then do dropRawVIP r; return false
  else do
    match ← Effect.outcome (adoptOne m r) with
    | .ok _ => return true
    | .error _ => do dropRawVIP r; return false

/-- What start-up found in the maps. -/
structure AdoptSummary where
  adopted : Nat
  dropped : Nat
  deriving DecidableEq, Repr

/-- Recover the VIPs of a list one after another. -/
def adoptEach (m : Maps) : List RawVIP → M AdoptSummary
  | [] => return ⟨0, 0⟩
  | r :: rest => do
    let recovered ← adoptOrDrop m r
    let sum ← adoptEach m rest
    return if recovered then ⟨sum.adopted + 1, sum.dropped⟩ else ⟨sum.adopted, sum.dropped + 1⟩

/-- Rebuild the control state from the maps. -/
def adopt (m : Maps) (scan : Scan m) : M AdoptSummary := adoptEach m scan.raws

/-- The control state with every VIP waiting to be claimed. -/
def Dataplane.unclaim (p : Dataplane) : Dataplane :=
  { p with unclaimed := FMap.ofList (p.services.keys.map fun key => (key, true)) }

/-- The control plane after adoption, with what it recovered waiting to be claimed or not. -/
def Dataplane.recovered (config : NodeConfig) {m : Maps} (scan : Scan m) (env : Env) (waiting : Bool) :
    Dataplane :=
  let p := (adopt m scan env ⟨.new config, [], 0⟩).2.plane
  if waiting then p.unclaim else p

end Rivora

import Rivora.Bpf.IngressLaws
import Rivora.Properties.MapImage

/-! What the ingress program reads, where the maps are the image of the control state. -/

namespace Rivora

variable {l4 : L4} {id : Nat} {st : BackendState}

section

variable {p : Dataplane} {m : Maps} {k : String} {e : ServiceEntry}

/-- A packet to a VIP's own port is for the VIP. -/
theorem Imaged.service_exact (imaged : Imaged p m) (found : p.services.get? k = some e)
    (single : e.vip.isRange = false) {ip : IP} (parsed : parseIP e.vip.address = some ip) :
    m.service ip.toAddr (htons e.vip.port) (protoByte e.vip.protocol) = some e.serviceID := by
  obtain ⟨ip', able, hold⟩ := (imaged.programmed found).keys
  cases able.address.symm.trans parsed
  have stored : m.vip.get? (vipKey ip e.vip) = some e.serviceID := by
    refine hold (.setVip (vipKey ip e.vip) e.serviceID) ?_
    rw [vipWrites, if_neg (by rw [single]; exact Bool.false_ne_true)]
    exact List.mem_singleton_self _
  unfold Maps.service
  rw [show m.vip.get? ⟨ip.toAddr, htons e.vip.port, protoByte e.vip.protocol⟩ = _ from stored]
  rfl

/-- A packet for a service is for a programmed VIP. -/
theorem Imaged.service_inv (imaged : Imaged p m) {addr : Addr} {port : UInt16} {proto : UInt8}
    {sid : Nat} (matched : m.service addr port proto = some sid) :
    ∃ k e ip, p.services.get? k = some e ∧ e.serviceID = sid ∧ parseIP e.vip.address = some ip ∧
      (.vip ⟨addr, port, proto⟩ ∈ vipCells e.vip ip ∨
        m.vip.get? ⟨addr, port, proto⟩ = none ∧ ∃ bits ≤ 16, Cell.vipRange
          ⟨rangePrefixBase addr + bits, addr, proto, Maps.maskPort port bits⟩ ∈ vipCells e.vip ip) := by
  -- Whatever is stored was written for one VIP, under one of the keys of its endpoint.
  have owner : ∀ {w : MapWrite}, w.IsKey → w.Holds m → ∃ k e ip, p.services.get? k = some e ∧
      parseIP e.vip.address = some ip ∧ w.cell ∈ vipCells e.vip ip ∧
      w ∈ vipWrites e.vip ip e.serviceID := by
    intro w isKey holds
    obtain ⟨k, e, ip, found, parsed, member⟩ := imaged.keys isKey holds
    exact ⟨k, e, ip, found, parsed, vipWrites_cells e.vip ip e.serviceID ▸ List.mem_map_of_mem member,
      member⟩
  unfold Maps.service at matched
  cases exact : m.vip.get? ⟨addr, port, proto⟩ with
  | some sid' =>
    rw [exact] at matched
    cases matched
    obtain ⟨k, e, ip, found, parsed, cell, member⟩ := owner (.vip ⟨addr, port, proto⟩ sid) exact
    refine ⟨k, e, ip, found, ?_, parsed, Or.inl cell⟩
    unfold vipWrites at member
    split at member
    · obtain ⟨_, _, same⟩ := List.mem_map.mp member
      cases same
    · cases List.mem_singleton.mp member
      rfl
  | none =>
    rw [exact] at matched
    obtain ⟨bits, listed, stored⟩ := List.exists_of_findSome?_eq_some matched
    obtain ⟨k, e, ip, found, parsed, cell, member⟩ := owner (.range _ sid) stored
    have small : bits ≤ 16 := by
      simp only [List.mem_reverse, List.mem_range] at listed
      omega
    refine ⟨k, e, ip, found, ?_, parsed, Or.inr ⟨rfl, bits, small, cell⟩⟩
    unfold vipWrites at member
    split at member
    · obtain ⟨_, _, same⟩ := List.mem_map.mp member
      exact (MapWrite.setVipRange.inj same).2
    · cases List.mem_singleton.mp member

theorem Imaged.config (imaged : Imaged p m) (found : p.services.get? k = some e) :
    m.serviceConfig? e.serviceID = some (programmedConfig e.vip e.extent) := by
  rw [Maps.serviceConfig?, if_pos (imaged.owned.services.id_lt found), (imaged.programmed found).config]

/-- Every slot of a VIP holds one of its backends. -/
theorem Imaged.slot_listed (imaged : Imaged p m) (found : p.services.get? k = some e) {i : Nat}
    (below : i < e.extent.size) : ∃ name, Lists p k name (m.maglevTable (e.extent.offset + i)) := by
  obtain ⟨_, _, slots⟩ := (imaged.programmed found).slot
  obtain ⟨_, member, _, _, named⟩ := slots i below
  exact ⟨member.name, e, found, named⟩

theorem Imaged.serves (imaged : Imaged p m) (found : p.services.get? k = some e) :
    Serves m e.serviceID (programmedConfig e.vip e.extent) := by
  have sized : 0 < e.extent.size := (prime_of_class (imaged.programmed found).sized).pos
  refine ⟨imaged.config found, ?_, Nat.ne_of_gt sized⟩
  -- Its first slot names a backend it lists, and it lists those it names alone.
  obtain ⟨name, e', found', named⟩ := imaged.slot_listed found sized
  cases found.symm.trans found'
  have wanted := FMap.contains_iff.mp (imaged.exact found named)
  change (desiredBackends e.vip).size ≠ 0
  rw [← FMap.length_keys]
  exact fun zero => List.ne_nil_of_mem wanted (List.length_eq_zero_iff.mp zero)

theorem Imaged.handles (imaged : Imaged p m) (found : p.services.get? k = some e) {pkt : Packet}
    (matched : m.service pkt.ends.daddr l4.dport l4.transport.proto = some e.serviceID)
    (plain : l4.transport.isSyn = false) {f : Flow} {be : BackendInfo}
    (choice : chooseBackend m (programmedConfig e.vip e.extent) pkt.ends l4 m.flow = some (id, f))
    (entry : m.backend.get? ⟨pkt.ends.isV4, id⟩ = some be) (ctx : Context) (firstOf : Option UInt32) :
    handleSegment m ctx pkt l4 firstOf =
      deliver m ctx pkt l4 (programmedConfig e.vip e.extent) e.serviceID id be
        (rememberFragment pkt.ends l4 firstOf ⟨id, e.serviceID⟩ (countDelivered pkt id f)) := by
  have serves := imaged.serves found
  unfold handleSegment
  rw [matched]
  simp only [plain, Bool.false_eq_true, if_false, serve, serves.config,
    if_neg (not_or.mpr ⟨serves.backends, serves.slots⟩), choice, entry]

/-- The entry, the ID and the state of the only backend of a VIP. -/
def Dataplane.sole (p : Dataplane) (key : String) : Option (ServiceEntry × Nat × BackendState) :=
  (p.services.get? key).bind fun e =>
    match e.backendIDs.entries with
    | [(_, id)] => (p.backendStates.get? id).map fun st => (e, id, st)
    | _ => none

theorem sole_inv (sole : p.sole k = some (e, id, st)) :
    p.services.get? k = some e ∧ p.backendStates.get? id = some st ∧
      ∃ name, e.backendIDs.get? name = some id ∧
        ∀ other j, e.backendIDs.get? other = some j → j = id := by
  obtain ⟨e', found, rest⟩ := Option.bind_eq_some_iff.mp sole
  split at rest
  · rename_i name id' entries
    obtain ⟨st', known, same⟩ := Option.map_eq_some_iff.mp rest
    cases same
    refine ⟨found, known, name, FMap.get?_eq_some.mpr (by rw [entries]; exact List.mem_singleton_self _), ?_⟩
    intro other j listed
    have member := FMap.get?_eq_some.mp listed
    rw [entries] at member
    cases List.mem_singleton.mp member
    rfl
  · cases rest

theorem Imaged.picks_sole (imaged : Imaged p m)
    (sole : p.sole k = some (e, id, st)) (healthy : st.health = .healthy) (start : Nat) :
    pickBackend m e.extent.offset e.extent.size start = some id := by
  obtain ⟨found, known, _, _, only⟩ := sole_inv sole
  have sized : 0 < e.extent.size := (prime_of_class (imaged.programmed found).sized).pos
  have inside : id < maxBackends := imaged.owned.backends.capacity ▸
    p.backendAlloc.id_lt_max (imaged.owned.backends.held known).1
  -- The very first slot read already holds the backend.
  have below : start % e.extent.size < e.extent.size := Nat.mod_lt _ sized
  obtain ⟨name, e', found', named⟩ := imaged.slot_listed found below
  cases found.symm.trans found'
  have slot : m.maglevTable (e.extent.offset + start % e.extent.size) = id := only _ _ named
  have bounded : e.extent.offset + start % e.extent.size < maglevM :=
    imaged.owned.tiled.slot_lt found (List.mem_range'_1.mpr ⟨Nat.le_add_right _ _, by omega⟩)
  have health : m.backendHealth? id = some .healthy := by
    rw [Maps.backendHealth?, if_pos inside, imaged.backends.health id, known]
    exact congrArg some healthy
  unfold pickBackend probedSlots maglevProbes
  rw [List.range_succ_eq_map, List.map_cons, List.findSome?_cons]
  simp only [Nat.add_zero, Maps.maglevTable?, if_pos bounded, slot, Option.filter_some, health,
    decide_true, if_true]

theorem Imaged.entry (imaged : Imaged p m)
    (known : p.backendStates.get? id = some st) {ip : IP} (parsed : parseIP st.address = some ip) :
    m.backend.get? ⟨st.isV4, id⟩ = some ⟨ip.toAddr, htons st.port, st.storedMAC⟩ := by
  obtain ⟨ip', parsed', stored⟩ := imaged.backends.described known
  cases parsed.symm.trans parsed'
  exact stored

end

/-- Where a single-port VIP with one backend sends its packets. -/
structure SoleTarget where
  serviceID : Nat
  backendID : Nat
  mode : ServiceMode
  endpoint : VipKey
  info : BackendInfo
  health : Health
  deriving DecidableEq

/-- The target of a single-port VIP with one backend, read off the control state. -/
def Dataplane.soleTarget (p : Dataplane) (key : String) : Option SoleTarget :=
  (p.sole key).bind fun (e, id, st) =>
    (parseIP e.vip.address).bind fun ip =>
      (parseIP st.address).bind fun ip' =>
        if e.vip.isRange then none
        else some ⟨e.serviceID, id, modeByte e.vip.mode, vipKey ip e.vip,
          ⟨ip'.toAddr, htons st.port, st.storedMAC⟩, st.health⟩

/-- A VIP with one healthy backend sends its packets there. -/
theorem Imaged.sends_sole {p : Dataplane} {m : Maps} (imaged : Imaged p m) {key : String}
    {t : SoleTarget} (target : p.soleTarget key = some t) (healthy : t.health = .healthy)
    {pkt : Packet}
    (addressed : (⟨pkt.ends.daddr, l4.dport, l4.transport.proto⟩ : VipKey) = t.endpoint)
    (family : t.info.addr.isV4 = pkt.ends.isV4) (plain : l4.transport.isSyn = false)
    (fresh : affineBackend m (connKey pkt.ends l4) = none) (ctx : Context) (firstOf : Option UInt32) :
    ∃ cfg, cfg.mode = t.mode ∧ cfg.range = false ∧
      handleSegment m ctx pkt l4 firstOf = deliver m ctx pkt l4 cfg t.serviceID t.backendID t.info
        (rememberFragment pkt.ends l4 firstOf ⟨t.backendID, t.serviceID⟩
          (countDelivered pkt t.backendID
            { m.flow with
              affinity := m.flow.affinity.insert (connKey pkt.ends l4) t.backendID })) := by
  obtain ⟨⟨e, id, st⟩, sole, rest⟩ := Option.bind_eq_some_iff.mp target
  obtain ⟨ip, parsed, rest⟩ := Option.bind_eq_some_iff.mp rest
  obtain ⟨ip', parsed', rest⟩ := Option.bind_eq_some_iff.mp rest
  split at rest
  · cases rest
  rename_i range
  have single : e.vip.isRange = false := by simpa using range
  cases rest
  obtain ⟨found, known, _⟩ := sole_inv sole
  refine ⟨programmedConfig e.vip e.extent, rfl, single, ?_⟩
  obtain ⟨daddr, dport, proto⟩ := VipKey.mk.inj addressed
  have matched := imaged.service_exact found single parsed
  rw [← daddr, ← dport, ← proto] at matched
  have entry := imaged.entry known parsed'
  rw [imaged.owned.backends.family known parsed', family] at entry
  refine imaged.handles found matched plain ?_ entry ctx firstOf
  -- No entry of the flow is alive, so the table decides, and it holds one backend only.
  unfold chooseBackend
  rw [fresh]
  dsimp only
  rw [show pickBackend m (programmedConfig e.vip e.extent).maglevOffset
    (programmedConfig e.vip e.extent).maglevSize _ = some id from imaged.picks_sole sole healthy _]
  rfl

theorem Imaged.translates_sole {p : Dataplane} {m : Maps} (imaged : Imaged p m) (pkt : Packet)
    {key : String} {t : SoleTarget} (target : p.soleTarget key = some t)
    (healthy : t.health = .healthy) (nat : t.mode = .nat) {firstOf : Option UInt32}
    (body : pkt.body = .segment l4 firstOf)
    (addressed : (⟨pkt.ends.daddr, l4.dport, l4.transport.proto⟩ : VipKey) = t.endpoint)
    (family : t.info.addr.isV4 = pkt.ends.isV4) (plain : l4.transport.isSyn = false)
    (fresh : affineBackend m (connKey pkt.ends l4) = none) (ctx : Context) :
    (ingress m ctx pkt).1 =
        .forward ⟨t.backendID, t.serviceID, t.info, .nat, t.info.addr, some t.info.port, none⟩ ∧
      (m.receive ctx pkt).flow.affinity = m.flow.affinity.insert (connKey pkt.ends l4) t.backendID ∧
      (m.receive ctx pkt).flow.frag =
        (rememberFragment pkt.ends l4 firstOf ⟨t.backendID, t.serviceID⟩ m.flow).frag ∧
      (m.receive ctx pkt).flow.natReverse = m.flow.natReverse.insert
        ⟨t.info.addr, pkt.ends.saddr, t.info.port, l4.sport, l4.transport.proto⟩
        ⟨pkt.ends.daddr, l4.dport⟩ := by
  obtain ⟨cfg, mode, range, handled⟩ :=
    imaged.sends_sole target healthy addressed family plain fresh ctx firstOf
  have whole : ingress m ctx pkt = handleSegment m ctx pkt l4 firstOf := by
    unfold ingress
    rw [body]
  unfold Maps.receive
  rw [whole, handled]
  simp only [deliver, mode, nat, range, Bool.false_eq_true, if_false]
  -- Counting the packet and noting a first fragment leave the two directions alone.
  rw [rememberFragment_eq, countDelivered_eq]
  refine ⟨trivial, rfl, ?_, rfl⟩
  cases firstOf <;> rfl

theorem run_calmly_flow (n : Node) (ops : List Op) :
    ∃ drops, (n.run (calmly ops)).maps.flow = { n.maps.flow with dropStats := drops } := by
  induction ops generalizing n with
  | nil => exact ⟨n.maps.flow.dropStats, rfl⟩
  | cons op rest ih =>
    obtain ⟨drops, later⟩ := ih (n.step (.op op calm))
    obtain ⟨drops', first⟩ := replay_flow (op.outcome calm n.plane).2.writes n.maps
    refine ⟨drops, later.trans ?_⟩
    rw [show (n.step (.op op calm)).maps.flow = _ from first]

end Rivora

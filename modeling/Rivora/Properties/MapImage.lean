import Rivora.Proofs.Rehearsal

/-! In runs where nothing fails the maps are exactly the image of the control state. -/

namespace Rivora

/-- The maps say what the control state says, and nothing else. -/
structure Image (p : Dataplane) (m : Maps) : Prop where
  /-- One key for each single-port VIP, mapped to its service. -/
  vips : ∀ key sid, m.vip.get? key = some sid ↔ ∃ k e ip, p.services.get? k = some e ∧
    e.vip.isRange = false ∧ parseIP e.vip.address = some ip ∧ key = vipKey ip e.vip ∧
    sid = e.serviceID
  /-- The blocks of each port range, mapped to its service. -/
  ranges : ∀ key sid, m.vipRange.get? key = some sid ↔ ∃ k e ip b, p.services.get? k = some e ∧
    e.vip.isRange = true ∧ parseIP e.vip.address = some ip ∧
    b ∈ rangeBlocks e.vip.port e.vip.portEnd ∧ key = rangeKey ip (protoByte e.vip.protocol) b ∧
    sid = e.serviceID
  /-- A VIP is programmed with its overrides applied. -/
  effective : ∀ {k e}, p.services.get? k = some e →
    e.vip = e.vipSpec.overrideWeights e.weightOverrides
  /-- Mode, affinity, range flag, number of distinct backends and range of the table. -/
  config : ∀ {k e}, p.services.get? k = some e →
    m.serviceConfig e.serviceID = programmedConfig e.vip e.extent
  /-- The parameters of a service nobody has are cleared. -/
  idle : ∀ sid, (∀ k e, p.services.get? k = some e → e.serviceID ≠ sid) →
    m.serviceConfig sid = .zero
  /-- The own limit of a VIP, where the datapath object has such limits. -/
  limit : ∀ {k e}, p.services.get? k = some e → p.dp.svcRlConfig = true →
    m.svcRlConfig e.serviceID = rateLimitEntry p.numCPU e.vip.rateLimit
  /-- A VIP lists exactly the backends it names. -/
  names : ∀ {k e}, p.services.get? k = some e → ∀ name,
    (∃ id, e.backendIDs.get? name = some id) ↔ ∃ b ∈ e.vip.backends, backendName b = name
  /-- The slots of a VIP are its table, translated to the IDs of its backends. -/
  table : ∀ {k e}, p.services.get? k = some e →
    ∃ table, Maglev.buildTable e.extent.size (vipMembers e.vip) = .ok table ∧
      ∀ i < e.extent.size, ∃ position member, table[i]? = some position ∧
        (vipMembers e.vip)[position]? = some member ∧
        e.backendIDs.get? member.name = some (m.maglevTable (e.extent.offset + i))
  /-- Every listed backend has its entry, with its address and port. -/
  listed : ∀ {k name id}, Lists p k name id →
    ∃ info, m.backend.get? ⟨info.addr.isV4, id⟩ = some info ∧ Denotes info name
  /-- Every entry is that of a listed backend. -/
  only : ∀ {key info}, m.backend.get? key = some info →
    key.isV4 = info.addr.isV4 ∧ ∃ k name, Lists p k name key.id ∧ Denotes info name
  /-- A failed probe wins over a drain, and a drain over healthy. -/
  health : ∀ {k name id}, Lists p k name id → ∃ st, p.backendStates.get? id = some st ∧
    st.name = name ∧ m.backendHealth id =
      if st.probeHealthy = false then .down
      else if st.draining = true ∨ st.adminDraining = true then .draining
      else .healthy

theorem BackendsOwned.listed_of_state {p : Dataplane} (owned : BackendsOwned (fun _ => 0) p) {id : Nat}
    {st : BackendState} (found : p.backendStates.get? id = some st) :
    ∃ k, Lists p k st.name id := by
  have referenced : 0 < p.refs st.name := by
    have := (owned.counted found).2
    omega
  obtain ⟨k, e, id', stored, named⟩ := listed_of_refs_pos referenced
  -- A name has one ID, whoever lists it.
  have same : id' = id := by
    have listed := owned.listed stored named
    rw [(owned.held found).1] at listed
    exact (Option.some.inj listed).symm
  exact ⟨k, e, stored, same ▸ named⟩

theorem contains_desiredBackends {vip : VIP} {name : String} :
    (desiredBackends vip).contains name = true ↔ ∃ b ∈ vip.backends, backendName b = name := by
  rw [FMap.contains_iff, desiredBackends, FMap.mem_keys_ofList, List.map_map]
  exact List.mem_map

section

variable {p : Dataplane} {m : Maps}

theorem Programmed.slot {e : ServiceEntry} (programmed : Programmed p e m) :
    ∃ table, Maglev.buildTable e.extent.size (vipMembers e.vip) = .ok table ∧
      ∀ i < e.extent.size, ∃ position member, table[i]? = some position ∧
        (vipMembers e.vip)[position]? = some member ∧
        e.backendIDs.get? member.name = some (m.maglevTable (e.extent.offset + i)) := by
  obtain ⟨table, built, hold⟩ := programmed.table
  obtain ⟨_, _, length, bounded⟩ := Maglev.buildTableWith_ok (prime_of_class programmed.sized) built
  refine ⟨table, built, fun i below => ?_⟩
  have below' : i < table.length := by omega
  have position := bounded table[i] (List.getElem_mem below')
  refine ⟨table[i], (vipMembers e.vip)[table[i]], List.getElem?_eq_getElem below',
    List.getElem?_eq_getElem position, ?_⟩
  -- The member is wanted, so the VIP lists it, and the slot holds the ID it is listed under.
  obtain ⟨name, sorted, named⟩ := List.mem_map.mp (List.getElem_mem position)
  have wanted : (desiredBackends e.vip).contains name = true :=
    FMap.contains_iff.mpr ((List.mem_insertionSort _).mp sorted)
  obtain ⟨id, listed⟩ := programmed.listed name wanted
  rw [← named]
  have slots := slotWrites_hold.mp hold i (by rw [length_slotIDs programmed.sized built]; exact below)
  rw [slots, listed]
  simp only [ServiceEntry.slotIDs, tableIDs, List.getElem_map, List.getElem?_eq_getElem position,
    Option.map_some, Option.bind_some, ← named, listed, Option.getD_some]

theorem BackendImage.denotes (image : BackendImage p m) {leak : String → Nat}
    (owned : BackendsOwned leak p) {id : Nat} {st : BackendState}
    (found : p.backendStates.get? id = some st) :
    ∃ info, m.backend.get? ⟨st.isV4, id⟩ = some info ∧ info.addr.isV4 = st.isV4 ∧
      Denotes info st.name := by
  obtain ⟨ip, parsed, entry⟩ := image.described found
  exact ⟨_, entry, (owned.family found parsed).symm, ⟨st.address, st.port, "", 0⟩, ip, rfl, parsed,
    rfl, rfl⟩

theorem Imaged.image (imaged : Imaged p m) (recorded : Recorded p) : Image p m := by
  have backends := imaged.owned.backends
  refine { vips := ?_, ranges := ?_, effective := fun found => recorded found,
           config := fun found => (imaged.programmed found).config, idle := imaged.idle,
           limit := ?_, names := ?_, table := fun found => (imaged.programmed found).slot,
           listed := ?_, only := ?_, health := ?_ }
  · intro key sid
    constructor
    · intro stored
      obtain ⟨k, e, ip, found, parsed, member⟩ := imaged.keys (.vip key sid) stored
      unfold vipWrites at member
      split at member
      · obtain ⟨b, _, same⟩ := List.mem_map.mp member
        cases same
      · rename_i exact
        cases List.mem_singleton.mp member
        exact ⟨k, e, ip, found, by simpa using exact, parsed, rfl, rfl⟩
    · rintro ⟨k, e, ip, found, single, parsed, rfl, rfl⟩
      obtain ⟨ip', able, hold⟩ := (imaged.programmed found).keys
      rw [able.address] at parsed
      cases parsed
      refine hold (.setVip (vipKey ip e.vip) e.serviceID) ?_
      rw [vipWrites, if_neg (by rw [single]; exact Bool.false_ne_true)]
      exact List.mem_singleton_self _
  · intro key sid
    constructor
    · intro stored
      obtain ⟨k, e, ip, found, parsed, member⟩ := imaged.keys (.range key sid) stored
      unfold vipWrites at member
      split at member
      · rename_i range
        obtain ⟨b, listed, same⟩ := List.mem_map.mp member
        cases same
        exact ⟨k, e, ip, b, found, range, parsed, listed, rfl, rfl⟩
      · cases List.mem_singleton.mp member
    · rintro ⟨k, e, ip, b, found, range, parsed, listed, rfl, rfl⟩
      obtain ⟨ip', able, hold⟩ := (imaged.programmed found).keys
      rw [able.address] at parsed
      cases parsed
      refine hold (.setVipRange (rangeKey ip (protoByte e.vip.protocol) b) e.serviceID) ?_
      rw [vipWrites, if_pos range]
      exact List.mem_map.mpr ⟨b, listed, rfl⟩
  · intro k e found supported
    refine (imaged.programmed found).limit
      (.setSvcRl e.serviceID (rateLimitEntry p.numCPU e.vip.rateLimit)) ?_
    rw [limitWrites, if_pos supported]
    exact List.mem_singleton_self _
  · intro k e found name
    rw [← contains_desiredBackends]
    refine ⟨?_, (imaged.programmed found).listed name⟩
    rintro ⟨id, named⟩
    exact imaged.exact found named
  · intro k name id lists
    obtain ⟨e, stored, named⟩ := lists
    obtain ⟨st, found, rfl⟩ := backends.state_of_listed stored named
    obtain ⟨info, entry, family, denotes⟩ := imaged.backends.denotes backends found
    exact ⟨info, family ▸ entry, denotes⟩
  · intro key info stored
    obtain ⟨st, found, family⟩ := imaged.backends.only stored
    obtain ⟨info', entry, family', denotes⟩ := imaged.backends.denotes backends found
    obtain ⟨k, lists⟩ := backends.listed_of_state found
    rw [family] at entry family'
    cases stored.symm.trans entry
    exact ⟨family'.symm, k, st.name, lists, denotes⟩
  · rintro k name id ⟨e, stored, named⟩
    obtain ⟨st, found, rfl⟩ := backends.state_of_listed stored named
    refine ⟨st, found, rfl, ?_⟩
    rw [imaged.backends.health id, found]
    simp [BackendState.health]

end

/--
After every event of a run in which nothing fails, the maps are exactly the image of the control state.

A run is any sequence of operations and packets from an empty node. Nothing fails: no map write does,
no operation returns an error, and a VIP is only added beside VIPs it can be told apart from.
-/
theorem maps_are_image {config : NodeConfig} {maps : StartMaps} {events : List Event}
    (clean : Run.Along Node.step Clean (Node.start config maps) events) :
    Image ((Node.start config maps).run events).plane ((Node.start config maps).run events).maps :=
  let sound := Node.sound_run clean
  sound.imaged.image sound.recorded

/-- Two VIPs that share a backend and a port range: one backend fails a probe, one VIP goes. -/
def sharedBackendRun : List Op :=
  [.upsertVIP (plainVIP "10.0.0.1" ["10.0.1.1", "10.0.1.2"]),
    .upsertVIP (plainVIP "10.0.0.2" ["10.0.1.1"]),
    .upsertVIP { plainVIP "fd00::1" ["fd00::a"] with port := 1000, portEnd := 1999 },
    .setBackendHealth 0 false, .removeVIP "10.0.0.1:80:tcp",
    .upsertVIP (plainVIP "10.0.0.2" ["10.0.1.3"])]

theorem maps_are_image_of_shared_backend :
    (rehearse (.new plainNode) sharedBackendRun).isSome = true ∧
      Image ((Node.start plainNode plainMaps).run (calmly sharedBackendRun)).plane
        ((Node.start plainNode plainMaps).run (calmly sharedBackendRun)).maps := by
  have rehearsed : (rehearse (.new plainNode) sharedBackendRun).isSome = true := by decide +kernel
  obtain ⟨q, planes⟩ := Option.isSome_iff_exists.mp rehearsed
  exact ⟨rehearsed, maps_are_image (rehearse_run (Node.sound_start plainNode plainMaps) planes).1⟩

end Rivora

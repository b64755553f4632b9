import Rivora.Proofs.Rehearsal

/-! The service lookup of the packet programs against the VIPs the control plane has written. -/

namespace Rivora

variable {v : VIP} {sid : Nat}

/-- A VIP on one port has this endpoint; the port is in network byte order. -/
def VIP.exactAt (v : VIP) (addr : Addr) (port : UInt16) (proto : UInt8) : Bool :=
  !v.isRange && parseAddr v.address = some addr && protoByte v.protocol = proto && v.port = htons port

/-- A VIP with a port range has this endpoint; the port is in network byte order. -/
def VIP.rangeOver (v : VIP) (addr : Addr) (port : UInt16) (proto : UInt8) : Bool :=
  v.isRange && parseAddr v.address = some addr && protoByte v.protocol = proto &&
    v.port ≤ htons port && htons port ≤ v.portEnd

/-- The VIP maps hold the keys of some VIPs, each with its service, and no other keys. -/
structure KeyImage (programs : VIP → Nat → Prop) (m : Maps) : Prop where
  compatible : ∀ {v sid w sid'}, programs v sid → programs w sid' → v.Compatible w
  functional : ∀ {v sid w sid'}, programs v sid → programs w sid' → vipKeyString v = vipKeyString w →
    sid = sid'
  keys : ∀ {v sid}, programs v sid → ∃ ip, parseIP v.address = some ip ∧
    ∀ w ∈ vipWrites v ip sid, w.Holds m
  only : ∀ {w : MapWrite}, w.IsKey → w.Holds m → ∃ v sid ip, programs v sid ∧
    parseIP v.address = some ip ∧ w ∈ vipWrites v ip sid

theorem maskPort_eq_block {b : PortBlock} (aligned : b.port.toNat % b.size = 0) (port : UInt16) :
    Maps.maskPort port b.bits = htons b.port ↔
      b.port.toNat ≤ (htons port).toNat ∧ (htons port).toNat < b.port.toNat + b.size := by
  have size : 0 < b.size := Nat.two_pow_pos _
  have cleared : (htons (Maps.maskPort port b.bits)).toNat = (htons port).toNat / b.size * b.size :=
    htons_maskPort port b.bits
  have whole : (htons port).toNat / b.size * b.size + (htons port).toNat % b.size =
    (htons port).toNat := Nat.div_add_mod' _ _
  have rest : (htons port).toNat % b.size < b.size := Nat.mod_lt _ size
  constructor
  · intro same
    rw [same, htons_htons] at cleared
    omega
  · rintro ⟨above, below⟩
    apply htons_inj
    apply UInt16.toNat_inj.mp
    rw [cleared, htons_htons]
    -- The port's block starts at a multiple of the size, and only one multiple is that close.
    obtain ⟨k, start⟩ := Nat.dvd_of_mod_eq_zero aligned
    have quotient : (htons port).toNat / b.size = k := by
      refine Nat.div_eq_of_lt_le ?_ ?_
      · rw [Nat.mul_comm, ← start]
        exact above
      · rw [Nat.succ_mul, Nat.mul_comm, ← start]
        exact below
    rw [quotient, Nat.mul_comm, ← start]

section

variable {programs : VIP → Nat → Prop} {m : Maps} (image : KeyImage programs m) {addr : Addr}
  {port : UInt16} {proto : UInt8}

include image

theorem KeyImage.exact (programmed : programs v sid)
    (here : v.exactAt addr port proto = true) : m.vip.get? ⟨addr, port, proto⟩ = some sid := by
  simp only [VIP.exactAt, Bool.and_eq_true, Bool.not_eq_true', decide_eq_true_eq] at here
  obtain ⟨⟨⟨single, address⟩, protocol⟩, number⟩ := here
  obtain ⟨ip, parsed, hold⟩ := image.keys programmed
  have at_ : ip.toAddr = addr := by
    simpa [parseAddr, parsed] using address
  have stored : m.vip.get? (vipKey ip v) = some sid := by
    refine hold (.setVip (vipKey ip v) sid) ?_
    rw [vipWrites, if_neg (by rw [single]; exact Bool.false_ne_true)]
    exact List.mem_singleton_self _
  rwa [vipKey, at_, protocol, number, htons_htons] at stored

theorem KeyImage.exact_inv (found : m.vip.get? ⟨addr, port, proto⟩ = some sid) :
    ∃ v, programs v sid ∧ v.exactAt addr port proto = true := by
  obtain ⟨v, sid', ip, programmed, parsed, member⟩ :=
    image.only (.vip ⟨addr, port, proto⟩ sid) found
  unfold vipWrites at member
  split at member
  · obtain ⟨_, _, same⟩ := List.mem_map.mp member
    cases same
  · rename_i single
    cases List.mem_singleton.mp member
    refine ⟨v, programmed, ?_⟩
    simp [VIP.exactAt, parseAddr, parsed, htons_htons, single]

theorem KeyImage.block (programmed : programs v sid)
    (covers : v.rangeOver addr port proto = true) : ∃ bits < 17, m.vipRange.get?
      ⟨rangePrefixBase addr + bits, addr, proto, Maps.maskPort port bits⟩ = some sid := by
  simp only [VIP.rangeOver, Bool.and_eq_true, decide_eq_true_eq] at covers
  obtain ⟨⟨⟨⟨range, address⟩, protocol⟩, low⟩, high⟩ := covers
  obtain ⟨ip, parsed, hold⟩ := image.keys programmed
  have at_ : ip.toAddr = addr := by
    simpa [parseAddr, parsed] using address
  obtain ⟨b, member, inside⟩ := rangeBlocks_ports.mpr ⟨low, high⟩
  obtain ⟨bits, _, aligned, _⟩ := mem_rangeBlocks member
  have stored : m.vipRange.get? (rangeKey ip (protoByte v.protocol) b) = some sid := by
    refine hold (.setVipRange (rangeKey ip (protoByte v.protocol) b) sid) ?_
    rw [vipWrites, if_pos range]
    exact List.mem_map_of_mem member
  refine ⟨b.bits, by omega, ?_⟩
  rwa [(maskPort_eq_block aligned port).mpr inside, ← at_, ← protocol]

theorem KeyImage.block_inv {bits : Nat} (found : m.vipRange.get?
    ⟨rangePrefixBase addr + bits, addr, proto, Maps.maskPort port bits⟩ = some sid) :
    ∃ v, programs v sid ∧ v.rangeOver addr port proto = true := by
  obtain ⟨v, sid', ip, programmed, parsed, member⟩ := image.only (.range _ sid) found
  unfold vipWrites at member
  split at member
  · rename_i range
    obtain ⟨b, inside, same⟩ := List.mem_map.mp member
    obtain ⟨key, rfl⟩ := MapWrite.setVipRange.inj same
    obtain ⟨length, at_, protocol, masked⟩ := VipRangeKey.mk.inj key
    obtain ⟨_, _, aligned, _⟩ := mem_rangeBlocks inside
    have width : b.bits = bits := by
      rw [at_] at length
      omega
    rw [← width] at masked
    obtain ⟨low, high⟩ := rangeBlocks_ports.mp ⟨b, inside, (maskPort_eq_block aligned port).mp masked.symm⟩
    refine ⟨v, programmed, ?_⟩
    simp [VIP.rangeOver, range, parseAddr, parsed, at_, protocol, low, high]
  · cases List.mem_singleton.mp member

theorem KeyImage.range_unique {w : VIP} {sid' : Nat} (first : programs v sid)
    (second : programs w sid') (covers : v.rangeOver addr port proto = true)
    (covers' : w.rangeOver addr port proto = true) : vipKeyString v = vipKeyString w := by
  simp only [VIP.rangeOver, Bool.and_eq_true, decide_eq_true_eq] at covers covers'
  obtain ⟨⟨⟨⟨range, address⟩, protocol⟩, low⟩, high⟩ := covers
  obtain ⟨⟨⟨⟨range', address'⟩, protocol'⟩, low'⟩, high'⟩ := covers'
  obtain ⟨spelling, apart⟩ := image.compatible first second
  obtain ⟨spelled, spelled'⟩ := spelling (address.trans address'.symm) (protocol.trans protocol'.symm)
  rw [UInt16.le_iff_toNat_le] at low high low' high'
  rcases apart spelled spelled' range range' with ⟨start, stop⟩ | below | above
  · exact vipKeyString_congr spelled start stop spelled'
  · rw [UInt16.lt_iff_toNat_lt] at below
    omega
  · rw [UInt16.lt_iff_toNat_lt] at above
    omega

theorem KeyImage.canonical (k : VipRangeKey) (sid : Nat) (found : m.vipRange.get? k = some sid) :
    k.Canonical := by
  obtain ⟨v, sid', ip, _, _, member⟩ := image.only (.range k sid) found
  unfold vipWrites at member
  split at member
  · obtain ⟨b, inside, same⟩ := List.mem_map.mp member
    obtain ⟨key, _⟩ := MapWrite.setVipRange.inj same
    obtain ⟨small, _, aligned, _⟩ := mem_rangeBlocks inside
    rw [← key]
    refine ⟨b.bits, small, rfl, (maskPort_eq_block aligned _).mpr ?_⟩
    have size : 0 < b.size := Nat.two_pow_pos _
    simp only [rangeKey, htons_htons]
    omega
  · cases List.mem_singleton.mp member

theorem KeyImage.range (programmed : programs v sid)
    (covers : v.rangeOver addr port proto = true) : m.rangeLookup addr port proto = some sid := by
  obtain ⟨bits, below, stored⟩ := image.block programmed covers
  unfold Maps.rangeLookup
  cases found : (List.range 17).reverse.findSome? fun bits => m.vipRange.get?
      ⟨rangePrefixBase addr + bits, addr, proto, Maps.maskPort port bits⟩ with
  | none =>
    have missing := List.findSome?_eq_none_iff.mp found bits
      (List.mem_reverse.mpr (List.mem_range.mpr below))
    rw [missing] at stored
    cases stored
  | some sid' =>
    obtain ⟨bits', _, stored'⟩ := List.exists_of_findSome?_eq_some found
    obtain ⟨w, programmed', covers'⟩ := image.block_inv stored'
    rw [image.functional programmed' programmed (image.range_unique programmed' programmed covers' covers)]

theorem KeyImage.range_inv (found : m.rangeLookup addr port proto = some sid) :
    ∃ v, programs v sid ∧ v.rangeOver addr port proto = true := by
  obtain ⟨bits, _, stored⟩ := List.exists_of_findSome?_eq_some found
  exact image.block_inv stored

end

/-- One call that changes the VIP maps. -/
inductive VipChange where
  | write (vip : VIP) (serviceID : Nat)
  | delete (vip : VIP)

/-- The VIP a call is about. -/
def VipChange.vip : VipChange → VIP
  | .write vip _ => vip
  | .delete vip => vip

/-- The call; nobody looks at the error of a deletion. -/
def VipChange.run : VipChange → M Unit
  | .write vip serviceID => vipMapWrite vip serviceID
  | .delete vip => Effect.ignoring (vipMapDelete vip)

/-- The VIP maps, and the VIPs whose last call was a write, by key. -/
structure VipMaps where
  table : FMap String (VIP × Nat)
  maps : Maps

/-- The last call about a VIP wrote it under a service ID. -/
def VipMaps.Programs (s : VipMaps) (v : VIP) (sid : Nat) : Prop :=
  s.table.get? (vipKeyString v) = some (v, sid)

/-- The maps after a call on a node. -/
def VipMaps.step (p : Dataplane) (s : VipMaps) (e : VipChange × Env) : VipMaps where
  table :=
    match e.1 with
    | .write vip sid => s.table.insert (vipKeyString vip) (vip, sid)
    | .delete vip => s.table.erase (vipKeyString vip)
  maps := replay (e.1.run e.2 ⟨p, [], 0⟩).2.writes s.maps

/-- A call about one of some VIPs in which no write fails, and which returns no error. -/
def VipStep (p : Dataplane) (vips : List VIP) (e : VipChange × Env) : Prop :=
  e.1.vip ∈ vips ∧ e.2.Reliable ∧ (e.1.run e.2 ⟨p, [], 0⟩).1 = .ok ()

/-- The service of an endpoint: the VIP on its port, else the VIP whose range holds the port. -/
def VipMaps.owner (s : VipMaps) (addr : Addr) (port : UInt16) (proto : UInt8) : Option Nat :=
  ((s.table.values.find? fun e => e.1.exactAt addr port proto).or
    (s.table.values.find? fun e => e.1.rangeOver addr port proto)).map Prod.snd

/-- The maps hold the keys of the VIPs recorded, which are among those given. -/
structure VipMaps.Kept (p : Dataplane) (vips : List VIP) (s : VipMaps) : Prop where
  keyed : ∀ {k e}, s.table.get? k = some e → vipKeyString e.1 = k ∧ e.1 ∈ vips
  ranged : ∀ {v sid ip}, s.Programs v sid → parseIP v.address = some ip → v.isRange = true →
    p.hasRangeMap ip = true
  image : KeyImage s.Programs s.maps

section

variable {p : Dataplane} {vips : List VIP} {s : VipMaps}
  (compatible : ∀ v ∈ vips, ∀ w ∈ vips, v.Compatible w)

include compatible

theorem VipMaps.Kept.apart (kept : s.Kept p vips) {vip : VIP} (listed : vip ∈ vips) {ip : IP}
    (parsed : parseIP vip.address = some ip) (programmed : s.Programs v sid)
    (differ : vipKeyString v ≠ vipKeyString vip) {ip' : IP} (parsed' : parseIP v.address = some ip')
    {w : MapWrite} (member : w ∈ vipWrites v ip' sid) : w.cell ∉ vipCells vip ip := by
  have cell : w.cell ∈ vipCells v ip' := vipWrites_cells v ip' sid ▸ List.mem_map_of_mem member
  exact vipCells_disjoint (compatible _ (kept.keyed programmed).2 _ listed) differ parsed' parsed cell

/-- Writing a VIP adds its keys, or gives them a new service. -/
theorem VipMaps.Kept.write (kept : s.Kept p vips) {vip : VIP} {env : Env}
    (listed : vip ∈ vips) (ok : (vipMapWrite vip sid env ⟨p, [], 0⟩).1 = .ok ()) :
    (s.step p (.write vip sid, env)).Kept p vips := by
  obtain ⟨s', ws, _, logged, done⟩ := vipMapWrite_run vip sid env ⟨p, [], 0⟩
  rcases done with ⟨ip, run, parsed, supported, rfl⟩ | ⟨⟨e, run⟩, _⟩
  · have maps : (s.step p (.write vip sid, env)).maps = replay (vipWrites vip ip sid) s.maps := by
      simp only [VipMaps.step, VipChange.run, run]
      rw [logged]
      rfl
    have mine : ∀ {v sid'}, (s.step p (.write vip sid, env)).Programs v sid' →
        (v = vip ∧ sid' = sid) ∨ (vipKeyString v ≠ vipKeyString vip ∧ s.Programs v sid') := by
      intro v sid' programmed
      have stored : (s.table.insert (vipKeyString vip) (vip, sid)).get? (vipKeyString v) =
        some (v, sid') := programmed
      by_cases same : vipKeyString v = vipKeyString vip
      · rw [same, FMap.get?_insert_self] at stored
        cases stored
        exact Or.inl ⟨rfl, rfl⟩
      · rw [FMap.get?_insert_of_ne _ _ same] at stored
        exact Or.inr ⟨same, stored⟩
    have isKept : ∀ {v sid'}, vipKeyString v ≠ vipKeyString vip → s.Programs v sid' →
        (s.step p (.write vip sid, env)).Programs v sid' := fun differ programmed =>
      (FMap.get?_insert_of_ne _ _ differ).trans programmed
    have keyed : ∀ {k e}, (s.step p (.write vip sid, env)).table.get? k = some e →
        vipKeyString e.1 = k ∧ e.1 ∈ vips := by
      intro k e stored
      have stored' : (s.table.insert (vipKeyString vip) (vip, sid)).get? k = some e := stored
      by_cases same : k = vipKeyString vip
      · rw [same, FMap.get?_insert_self] at stored'
        cases stored'
        exact ⟨same.symm, listed⟩
      · rw [FMap.get?_insert_of_ne _ _ same] at stored'
        exact kept.keyed stored'
    refine ⟨keyed, ?_, ?_, ?_, ?_, ?_⟩
    · intro v sid' ip' programmed parsed' range
      rcases mine programmed with ⟨rfl, rfl⟩ | ⟨_, before⟩
      · cases parsed.symm.trans parsed'
        exact supported range
      · exact kept.ranged before parsed' range
    · intro v sid' w sid'' first second
      exact compatible _ (keyed first).2 _ (keyed second).2
    · intro v sid' w sid'' first second same
      have stored : (s.step p (.write vip sid, env)).table.get? (vipKeyString v) = _ := first
      rw [same] at stored
      cases stored.symm.trans second
      rfl
    · intro v sid' programmed
      rw [maps]
      rcases mine programmed with ⟨rfl, rfl⟩ | ⟨differ, before⟩
      · exact ⟨ip, parsed, fun w member =>
          replay_holds member (fun u inside same => vipWrites_unique inside member same) _⟩
      · obtain ⟨ip', parsed', hold⟩ := kept.image.keys before
        refine ⟨ip', parsed', fun w member => (hold w member).of_agree (replay_agree ?_ _)⟩
        intro u inside same
        refine kept.apart compatible listed parsed before differ parsed' member ?_
        rw [← same, ← vipWrites_cells vip ip sid]
        exact List.mem_map_of_mem inside
    · intro w isKey holds
      rw [maps] at holds
      by_cases written : w.cell ∈ vipCells vip ip
      · rw [← vipWrites_cells vip ip sid] at written
        obtain ⟨u, inside, same⟩ := List.mem_map.mp written
        have held := replay_holds inside
          (fun x member eq => vipWrites_unique member inside eq) s.maps
        rw [← (vipWrites_isKey inside).unique isKey same held holds]
        exact ⟨vip, sid, ip, FMap.get?_insert_self _ _ _, parsed, inside⟩
      · have before : w.Holds s.maps := by
          refine holds.of_agree (replay_agree ?_ _).symm
          intro u inside same
          exact written (same ▸ vipWrites_cells vip ip sid ▸ List.mem_map_of_mem inside)
        obtain ⟨v, sid', ip', programmed, parsed', member⟩ := kept.image.only isKey before
        refine ⟨v, sid', ip', isKept ?_ programmed, parsed', member⟩
        intro same
        -- The VIP itself has no key outside those just written.
        have one : parseIP v.address = parseIP vip.address :=
          congrArg parseIP (vipKeyString_inj same).1
        rw [parsed, parsed'] at one
        cases one
        refine written (vipCells_congr same ip ▸ ?_)
        exact vipWrites_cells v ip sid' ▸ List.mem_map_of_mem member
  · rw [run] at ok
    cases ok

theorem VipMaps.Kept.delete (kept : s.Kept p vips) {vip : VIP} {env : Env} (listed : vip ∈ vips)
    (reliable : env.Reliable) : (s.step p (.delete vip, env)).Kept p vips := by
  obtain ⟨s', ws, run, _, logged, kinds, complete⟩ := vipMapDelete_run vip env ⟨p, [], 0⟩
  have maps : (s.step p (.delete vip, env)).maps = replay ws s.maps := by
    simp only [VipMaps.step, VipChange.run, run]
    rw [logged]
    rfl
  have left : ∀ {v sid'}, (s.step p (.delete vip, env)).Programs v sid' →
      vipKeyString v ≠ vipKeyString vip ∧ s.Programs v sid' := by
    intro v sid' programmed
    have stored : (s.table.erase (vipKeyString vip)).get? (vipKeyString v) = some (v, sid') := programmed
    by_cases same : vipKeyString v = vipKeyString vip
    · rw [same, FMap.get?_erase_self] at stored
      cases stored
    · exact ⟨same, (FMap.get?_erase_of_ne _ same).symm.trans stored⟩
  have keyed : ∀ {k e}, (s.step p (.delete vip, env)).table.get? k = some e →
      vipKeyString e.1 = k ∧ e.1 ∈ vips := by
    intro k e stored
    have stored' : (s.table.erase (vipKeyString vip)).get? k = some e := stored
    by_cases same : k = vipKeyString vip
    · rw [same, FMap.get?_erase_self] at stored'
      cases stored'
    · exact kept.keyed ((FMap.get?_erase_of_ne _ same).symm.trans stored')
  refine ⟨keyed, ?_, ?_, ?_, ?_, ?_⟩
  · exact fun programmed => kept.ranged (left programmed).2
  · intro v sid' w sid'' first second
    exact compatible _ (keyed first).2 _ (keyed second).2
  · exact fun first second => kept.image.functional (left first).2 (left second).2
  · intro v sid' programmed
    obtain ⟨differ, before⟩ := left programmed
    rw [maps]
    obtain ⟨ip', parsed', hold⟩ := kept.image.keys before
    refine ⟨ip', parsed', fun w member => (hold w member).of_agree (replay_agree ?_ _)⟩
    intro u inside same
    obtain ⟨ip, parsed, deleted⟩ := kinds u inside
    refine kept.apart compatible listed parsed before differ parsed' member ?_
    rw [← same, ← vipDeletes_cells vip ip]
    exact List.mem_map_of_mem deleted
  · intro w isKey holds
    rw [maps] at holds
    -- A key that is still there was not deleted, so it was there before.
    have spared : ∀ u ∈ ws, u.cell ≠ w.cell := by
      intro u inside same
      obtain ⟨ip, parsed, deleted⟩ := kinds u inside
      refine isKey.not_deleted deleted same (replay_holds inside ?_ s.maps) holds
      intro x member eq
      obtain ⟨ip', parsed', deleted'⟩ := kinds x member
      cases parsed.symm.trans parsed'
      exact vipDeletes_unique deleted' deleted eq
    have before : w.Holds s.maps := holds.of_agree (replay_agree spared _).symm
    obtain ⟨v, sid', ip, programmed, parsed, member⟩ := kept.image.only isKey before
    refine ⟨v, sid', ip, ?_, parsed, member⟩
    have differ : vipKeyString v ≠ vipKeyString vip := by
      intro same
      -- Of the VIP itself every key was deleted.
      obtain ⟨address, _, portEnd, _⟩ := vipKeyString_inj same
      have range : vip.isRange = v.isRange := by rw [VIP.isRange, VIP.isRange, portEnd]
      have all := complete reliable ip (address ▸ parsed) fun isRange =>
        kept.ranged programmed parsed (range ▸ isRange)
      have cell : w.cell ∈ vipCells vip ip :=
        vipCells_congr same ip ▸ vipWrites_cells v ip sid' ▸ List.mem_map_of_mem member
      rw [← vipDeletes_cells vip ip, ← all] at cell
      obtain ⟨u, inside, eq⟩ := List.mem_map.mp cell
      exact spared u inside eq
    exact (FMap.get?_erase_of_ne _ differ).trans programmed

theorem VipMaps.Kept.step (kept : s.Kept p vips) {e : VipChange × Env} (ok : VipStep p vips e) :
    (s.step p e).Kept p vips := by
  obtain ⟨change, env⟩ := e
  obtain ⟨listed, reliable, done⟩ := ok
  cases change with
  | write vip sid => exact kept.write compatible listed done
  | delete vip => exact kept.delete compatible listed reliable

end

theorem VipMaps.Kept.start (p : Dataplane) (vips : List VIP) {m : Maps} (noVip : m.vip = FMap.empty)
    (noRange : m.vipRange = FMap.empty) : (VipMaps.mk FMap.empty m).Kept p vips := by
  refine ⟨nofun, nofun, nofun, nofun, nofun, ?_⟩
  intro w isKey holds
  cases isKey with
  | vip key sid =>
    have stored : m.vip.get? key = some sid := holds
    rw [noVip] at stored
    cases stored
  | range key sid =>
    have stored : m.vipRange.get? key = some sid := holds
    rw [noRange] at stored
    cases stored

theorem VipMaps.Kept.service {p : Dataplane} {vips : List VIP} {s : VipMaps} (kept : s.Kept p vips)
    (addr : Addr) (port : UInt16) (proto : UInt8) :
    s.maps.service addr port proto = s.owner addr port proto := by
  -- A recorded VIP is programmed, and the other way round.
  have recorded : ∀ {e}, e ∈ s.table.values → s.Programs e.1 e.2 := by
    intro e member
    obtain ⟨⟨k, e'⟩, stored, rfl⟩ := List.mem_map.mp member
    have found := FMap.get?_eq_some.mpr stored
    have same := (kept.keyed found).1
    exact same ▸ found
  have listed : ∀ {v sid}, s.Programs v sid → (v, sid) ∈ s.table.values := fun programmed =>
    FMap.mem_values_of_get? programmed
  unfold VipMaps.owner Maps.service
  cases exact : s.table.values.find? fun e => e.1.exactAt addr port proto with
  | some e =>
    rw [kept.image.exact (recorded (List.mem_of_find?_eq_some exact))
      (List.find?_some (p := fun e : VIP × Nat => e.1.exactAt addr port proto) exact)]
    rfl
  | none =>
    have missing : s.maps.vip.get? ⟨addr, port, proto⟩ = none := by
      refine Option.eq_none_iff_forall_ne_some.mpr fun sid found => ?_
      obtain ⟨v, programmed, here⟩ := kept.image.exact_inv found
      exact List.find?_eq_none.mp exact _ (listed programmed) here
    rw [missing]
    cases range : s.table.values.find? fun e => e.1.rangeOver addr port proto with
    | some e =>
      exact kept.image.range (recorded (List.mem_of_find?_eq_some range))
        (List.find?_some (p := fun e : VIP × Nat => e.1.rangeOver addr port proto) range)
    | none =>
      refine Option.eq_none_iff_forall_ne_some.mpr fun sid found => ?_
      obtain ⟨v, programmed, covers⟩ := kept.image.range_inv found
      exact List.find?_eq_none.mp range _ (listed programmed) covers

/--
However VIPs are written and deleted, an endpoint leads to the VIP on its port, else to the one VIP
whose range holds the port, else nowhere; and the range lookup is the kernel's longest prefix.
-/
theorem lookup_finds_programmed_vip (p : Dataplane) {vips : List VIP}
    (compatible : ∀ v ∈ vips, ∀ w ∈ vips, v.Compatible w) {start : Maps}
    (noVip : start.vip = FMap.empty) (noRange : start.vipRange = FMap.empty)
    {calls : List (VipChange × Env)}
    (run : Run.Along (VipMaps.step p) (fun _ e => VipStep p vips e) ⟨FMap.empty, start⟩ calls)
    {s : VipMaps} (reached : s = Run.run (VipMaps.step p) ⟨FMap.empty, start⟩ calls) (addr : Addr)
    (port : UInt16) (proto : UInt8) :
    s.maps.service addr port proto = s.owner addr port proto ∧
      (∀ v sid w sid', s.Programs v sid → s.Programs w sid' → v.exactAt addr port proto = true →
        w.exactAt addr port proto = true → vipKeyString v = vipKeyString w) ∧
      (∀ v sid w sid', s.Programs v sid → s.Programs w sid' → v.rangeOver addr port proto = true →
        w.rangeOver addr port proto = true → vipKeyString v = vipKeyString w) ∧
      s.maps.rangeLookup addr port proto = s.maps.trieLookup addr port proto := by
  have kept : s.Kept p vips := reached ▸ Run.invariant (P := VipMaps.Kept p vips)
    (fun kept ok => VipMaps.Kept.step compatible kept ok) (.start p vips noVip noRange) run
  refine ⟨kept.service addr port proto, ?_, ?_, ?_⟩
  · intro v sid w sid' first second here here'
    simp only [VIP.exactAt, Bool.and_eq_true, Bool.not_eq_true', decide_eq_true_eq] at here here'
    obtain ⟨⟨⟨single, address⟩, protocol⟩, number⟩ := here
    obtain ⟨⟨⟨single', address'⟩, protocol'⟩, number'⟩ := here'
    obtain ⟨spelled, spelled'⟩ := (kept.image.compatible first second).spelling
      (address.trans address'.symm) (protocol.trans protocol'.symm)
    have ends : v.portEnd = w.portEnd := by
      simp only [VIP.isRange, ne_eq, decide_not, Bool.not_eq_false', decide_eq_true_eq] at single single'
      rw [single, single']
    exact vipKeyString_congr spelled (number.trans number'.symm) ends spelled'
  · exact fun v sid w sid' first second => kept.image.range_unique first second
  · exact rangeLookup_eq_trieLookup kept.image.canonical addr port proto

section Inputs

/-- A VIP on a range of ports. -/
def rangeVIP : VIP := { plainVIP "10.0.0.1" ["10.0.1.1"] with port := 30000, portEnd := 30100 }

/-- A VIP on one port of the range. -/
def insideVIP : VIP := { plainVIP "10.0.0.1" ["10.0.1.2"] with port := 30050 }

/-- Both are written, and the second is deleted again. -/
def rangeCalls : List (VipChange × Env) :=
  [(.write rangeVIP 1, calm), (.write insideVIP 0, calm), (.delete insideVIP, calm)]

end Inputs

/-- With the VIP on a port of a range deleted, the port leads to the range again. -/
theorem lookup_finds_range_vip :
    (Run.run (VipMaps.step (.new plainNode)) ⟨FMap.empty, (Node.start plainNode plainMaps).maps⟩
      rangeCalls).maps.service (.v4 0x0100000a) (htons 30050) 6 = some 1 := by
  have run : Run.Along (VipMaps.step (.new plainNode))
      (fun _ e => VipStep (.new plainNode) [rangeVIP, insideVIP] e)
      ⟨FMap.empty, (Node.start plainNode plainMaps).maps⟩ rangeCalls := by
    have called : ∀ c : VipChange, c.vip ∈ [rangeVIP, insideVIP] →
        (c.run calm ⟨.new plainNode, [], 0⟩).1.isOk = true →
        VipStep (.new plainNode) [rangeVIP, insideVIP] (c, calm) := by
      intro c listed ok
      refine ⟨listed, calm_reliable, ?_⟩
      generalize (c.run calm ⟨.new plainNode, [], 0⟩).1 = outcome at ok
      cases outcome with
      | ok _ => rfl
      | error e => cases ok
    exact ⟨called _ List.mem_cons_self (by decide +kernel),
      called _ (List.mem_cons_of_mem _ List.mem_cons_self) (by decide +kernel),
      called _ (List.mem_cons_of_mem _ List.mem_cons_self) (by decide +kernel), trivial⟩
  have compatible : ∀ v ∈ [rangeVIP, insideVIP], ∀ w ∈ [rangeVIP, insideVIP], v.Compatible w := by
    decide +kernel
  refine (lookup_finds_programmed_vip (.new plainNode) compatible rfl rfl run rfl _ _ _).1.trans ?_
  decide +kernel

end Rivora

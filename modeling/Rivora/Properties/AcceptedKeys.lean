import Rivora.Proofs.Accepted
import Rivora.Proofs.Filed
import Rivora.Proofs.Rehearsal

/-! The VIPs of an accepted configuration and the entries they are served by. -/

namespace Rivora

/-- VIPs of one port and protocol write one address in one way. -/
def Config.SpelledAlike (c : Config) : Prop :=
  ∀ v ∈ c.specs, ∀ w ∈ c.specs, v.isRange = false → w.isRange = false → v.port = w.port →
    v.protocol = w.protocol → parseAddr v.address = parseAddr w.address → v.address = w.address

instance (c : Config) : Decidable c.SpelledAlike :=
  inferInstanceAs (Decidable (∀ v ∈ c.specs, ∀ w ∈ c.specs, _))

/-- Two VIPs share no entry of the VIP maps. -/
structure VIP.Separate (v w : VIP) : Prop where
  entries : ∀ {ip ip' c}, parseIP v.address = some ip → parseIP w.address = some ip' →
    c ∈ vipCells v ip → c ∉ vipCells w ip'
  /-- Blocks of ranges on one address and protocol lie apart. -/
  blocks : parseAddr v.address = parseAddr w.address → v.protocol = w.protocol →
    v.isRange = true → w.isRange = true →
    ∀ b ∈ rangeBlocks v.port v.portEnd, ∀ b' ∈ rangeBlocks w.port w.portEnd,
      b.port.toNat + b.size ≤ b'.port.toNat ∨ b'.port.toNat + b'.size ≤ b.port.toNat

section Separate

variable {c : Config} {v w : VIP}

instance : Std.Symm VIP.RangesApart where
  symm _ _ apart range range' ip ip' parsed parsed' same :=
    (apart range' range ip' ip parsed' parsed same.symm).symm

instance : Std.Symm VIP.Separate where
  symm _ _ separate :=
    ⟨fun parsed parsed' mine theirs => separate.entries parsed' parsed theirs mine,
      fun addr protocol range range' b member b' member' =>
        (separate.blocks addr.symm protocol.symm range' range b' member' b member).symm⟩

/-- Protocols that are accepted have bytes of their own. -/
theorem VIP.Checked.protocol_of_byte (checked : v.Checked) (checked' : w.Checked)
    (same : protoByte v.protocol = protoByte w.protocol) : v.protocol = w.protocol := by
  rcases checked.protocol with tcp | udp <;> rcases checked'.protocol with tcp' | udp'
  · rw [tcp, tcp']
  · rw [tcp, udp'] at same
    cases same
  · rw [udp, tcp'] at same
    cases same
  · rw [udp, udp']

theorem Config.Accepted.ranges_apart (accepted : c.Accepted) (first : v ∈ c.specs)
    (second : w ∈ c.specs) (differ : v ≠ w) (range : v.isRange = true) (range' : w.isRange = true)
    {ip ip' : IP} (parsed : parseIP v.address = some ip) (parsed' : parseIP w.address = some ip')
    (addr : ip.toAddr = ip'.toAddr) (protocol : v.protocol = w.protocol) :
    v.portEnd < w.port ∨ w.portEnd < v.port := by
  have apart := accepted.ranges.forall first second differ
  refine apart range range' ip ip' parsed parsed' ?_
  rw [rangeGroup, rangeGroup, IP.text_of_toAddr addr, protocol]

/-- VIPs of one port, protocol and address are told apart by nothing but the text of the address. -/
theorem spelled_of_separate (accepted : c.Accepted) (separate : c.specs.Pairwise VIP.Separate) :
    c.SpelledAlike := by
  intro v first w second single single' port protocol sameAddr
  by_contra differ
  have apart : v.Separate w := separate.forall first second fun same => differ (congrArg VIP.address same)
  obtain ⟨ip, parsed⟩ := Option.isSome_iff_exists.mp (accepted.each v first).address
  obtain ⟨ip', parsed'⟩ := Option.isSome_iff_exists.mp (accepted.each w second).address
  have addr : ip.toAddr = ip'.toAddr := by
    simpa only [parseAddr, parsed, parsed', Option.map_some, Option.some.injEq] using sameAddr
  -- The key of the entry is made of the parsed address, so the two VIPs have one entry.
  have key : vipKey ip v = vipKey ip' w := by rw [vipKey, vipKey, addr, port, protocol]
  refine apart.entries parsed parsed' (c := .vip (vipKey ip v)) ?_ ?_
  · rw [vipCells, single]
    exact List.mem_singleton.mpr rfl
  · rw [vipCells, single', key]
    exact List.mem_singleton.mpr rfl

/-- VIPs of an accepted configuration that are spelled alike are separate. -/
theorem Config.Accepted.separate (accepted : c.Accepted) (spelled : c.SpelledAlike)
    (first : v ∈ c.specs) (second : w ∈ c.specs) (differ : vipKeyString v ≠ vipKeyString w) :
    v.Separate w := by
  have distinct : v ≠ w := fun same => differ (congrArg vipKeyString same)
  constructor
  · intro ip ip' cell parsed parsed' mine theirs
    obtain ⟨addr, proto, ports⟩ := vipCells_common mine theirs
    have protocol := (accepted.each v first).protocol_of_byte (accepted.each w second) proto
    rcases ports with ⟨single, single', port⟩ | ⟨range, range', low, high⟩
    · -- One port: the keys are the texts, which agree where the address does.
      have sameAddr : parseAddr v.address = parseAddr w.address := by
        simp only [parseAddr, parsed, parsed', Option.map_some, addr]
      have address := spelled v first w second single single' port protocol sameAddr
      have ends := (portEnd_of_single single).trans (portEnd_of_single single').symm
      exact differ (vipKeyString_congr address port ends protocol)
    · -- A range: the check has compared the parsed addresses.
      rcases accepted.ranges_apart first second distinct range range' parsed parsed' addr protocol
        with below | above
      · exact absurd below (UInt16.not_lt.mpr high)
      · exact absurd above (UInt16.not_lt.mpr low)
  · intro sameAddr protocol range range' b member b' member'
    obtain ⟨ip, parsed⟩ := Option.isSome_iff_exists.mp (accepted.each v first).address
    obtain ⟨ip', parsed'⟩ := Option.isSome_iff_exists.mp (accepted.each w second).address
    have addr : ip.toAddr = ip'.toAddr := by
      simpa only [parseAddr, parsed, parsed', Option.map_some, Option.some.injEq] using sameAddr
    obtain ⟨_, low, _, high⟩ := mem_rangeBlocks member
    obtain ⟨_, low', _, high'⟩ := mem_rangeBlocks member'
    rcases accepted.ranges_apart first second distinct range range' parsed parsed' addr protocol
      with below | above
    · have := UInt16.lt_iff_toNat_lt.mp below
      exact Or.inl (by omega)
    · have := UInt16.lt_iff_toNat_lt.mp above
      exact Or.inr (by omega)

end Separate

section Removals

/-- Every VIP that is programmed is one of the configuration. -/
def Config.Covers (c : Config) (p : Dataplane) : Prop :=
  ∀ k, p.services.contains k = true → ∃ v ∈ c.specs, vipKeyString v = k

theorem removes_first {removes : List String} {upserts : List VIP} {ran rest : List Part} {k : String}
    (consists : ran ++ .remove k :: rest = removes.map .remove ++ upserts.map .upsert) :
    ∀ part ∈ ran, ∃ key, part = .remove key := by
  intro part member
  rcases List.append_eq_append_iff.mp consists with ⟨middle, split, _⟩ | ⟨middle, _, split⟩
  · have listed : part ∈ removes.map Part.remove := split ▸ List.mem_append_left _ member
    obtain ⟨key, _, rfl⟩ := List.mem_map.mp listed
    exact ⟨key, rfl⟩
  · -- A removal cannot stand among the additions.
    have listed : Part.remove k ∈ upserts.map Part.upsert := split ▸ List.mem_append_right _ List.mem_cons_self
    obtain ⟨_, _, is⟩ := List.mem_map.mp listed
    cases is

/-- Removals add no VIP. -/
theorem Ran.shrinks {env : Env} {parts : List (Part × Bool)} {s s' : World} (ran : Ran env parts s s')
    (removals : ∀ part ∈ parts.map Prod.fst, ∃ key, part = .remove key)
    (owned : ∃ leak, Owned leak s.plane) (filed : Filed s.plane) :
    (∃ leak, Owned leak s'.plane) ∧ Filed s'.plane ∧
      ∀ k, s'.plane.services.contains k = true → s.plane.services.contains k = true := by
  induction ran with
  | done same => rw [same.plane]; exact ⟨owned, filed, fun _ => id⟩
  | @step s s₀ s₁ s' part result rest same run later ih =>
    rw [← same.plane] at owned filed
    obtain ⟨owned₁, filed₁⟩ := Part.filed owned filed run
    obtain ⟨owned', filed', fewer⟩ := ih (fun p member => removals p (List.mem_cons_of_mem _ member))
      owned₁ filed₁
    refine ⟨owned', filed', fun k present => ?_⟩
    obtain ⟨key, rfl⟩ := removals part List.mem_cons_self
    obtain ⟨leak, owned⟩ := owned
    have ran : removeVIP key env s₀ = (result, s₁) := run
    have present₁ := fewer k present
    rw [← same.plane]
    rcases removeVIP_run key env owned with ⟨_, nothing⟩ | ⟨entry, _, _, _, found, done, _, removed⟩
    · cases ran.symm.trans nothing
      exact present₁
    · cases ran.symm.trans done
      by_cases here : k = key
      · rw [here, FMap.contains, found]
        rfl
      · rwa [FMap.contains, removed.others k here] at present₁

/-- A removal leaves entries that are not its own. -/
theorem removeVIP_spares {leak : String → Nat} {env : Env} {s : World} (owned : Owned leak s.plane)
    {key : String} {w : VIP} {ip : IP} {cell : Cell} (listed : cell ∈ vipCells w ip)
    (apart : ∀ e, s.plane.services.get? key = some e → ∀ ip', parseIP e.vip.address = some ip' →
      cell ∉ vipCells e.vip ip') (m : Maps) :
    cell.Agree (replay s.writes m) (replay (removeVIP key env s).2.writes m) := by
  rcases removeVIP_run key env owned with ⟨_, nothing⟩ | ⟨entry, s', _, _, found, done, logged, removed⟩
  · rw [nothing]
    exact .refl _ _
  · rw [done, logged, replay_append]
    exact removed.spares (vipCells_kind listed) (apart entry found) _

end Removals

section Cases

/-- A configuration of these VIPs and nothing else. -/
def plainConfig (vips : List VIP) : Config where
  interface := "eth0"
  xdpMode := .unset
  tunnelSource := ""
  tunnelSource6 := ""
  rateLimit := ⟨false, 0, 0⟩
  bgp := ⟨false, 0, "", "", [], [], [], false⟩
  vips := vips.map fun v => ⟨v, [], ""⟩

theorem run_two_upserts {v w : VIP} (fits : Fits (.new plainNode) v)
    (fits' : Fits ((Dataplane.new plainNode).upserted calm v) w) :
    Owned (fun _ => 0)
        ((Node.start plainNode plainMaps).run (calmly [.upsertVIP v, .upsertVIP w])).plane ∧
      ((Node.start plainNode plainMaps).run (calmly [.upsertVIP v, .upsertVIP w])).plane =
        ((Dataplane.new plainNode).upserted calm v).upserted calm w := by
  obtain ⟨_, owned, plane⟩ := Node.upsert_fits (n := Node.start plainNode plainMaps)
    (.new plainNode) fits calm_reliable
  have start : (Node.start plainNode plainMaps).plane = .new plainNode := rfl
  rw [start] at plane
  obtain ⟨_, owned', plane'⟩ := Node.upsert_fits owned (plane ▸ fits') calm_reliable
  rw [plane] at plane'
  exact ⟨owned', plane'⟩

theorem reload_removes_one {leak : String → Nat} {n : Node} (owned : Owned leak n.plane) {env : Env}
    (reliable : env.Reliable) {desired : List VIP} {k : String}
    (removes : (planReload n.plane.currentSpecs desired).removes = [k])
    (upserts : (planReload n.plane.currentSpecs desired).upserts = []) {e : ServiceEntry}
    (found : n.plane.services.get? k = some e) (single : e.vip.isRange = false) {ip : IP}
    (parsed : parseIP e.vip.address = some ip) :
    (n.step (.op (.reloadVIPs desired) env)).maps.vip.get? (vipKey ip e.vip) = none ∧
      ∀ j, j ≠ k → (n.step (.op (.reloadVIPs desired) env)).plane.services.get? j =
        n.plane.services.get? j := by
  obtain ⟨result, err, s', ran, run, rans, consists, _⟩ :=
    reloadVIPs_ran desired env ⟨n.plane, [], 0⟩
  have stepped : n.step (.op (.reloadVIPs desired) env) = ⟨s'.plane, replay s'.writes n.maps⟩ := by
    have outcome : ((Op.reloadVIPs desired).outcome env n.plane).2 = s' := by
      rw [Op.outcome, Op.run, Effect.bind_apply, run]
      cases err <;> rfl
    rw [Node.step, Node.after, outcome]
  -- The plan leaves one part, the removal.
  have parts : ran.map Prod.fst = [.remove k] := by
    rw [consists, removes, upserts]
    rfl
  rw [stepped]
  cases rans with
  | done same => cases parts
  | @step _ s₀ s₁ _ part outcome rest same ran later =>
    obtain ⟨rfl, none⟩ := List.cons.inj parts
    rw [List.map_eq_nil_iff] at none
    subst none
    have ran : removeVIP k env s₀ = (outcome, s₁) := ran
    cases later with
    | done same' =>
      have plane₀ : s₀.plane = n.plane := same.plane
      have writes₀ : s₀.writes = [] := same.writes
      rcases removeVIP_run k env (plane₀ ▸ owned) with
        ⟨absent, _⟩ | ⟨entry, _, ws₁, ws₂, there, done, logged, removed⟩
      · rw [plane₀, found] at absent
        cases absent
      · cases ran.symm.trans done
        rw [plane₀, found] at there
        cases there
        rw [Logged, writes₀, List.nil_append] at logged
        have deleted : MapWrite.deleteVip (vipKey ip e.vip) ∈ vipDeletes e.vip ip := by
          rw [vipDeletes, single]
          exact List.mem_singleton.mpr rfl
        refine ⟨?_, fun j other => ?_⟩
        · rw [same'.writes, logged]
          have range : e.vip.isRange = true → s₀.plane.hasRangeMap ip = true :=
            fun is => by cases single.symm.trans is
          exact removed.cleared reliable parsed range (Or.inl deleted) n.maps
        · rw [same'.plane, removed.others j other, plane₀]

end Cases

/--
The VIPs of an accepted configuration share no entry, and removing one leaves the others theirs, exactly when
no two of them with one port and protocol write one address in two ways.
-/
theorem accepted_vips_keep_entries {c : Config} (passes : c.validate = .ok ()) :
    (c.specs.Pairwise VIP.Separate ∧
      ∀ config maps events desired env q k s m,
        c.Covers ((Node.start config maps).run events).plane →
        (Op.reloadVIPs desired).Begins env ((Node.start config maps).run events).plane q (.remove k) →
        s.plane = q → ∀ w ∈ c.specs, vipKeyString w ≠ k → ∀ ip, parseIP w.address = some ip →
        ∀ cell ∈ vipCells w ip,
          cell.Agree (replay s.writes m) (replay (removeVIP k env s).2.writes m)) ↔
    c.SpelledAlike := by
  have accepted := Config.accepted passes
  refine ⟨fun holds => spelled_of_separate accepted holds.1, fun spelled => ?_⟩
  constructor
  · exact accepted.keys.imp_of_mem fun first second differ =>
      accepted.separate spelled first second differ
  · intro config maps events desired env q k s m covers begins plane w listed differ ip parsed cell inside
    obtain ⟨owned, filed⟩ := Node.filed_run config maps events
    obtain ⟨ran, rest, t, consists, rans, rfl⟩ := begins
    obtain ⟨⟨leak, owned'⟩, filed', fewer⟩ := rans.shrinks (removes_first consists) owned filed
    rw [← plane] at owned' filed' fewer
    refine removeVIP_spares owned' inside (fun e found ip' parsed' theirs => ?_) m
    have present : s.plane.services.contains k = true := by
      rw [FMap.contains, found]
      rfl
    -- What stands under the key is a VIP of the configuration, and not this one.
    obtain ⟨v, member, rfl⟩ := covers k (fewer k present)
    rcases filed' _ e found with unset | key
    · cases unset.symm.trans parsed'
    · rw [vipCells_congr key] at theirs
      rw [(vipKeyString_inj key).1] at parsed'
      exact (accepted.separate spelled listed member differ).entries parsed parsed' inside theirs

/-- Two VIPs on different addresses, one of which a reload drops. -/
theorem accepted_vips_keep_entries_of_pair :
    ∃ v w : VIP, (plainConfig [v, w]).validate = .ok () ∧ (plainConfig [v, w]).SpelledAlike ∧
      (plainConfig [v, w]).specs.Pairwise VIP.Separate ∧
      ∃ p : Dataplane, p = ((Node.start plainNode plainMaps).run
          (calmly [.upsertVIP v, .upsertVIP w])).plane ∧
        (plainConfig [v, w]).Covers p ∧
        (Op.reloadVIPs [v]).Begins calm p p (.remove (vipKeyString w)) ∧
        ∀ ip, parseIP v.address = some ip → ∀ cell ∈ vipCells v ip, ∀ m : Maps,
          cell.Agree m (replay (removeVIP (vipKeyString w) calm ⟨p, [], 0⟩).2.writes m) := by
  obtain ⟨v, isV⟩ : ∃ v, v = plainVIP "2001:db8::1" ["fd00::a"] := ⟨_, rfl⟩
  obtain ⟨w, isW⟩ : ∃ w, w = plainVIP "2001:db8::2" ["fd00::a"] := ⟨_, rfl⟩
  have passes : (plainConfig [v, w]).validate = .ok () := by
    rw [isV, isW]
    decide +kernel
  have spelled : (plainConfig [v, w]).SpelledAlike := by
    rw [isV, isW]
    decide +kernel
  have fits : Fits (.new plainNode) v := by
    rw [isV]
    decide +kernel
  have fits' : Fits ((Dataplane.new plainNode).upserted calm v) w := by
    rw [isV, isW]
    decide +kernel
  obtain ⟨_, plane⟩ := run_two_upserts fits fits'
  have facts : (planReload (((Dataplane.new plainNode).upserted calm v).upserted calm w).currentSpecs
        [v]).removes = [vipKeyString w] ∧
      (planReload (((Dataplane.new plainNode).upserted calm v).upserted calm w).currentSpecs
        [v]).upserts = [] ∧
      (∀ k ∈ (((Dataplane.new plainNode).upserted calm v).upserted calm w).services.keys,
        k ∈ [v, w].map vipKeyString) ∧ vipKeyString v ≠ vipKeyString w := by
    rw [isV, isW]
    decide +kernel
  rw [← plane] at facts
  obtain ⟨removes, upserts, keys, differ⟩ := facts
  have covers : (plainConfig [v, w]).Covers ((Node.start plainNode plainMaps).run
      (calmly [.upsertVIP v, .upsertVIP w])).plane := by
    intro k present
    obtain ⟨u, member, is⟩ := List.mem_map.mp (keys k (FMap.contains_iff.mp present))
    exact ⟨u, member, is⟩
  have begins : (Op.reloadVIPs [v]).Begins calm ((Node.start plainNode plainMaps).run
      (calmly [.upsertVIP v, .upsertVIP w])).plane ((Node.start plainNode plainMaps).run
      (calmly [.upsertVIP v, .upsertVIP w])).plane (.remove (vipKeyString w)) := by
    refine ⟨[], [], _, ?_, .done (.refl _), rfl⟩
    rw [Op.Consists, removes, upserts]
    rfl
  obtain ⟨separate, keeps⟩ := (accepted_vips_keep_entries passes).mpr spelled
  refine ⟨v, w, passes, spelled, separate, _, rfl, covers, begins, ?_⟩
  intro ip parsed cell inside m
  exact keeps _ _ _ _ _ _ _ ⟨_, [], 0⟩ m covers begins rfl v List.mem_cons_self differ ip parsed cell
    inside

/-- One address in two spellings passes the check, and dropping one VIP leaves the other unserved. -/
theorem respelled_vip_loses_entry :
    ∃ v w : VIP, v ≠ w ∧ (plainConfig [v, w]).validate = .ok () ∧
      ∃ ip key, parseIP v.address = some ip ∧ vipCells v ip = [.vip key] ∧
        ∃ n : Node, n = (Node.start plainNode plainMaps).run
            (calmly [.upsertVIP v, .upsertVIP w, .reloadVIPs [v]]) ∧
          n.plane.services.contains (vipKeyString v) = true ∧ n.maps.vip.get? key = none := by
  obtain ⟨v, isV⟩ : ∃ v, v = plainVIP "2001:db8::1" ["fd00::a"] := ⟨_, rfl⟩
  obtain ⟨w, isW⟩ : ∃ w, w = plainVIP "2001:DB8::1" ["fd00::a"] := ⟨_, rfl⟩
  have passes : (plainConfig [v, w]).validate = .ok () := by
    rw [isV, isW]
    decide +kernel
  have fits : Fits (.new plainNode) v := by
    rw [isV]
    decide +kernel
  have fits' : Fits ((Dataplane.new plainNode).upserted calm v) w := by
    rw [isV, isW]
    decide +kernel
  obtain ⟨owned, plane⟩ := run_two_upserts fits fits'
  obtain ⟨n, isN⟩ : ∃ n, n = (Node.start plainNode plainMaps).run
    (calmly [.upsertVIP v, .upsertVIP w]) := ⟨_, rfl⟩
  rw [← isN] at owned plane
  -- After both, the second VIP stands under its own key, and the reload drops it alone.
  have facts : (planReload (((Dataplane.new plainNode).upserted calm v).upserted calm w).currentSpecs
        [v]).removes = [vipKeyString w] ∧
      (planReload (((Dataplane.new plainNode).upserted calm v).upserted calm w).currentSpecs
        [v]).upserts = [] ∧
      ((((Dataplane.new plainNode).upserted calm v).upserted calm w).services.get?
        (vipKeyString w)).map ServiceEntry.vip = some w ∧
      (((Dataplane.new plainNode).upserted calm v).upserted calm w).services.contains
        (vipKeyString v) = true := by
    rw [isV, isW]
    decide +kernel
  rw [← plane] at facts
  obtain ⟨removes, upserts, entry, present⟩ := facts
  obtain ⟨e, found, vip⟩ := Option.map_eq_some_iff.mp entry
  obtain ⟨ip, parsed⟩ : ∃ ip, parseIP w.address = some ip :=
    Option.isSome_iff_exists.mp (by rw [isW]; decide +kernel)
  have single : w.isRange = false := by rw [isW]; rfl
  obtain ⟨gone, others⟩ := reload_removes_one owned calm_reliable removes upserts found
    (vip.symm ▸ single) (vip.symm ▸ parsed)
  have sameAddress : parseIP v.address = parseIP w.address := by
    rw [isV, isW]
    decide +kernel
  have sameKey : vipKey ip v = vipKey ip w := by
    rw [isV, isW]
    rfl
  have differ : vipKeyString v ≠ vipKeyString w := by
    rw [isV, isW]
    decide +kernel
  refine ⟨v, w, fun same => differ (congrArg vipKeyString same), passes, ip, vipKey ip v,
    sameAddress.trans parsed, ?_, n.step (.op (.reloadVIPs [v]) calm), ?_, ?_, ?_⟩
  · rw [isV]
    rfl
  · rw [isN]
    exact (Node.run_calmly_snoc _ [.upsertVIP v, .upsertVIP w] _).symm
  · rw [FMap.contains, others (vipKeyString v) differ]
    exact present
  · rw [vip] at gone
    rw [sameKey]
    exact gone

end Rivora

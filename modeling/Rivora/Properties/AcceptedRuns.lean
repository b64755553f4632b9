import Rivora.Properties.AcceptedKeys

/-! Whether the VIPs of an accepted configuration can be programmed. -/

namespace Rivora

/--
What a VIP needs beyond the check: hardware addresses that parse, and weights its table has room for.

Of the backends of one name only the last is programmed.
-/
structure VIP.Suitable (v : VIP) : Prop where
  macs : v.mode = .nat → ∀ b ∈ v.backends, (desiredBackends v).get? (backendName b) = some b → b.mac ≠ "" →
    (parseMAC b.mac).isSome = true
  weight : ((vipMembers v).map fun m => Maglev.normalizeWeight m.weight).sum <
    maglevClassFor (desiredBackends v).size

instance (v : VIP) : Decidable v.Suitable :=
  decidable_of_iff
    ((v.mode = .nat → ∀ b ∈ v.backends, (desiredBackends v).get? (backendName b) = some b → b.mac ≠ "" →
      (parseMAC b.mac).isSome = true) ∧
      ((vipMembers v).map fun m => Maglev.normalizeWeight m.weight).sum <
        maglevClassFor (desiredBackends v).size)
    ⟨fun ⟨macs, weight⟩ => ⟨macs, weight⟩, fun ⟨macs, weight⟩ => ⟨macs, weight⟩⟩

/-- A node has the outer source address that a tunnel VIP's family needs. -/
def NodeConfig.HasSource (node : NodeConfig) (v : VIP) : Prop :=
  v.mode.isTunnel = true →
    if ((parseIP v.address).bind IP.to4).isSome then node.tunnelSrc4.isSome = true
    else node.tunnelSrc6.isSome = true

/-- A datapath object with all its optional maps. -/
def Datapath.whole : Datapath := ⟨true, true, true, true, true⟩

/-- A state has a free service ID, backend IDs and a range of the table for a VIP. -/
structure Roomy (p : Dataplane) (v : VIP) : Prop where
  service : p.services.contains (vipKeyString v) = true ∨ p.serviceAlloc.ids.size < maxVIPs
  backends : p.backendAlloc.ids.size + (desiredBackends v).size ≤ maxBackends
  range : p.NeedsRange v → ∃ e ∈ p.maglevAlloc.free, maglevClassFor (desiredBackends v).size ≤ e.size

instance (p : Dataplane) (v : VIP) : Decidable (Roomy p v) :=
  decidable_of_iff
    ((p.services.contains (vipKeyString v) = true ∨ p.serviceAlloc.ids.size < maxVIPs) ∧
      p.backendAlloc.ids.size + (desiredBackends v).size ≤ maxBackends ∧
      (p.NeedsRange v → ∃ e ∈ p.maglevAlloc.free, maglevClassFor (desiredBackends v).size ≤ e.size))
    ⟨fun ⟨service, backends, range⟩ => ⟨service, backends, range⟩,
      fun ⟨service, backends, range⟩ => ⟨service, backends, range⟩⟩

/-- An upsert of a VIP from a list, of which no write fails, in a state with room for it. -/
def UpsertsWithRoom (vips : List VIP) (n : Node) : Event → Prop
  | .op (.upsertVIP v) env => v ∈ vips ∧ env.Reliable ∧ Roomy n.plane v
  | _ => False

/-- An operation returns without an error. -/
def Returns (n : Node) : Event → Prop
  | .op op env => op.Succeeds env n.plane
  | .packet _ _ => True

section Fits

variable {v : VIP}

theorem overrideWeights_empty (v : VIP) : v.overrideWeights FMap.empty = v := by
  -- No backend is found among the overrides, so each keeps its own weight.
  have backends : (v.overrideWeights FMap.empty).backends = v.backends := List.map_id v.backends
  calc v.overrideWeights FMap.empty
    _ = { v with backends := (v.overrideWeights FMap.empty).backends } := rfl
    _ = v := by rw [backends]

theorem VIP.Checked.describable (checked : v.Checked) (suitable : v.Suitable) :
    ∀ b ∈ v.backends, (desiredBackends v).get? (backendName b) = some b → b.Describable := by
  intro b member last
  refine ⟨checked.reachable b member, fun named => ?_⟩
  -- The mode decides which rule about hardware addresses the check has applied.
  cases mode : v.mode with
  | unset =>
    have valid := checked.mode
    rw [mode] at valid
    cases valid
  | dsr => exact checked.dsr mode b member
  | nat => exact suitable.macs mode b member last named
  | dsrIPIP => exact absurd (checked.tunnel (by rw [mode]; rfl) b member) named
  | dsrGRE => exact absurd (checked.tunnel (by rw [mode]; rfl) b member) named

theorem checkTunnelReady_of_source {node : NodeConfig} {p : Dataplane} (source : node.HasSource v)
    (whole : p.dp = .whole) (src4 : p.tunnelSrc4 = node.tunnelSrc4)
    (src6 : p.tunnelSrc6 = node.tunnelSrc6) : p.checkTunnelReady v = .ok () := by
  unfold Dataplane.checkTunnelReady
  cases tunnel : v.mode.isTunnel with
  | false => rfl
  | true =>
    have available := source tunnel
    rw [whole, src4, src6]
    simp only [Datapath.whole, Bool.not_true, Bool.false_eq_true, if_false]
    split at available
    · rename_i v4
      rw [if_pos v4, if_neg (by rw [Option.isNone_eq_false_iff.mpr available]; decide)]
    · rename_i v6
      rw [if_neg v6, if_neg (by rw [Option.isNone_eq_false_iff.mpr available]; decide)]

/-- A suitable VIP fits wherever there is room. -/
theorem VIP.Checked.fits (checked : v.Checked) (suitable : v.Suitable) {node : NodeConfig}
    {p : Dataplane} (source : node.HasSource v) (whole : p.dp = .whole)
    (src4 : p.tunnelSrc4 = node.tunnelSrc4) (src6 : p.tunnelSrc6 = node.tunnelSrc6)
    (plain : p.overrides (vipKeyString v) = FMap.empty) (roomy : Roomy p v) : Fits p v := by
  have effective : p.effective v = v := by
    rw [Dataplane.effective, plain, overrideWeights_empty]
  have wanted : p.wanted v = desiredBackends v := by rw [Dataplane.wanted, effective]
  exact {
    tunnel := by rw [checkTunnelReady_of_source source whole src4 src6]; rfl
    service := roomy.service
    describable := by
      rw [wanted, effective]
      exact checked.describable suitable
    room := by rw [wanted]; exact roomy.backends
    some_backend := checked.backends
    weight := by
      -- The table is the one of the VIP's class, or a larger one it has already.
      rw [effective]
      refine Nat.lt_of_lt_of_le suitable.weight ?_
      unfold Dataplane.tableSize
      split
      · rw [Dataplane.wantedClass, wanted]
      · rename_i enough
        have large := fun outgrown => enough (Or.inr outgrown)
        rw [Dataplane.wantedClass, wanted] at large
        exact Nat.le_of_not_gt large
    range := by
      rw [Dataplane.wantedClass, wanted]
      exact roomy.range
    address := checked.address
    limit := Or.inl (by rw [whole]; rfl)
    ports := by
      intro _
      have every : ∀ ip, p.hasRangeMap ip = true := by
        intro ip
        rw [Dataplane.hasRangeMap, whole]
        split <;> rfl
      cases parseIP v.address with
      | none => rfl
      | some ip => exact every ip }

end Fits

section Runs

/-- What holds of a node that has only programmed VIPs since it started. -/
structure Fresh (config : NodeConfig) (n : Node) : Prop where
  owned : Owned (fun _ => 0) n.plane
  dp : n.plane.dp = config.dp
  src4 : n.plane.tunnelSrc4 = config.tunnelSrc4
  src6 : n.plane.tunnelSrc6 = config.tunnelSrc6
  /-- No operator has changed a weight. -/
  plain : ∀ k, n.plane.overrides k = FMap.empty

theorem fresh_start (config : NodeConfig) (maps : StartMaps) : Fresh config (Node.start config maps) :=
  ⟨.new config, rfl, rfl, rfl, fun _ => rfl⟩

theorem Fresh.upsert {config : NodeConfig} {n : Node} (fresh : Fresh config n) {v : VIP} {env : Env}
    (succeeds : (Op.upsertVIP v).Succeeds env n.plane) :
    Fresh config (n.step (.op (.upsertVIP v) env)) := by
  obtain ⟨f, ip, ws, ws', up, _⟩ := Node.step_upsert fresh.owned succeeds
  have rest := up.rest
  refine ⟨up.owned, ?_, ?_, ?_, fun k => ?_⟩
  · rw [rest]
    exact fresh.dp
  · rw [rest]
    exact fresh.src4
  · rw [rest]
    exact fresh.src6
  · by_cases here : k = vipKeyString v
    · -- The VIP's own overrides are what was left of none.
      rw [here, Dataplane.overrides, up.entry]
      change f.weightOverrides = FMap.empty
      rw [up.overrides, fresh.plain]
      rfl
    · rw [Dataplane.overrides, up.others k here]
      exact fresh.plain k

/-- An entry is only written for a backend that can be described. -/
theorem describable_of_written {id : Nat} {b : Backend} {env : Env} {s s' : World}
    (run : writeBackendInfo id b env s = (.ok (), s')) : b.Describable := by
  unfold writeBackendInfo at run
  cases parsed : parseIP b.address with
  | none =>
    rw [parsed] at run
    cases run
  | some ip =>
    rw [parsed] at run
    refine ⟨by rw [parsed]; rfl, fun named => ?_⟩
    obtain ⟨mac, t, read, _⟩ := Effect.bind_eq_ok.mp run
    unfold backendMAC at read
    rw [if_pos named] at read
    cases mac : parseMAC b.mac with
    | none =>
      rw [mac] at read
      cases read
    | some _ => rfl

/-- A backend is described again with each upsert, whether or not it was known. -/
theorem describable_of_acquired {key name : String} {desired : FMap String Backend} {entry : ServiceEntry}
    {b : Backend} {env : Env} {s s' : World} (wanted : desired.get? name = some b)
    (run : acquireOrRefresh key desired entry name env s = (.ok (), s')) : b.Describable := by
  unfold acquireOrRefresh at run
  rw [wanted] at run
  cases known : entry.backendIDs.get? name with
  | some id =>
    rw [known] at run
    exact describable_of_written run
  | none =>
    rw [known] at run
    obtain ⟨id, t, acquired, _⟩ := Effect.bind_eq_ok.mp run
    obtain ⟨p, _, _, granted⟩ := Effect.bind_eq_ok.mp (Effect.mapError_eq_ok.mp acquired)
    rcases allocated : p.backendAlloc.alloc name with ⟨text | id, alloc⟩
    · simp only [allocated] at granted
      cases granted
    · simp only [allocated] at granted
      obtain ⟨_, _, _, described⟩ := Effect.bind_eq_ok.mp granted
      obtain ⟨_, _, written, _⟩ := Effect.bind_eq_ok.mp described
      exact describable_of_written written

/-- A VIP that was programmed had only backends that can be described. -/
theorem describable_of_upsert {leak : String → Nat} {env : Env} {s s' : World} (owned : Owned leak s.plane)
    (run : upsertVIP v env s = (.ok (), s')) {name : String} {b : Backend}
    (wanted : (s.plane.wanted v).get? name = some b) : b.Describable := by
  obtain ⟨p, _, read, later⟩ := Effect.bind_eq_ok.mp run
  cases read
  obtain ⟨held, _, entered, later⟩ := Effect.bind_eq_ok.mp later
  obtain ⟨_, _, settled, _⟩ := Effect.bind_eq_ok.mp later
  have effective : v.overrideWeights held.weightOverrides = s.plane.effective v := by
    rcases enterService_run v env owned.services with ⟨err, refused, _⟩ | ⟨held', _, _, _, entered', same, _⟩
    · cases refused.symm.trans entered
    · cases entered'.symm.trans entered
      rw [same]
      rfl
  -- The loop over the wanted backends comes after the release of the others.
  obtain ⟨_, _, _, acquires⟩ := Effect.bind_eq_ok.mp settled
  obtain ⟨_, _, acquires, _⟩ := Effect.bind_eq_ok.mp acquires
  obtain ⟨entry, s₁, _, acquires⟩ := Effect.bind_eq_ok.mp acquires
  obtain ⟨names, _, walked, acquires⟩ := Effect.bind_eq_ok.mp acquires
  obtain ⟨_, _, acquires, _⟩ := Effect.bind_eq_ok.mp acquires
  cases walked
  rw [effective] at acquires
  have visited : name ∈ env.order s₁.clock (s.plane.wanted v).keys :=
    (env.order_perm _ _).mem_iff.mpr (FMap.mem_keys.mpr ⟨b, wanted⟩)
  obtain ⟨_, _, acquired⟩ := Effect.forEach_eq_ok acquires name visited
  exact describable_of_acquired wanted acquired

/-- A VIP without an entry that was programmed has room for its weights in the table of its class. -/
theorem weight_of_upsert {leak : String → Nat} {env : Env} {p q : Dataplane} {f : ServiceEntry} {ip : IP}
    {ws ws' : List MapWrite} (up : Upserted leak env v p q f ip ws ws')
    (absent : p.services.get? (vipKeyString v) = none) :
    ((vipMembers f.vip).map fun m => Maglev.normalizeWeight m.weight).sum <
      maglevClassFor (desiredBackends f.vip).size := by
  have table := up.table
  cases table with
  | inPlace existed => cases absent.symm.trans existed
  | kept existed => cases absent.symm.trans existed
  | moved _ size _ built =>
    rw [size] at built
    exact (Maglev.buildTableWith_ok (prime_of_class (maglevClassFor_mem _)) built).2.1

end Runs

/-- What holds of a node that has programmed VIPs of a configuration without an error. -/
structure Programs (c : Config) (config : NodeConfig) (n : Node) : Prop extends Fresh config n where
  suitable : ∀ v ∈ c.specs, n.plane.services.contains (vipKeyString v) = true → v.Suitable

/-- A step that programs a VIP shows that the VIP is suitable. -/
theorem Programs.upsert {c : Config} (accepted : c.Accepted) {config : NodeConfig} {n : Node} {v : VIP}
    {env : Env} (programs : Programs c config n) (listed : v ∈ c.specs)
    (succeeds : (Op.upsertVIP v).Succeeds env n.plane) :
    v.Suitable ∧ Programs c config (n.step (.op (.upsertVIP v) env)) := by
  obtain ⟨f, ip, ws, ws', up, _⟩ := Node.step_upsert programs.owned succeeds
  have effective : n.plane.effective v = v := by
    rw [Dataplane.effective, programs.plain, overrideWeights_empty]
  have suitable : v.Suitable := by
    cases known : n.plane.services.get? (vipKeyString v) with
    | some e => exact programs.suitable v listed (by rw [FMap.contains, known]; rfl)
    | none =>
      -- A VIP that had no entry got a table of its class.
      have weight := weight_of_upsert up known
      rw [up.vip, effective] at weight
      refine ⟨fun _ b _ last named => ?_, weight⟩
      have run : upsertVIP v env ⟨n.plane, [], 0⟩ = (.ok (), (upsertVIP v env ⟨n.plane, [], 0⟩).2) :=
        Prod.ext succeeds rfl
      have wanted : (n.plane.wanted v).get? (backendName b) = some b := by
        rw [Dataplane.wanted, effective]
        exact last
      exact (describable_of_upsert programs.owned run wanted).2 named
  refine ⟨suitable, programs.toFresh.upsert succeeds, fun w other present => ?_⟩
  by_cases here : vipKeyString w = vipKeyString v
  · -- No other VIP of the configuration has the key.
    have distinct : (c.specs.map vipKeyString).Nodup := List.pairwise_map.mpr accepted.keys
    exact List.inj_on_of_nodup_map distinct other listed here ▸ suitable
  · rw [FMap.contains, up.others _ here] at present
    exact programs.suitable w other present

/--
Every VIP of an accepted configuration is programmed, in any order, as long as there is room, exactly when
the VIPs that are programmed are suitable.
-/
theorem accepted_vips_are_programmed {c : Config} (passes : c.validate = .ok ()) {config : NodeConfig}
    (whole : config.dp = .whole) (sources : ∀ v ∈ c.specs, config.HasSource v) {maps : StartMaps}
    {events : List Event}
    (room : Run.Along Node.step (UpsertsWithRoom c.specs) (Node.start config maps) events) :
    Run.Along Node.step Returns (Node.start config maps) events ↔
      ∀ v env, Event.op (.upsertVIP v) env ∈ events → v.Suitable := by
  have accepted := Config.accepted passes
  constructor
  · intro returns
    -- One step: what returns without an error programs a suitable VIP.
    have step : ∀ {n e}, Programs c config n → UpsertsWithRoom c.specs n e ∧ Returns n e →
        (∀ v env, e = .op (.upsertVIP v) env → v.Suitable) ∧ Programs c config (n.step e) := by
      intro n e programs ⟨upserts, returns⟩
      match e, upserts with
      | .op (.upsertVIP v) env, ⟨listed, _, _⟩ =>
        obtain ⟨suitable, after⟩ := programs.upsert accepted listed returns
        refine ⟨fun v' env' same => ?_, after⟩
        cases same
        exact suitable
    have start : Programs c config (Node.start config maps) :=
      ⟨fresh_start config maps, fun v _ present => by cases present⟩
    have along : Run.Along Node.step (fun _ e => ∀ v env, e = .op (.upsertVIP v) env → v.Suitable)
        (Node.start config maps) events :=
      Run.along_of_invariant (P := Programs c config) (fun programs both => (step programs both).2)
        (fun programs both => (step programs both).1) start (room.and returns)
    exact fun v env member => Run.forall_of_along along _ member v env rfl
  · intro suitable
    -- One step: the VIP fits, so it is programmed, and the node stays as it was otherwise.
    have step : ∀ {n e}, Fresh config n →
        UpsertsWithRoom c.specs n e ∧ (∀ v env, e = .op (.upsertVIP v) env → v.Suitable) →
        Returns n e ∧ Fresh config (n.step e) := by
      intro n e fresh ⟨upserts, suitable⟩
      match e, upserts with
      | .op (.upsertVIP v) env, ⟨listed, reliable, roomy⟩ =>
        have fits := (accepted.each v listed).fits (suitable v env rfl) (sources v listed)
          (fresh.dp.trans whole) fresh.src4 fresh.src6 (fresh.plain _) roomy
        obtain ⟨succeeds, _, _⟩ := Node.upsert_fits fresh.owned fits reliable
        exact ⟨succeeds, fresh.upsert succeeds⟩
    refine Run.along_of_invariant (P := Fresh config) (fun fresh upserts => (step fresh upserts).2)
      (fun fresh upserts => (step fresh upserts).1) (fresh_start config maps) (room.and ?_)
    refine Run.along_of_forall (fun e member v env same => ?_) _
    exact suitable v env (same ▸ member)

/-- A translating VIP with weights and a DSR VIP with a hardware address. -/
theorem accepted_vips_are_programmed_of_two_modes :
    ∃ v w : VIP, v.mode = .nat ∧ w.mode = .dsr ∧ (plainConfig [v, w]).validate = .ok () ∧
      Run.Along Node.step (UpsertsWithRoom [v, w]) (Node.start plainNode plainMaps)
        (calmly [.upsertVIP v, .upsertVIP w]) ∧
      Run.Along Node.step Returns (Node.start plainNode plainMaps)
        (calmly [.upsertVIP v, .upsertVIP w]) := by
  obtain ⟨v, isV⟩ : ∃ v, v = { plainVIP "10.0.0.1" [] with
    backends := [⟨"10.0.1.1", 8080, "", 3⟩, ⟨"10.0.1.2", 8080, "", 1⟩] } := ⟨_, rfl⟩
  obtain ⟨w, isW⟩ : ∃ w, w = { plainVIP "10.0.0.2" [] with
    mode := .dsr, backends := [⟨"10.0.1.3", 80, "02:00:00:00:00:01", 0⟩] } := ⟨_, rfl⟩
  have facts : (plainConfig [v, w]).validate = .ok () ∧ (∀ u ∈ [v, w], u.Suitable) ∧
      v.mode = .nat ∧ w.mode = .dsr := by
    rw [isV, isW]
    decide +kernel
  obtain ⟨passes, suitable, nat, dsr⟩ := facts
  have roomy : Fits (.new plainNode) v ∧ Roomy (.new plainNode) v ∧
      Roomy ((Dataplane.new plainNode).upserted calm v) w := by
    rw [isV, isW]
    decide +kernel
  obtain ⟨fits, first, second⟩ := roomy
  obtain ⟨_, _, plane⟩ := Node.upsert_fits (n := Node.start plainNode plainMaps) (.new plainNode) fits
    calm_reliable
  have start : (Node.start plainNode plainMaps).plane = .new plainNode := rfl
  rw [start] at plane
  have sources : ∀ u ∈ (plainConfig [v, w]).specs, plainNode.HasSource u := by
    have listed : (plainConfig [v, w]).specs = [v, w] := rfl
    rw [listed, List.forall_mem_cons, List.forall_mem_singleton]
    refine ⟨fun tunnel => ?_, fun tunnel => ?_⟩
    · rw [nat] at tunnel
      cases tunnel
    · rw [dsr] at tunnel
      cases tunnel
  have room : Run.Along Node.step (UpsertsWithRoom [v, w]) (Node.start plainNode plainMaps)
      (calmly [.upsertVIP v, .upsertVIP w]) := by
    have pair : ∀ {n : Node} {a b}, UpsertsWithRoom [v, w] n a → UpsertsWithRoom [v, w] (n.step a) b →
        Run.Along Node.step (UpsertsWithRoom [v, w]) n [a, b] := fun now then_ => ⟨now, then_, trivial⟩
    have roomy : Roomy ((Node.start plainNode plainMaps).step (.op (.upsertVIP v) calm)).plane w := by
      rw [plane]
      exact second
    exact pair ⟨List.mem_cons_self, calm_reliable, first⟩
      ⟨List.mem_cons_of_mem _ List.mem_cons_self, calm_reliable, roomy⟩
  refine ⟨v, w, nat, dsr, passes, room, (accepted_vips_are_programmed passes rfl sources room).mpr ?_⟩
  intro u env member
  obtain ⟨op, listed, same⟩ := List.mem_map.mp member
  cases same
  exact suitable u (by simpa using listed)

/-- The check accepts a hardware address that does not parse and a weight no table has room for. -/
theorem accepted_vips_cannot_be_programmed :
    (∃ v : VIP, (plainConfig [v]).validate = .ok () ∧ Roomy (.new plainNode) v ∧
      (∃ b ∈ v.backends, b.mac = "none") ∧
      ¬ (Op.upsertVIP v).Succeeds calm (.new plainNode)) ∧
    ∃ v : VIP, (plainConfig [v]).validate = .ok () ∧ Roomy (.new plainNode) v ∧
      (∃ b ∈ v.backends, b.weight = 1031) ∧ ¬ (Op.upsertVIP v).Succeeds calm (.new plainNode) := by
  have failing : ∀ {v : VIP}, succeeded ((Op.upsertVIP v).outcome calm (.new plainNode)).1 = false →
      ¬ (Op.upsertVIP v).Succeeds calm (.new plainNode) := by
    intro v fails succeeds
    rw [Op.Succeeds] at succeeds
    rw [succeeds] at fails
    cases fails
  have unparsed : (plainConfig [{ plainVIP "10.0.0.1" [] with
        backends := [⟨"10.0.1.1", 8080, "none", 0⟩] }]).validate = .ok () ∧
      Roomy (.new plainNode) { plainVIP "10.0.0.1" [] with
        backends := [⟨"10.0.1.1", 8080, "none", 0⟩] } ∧
      succeeded ((Op.upsertVIP { plainVIP "10.0.0.1" [] with
        backends := [⟨"10.0.1.1", 8080, "none", 0⟩] }).outcome calm (.new plainNode)).1 = false := by
    decide +kernel
  have heavy : (plainConfig [{ plainVIP "10.0.0.1" [] with
        backends := [⟨"10.0.1.1", 8080, "", 1031⟩] }]).validate = .ok () ∧
      Roomy (.new plainNode) { plainVIP "10.0.0.1" [] with
        backends := [⟨"10.0.1.1", 8080, "", 1031⟩] } ∧
      succeeded ((Op.upsertVIP { plainVIP "10.0.0.1" [] with
        backends := [⟨"10.0.1.1", 8080, "", 1031⟩] }).outcome calm (.new plainNode)).1 = false := by
    decide +kernel
  exact ⟨⟨_, unparsed.1, unparsed.2.1, ⟨_, List.mem_cons_self, rfl⟩, failing unparsed.2.2⟩,
    ⟨_, heavy.1, heavy.2.1, ⟨_, List.mem_cons_self, rfl⟩, failing heavy.2.2⟩⟩

end Rivora

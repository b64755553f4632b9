import Rivora.Proofs.Serving

/-! One VIP's own SYN limit, whatever else happens on the node. -/

namespace Rivora

variable {env : Env} {q : Dataplane} {sid : Nat} {m : Maps}

/-- What happens to one VIP, as far as its limit is concerned. -/
inductive LimiterEvent where
  | added (limit : VIPRateLimit)
  | removed
  | syn (now : UInt64) (source : Addr)
  deriving DecidableEq

/-- The limit of a VIP, if it has one, and the bucket of each source. -/
abbrev Meter := Option (RLConfig × FMap Addr RLBucket)

/-- The meter after an event, and whether it let the event through. -/
def Meter.step (numCPU : UInt64) (s : Meter) : LimiterEvent → Meter × Bool
  | .added limit =>
    -- A VIP that is new starts with full buckets, one that is updated keeps those it has.
    (some (rateLimitEntry numCPU limit, (s.map Prod.snd).getD FMap.empty), true)
  | .removed => (none, true)
  | .syn now source =>
    match s with
    | none => (none, true)
    | some (cfg, buckets) =>
      let (exceeded, bucket) := rlTake cfg (buckets.get? source) now
      (some (cfg, buckets.insert source bucket), !exceeded)

/-- What the meter lets through of a sequence of events. -/
def Meter.verdicts (numCPU : UInt64) : Meter → List LimiterEvent → List Bool
  | _, [] => []
  | s, e :: rest => (s.step numCPU e).2 :: verdicts numCPU (s.step numCPU e).1 rest

/-- Whether a packet is a SYN that leads to a service. -/
def synTo (m : Maps) (sid : Nat) (pkt : Packet) : Bool :=
  match pkt.body with
  | .segment l4 _ =>
    l4.transport.isSyn && m.service pkt.ends.daddr l4.dport l4.transport.proto = some sid
  | _ => false

/-- What an event is to one VIP, if it concerns that VIP, and whether the limiter lets it through. -/
def Node.observe (key : String) (n : Node) : Event → Option (LimiterEvent × Bool)
  | .op (.upsertVIP spec) _ =>
    if vipKeyString spec = key then some (.added spec.rateLimit, true) else none
  | .op (.removeVIP k) _ => if k = key then some (.removed, true) else none
  | .op _ _ => none
  | .packet ctx pkt =>
    (n.plane.services.get? key).bind fun e =>
      if synTo n.maps e.serviceID pkt then
        some (.syn ctx.now pkt.ends.saddr,
          !(rateLimitExceeded n.maps ctx e.serviceID pkt.ends.saddr).1)
      else none

/-- Everything a run does to one VIP, with what the limiter lets through. -/
def Node.observed (key : String) : Node → List Event → List (LimiterEvent × Bool)
  | _, [] => []
  | n, e :: rest => (n.observe key e).toList ++ Node.observed key (n.step e) rest

/-- An addition, a removal, or a packet on one CPU; the VIP in question always has its own limit. -/
def LimiterStep (key : String) (cpu : Nat) (n : Node) : Event → Prop
  | .op (.upsertVIP spec) env => env.Reliable ∧ (Op.upsertVIP spec).Succeeds env n.plane ∧
    (vipKeyString spec = key → spec.rateLimit.set = true)
  | .op (.removeVIP _) env => env.Reliable
  | .op _ _ => False
  | .packet ctx _ => ctx.cpu = cpu

/-- Where a VIP is added anew, no bucket is left under a service ID that nobody has. -/
def FreshBuckets (key : String) (n : Node) : Event → Prop
  | .op (.upsertVIP spec) _ => vipKeyString spec = key → n.plane.services.get? key = none →
    ∀ sid, (∀ k e, n.plane.services.get? k = some e → e.serviceID ≠ sid) →
      ∀ cpu source, n.maps.flow.svcRlBuckets.get? (cpu, sid, source) = none
  | _ => True

/-- The node's limiter stands where a meter for one VIP stands. -/
structure Meters (key : String) (cpu : Nat) (numCPU : UInt64) (n : Node) (s : Meter) : Prop where
  owned : Owned (fun _ => 0) n.plane
  cpus : n.plane.numCPU = numCPU
  absent : n.plane.services.get? key = none → s = none
  present : ∀ {e}, n.plane.services.get? key = some e → ∃ cfg buckets, s = some (cfg, buckets) ∧
    cfg.enabled = true ∧ n.maps.svcRlConfig e.serviceID = cfg ∧
    ∀ source, buckets.get? source = n.maps.flow.svcRlBuckets.get? (cpu, e.serviceID, source)

theorem rateLimitEntry_enabled {numCPU : UInt64} {rl : VIPRateLimit} (set : rl.set = true) :
    (rateLimitEntry numCPU rl).enabled = true := by
  rw [rateLimitEntry, if_pos set]
  rfl

theorem replay_svcRlBuckets (ws : List MapWrite) (m : Maps) :
    (replay ws m).flow.svcRlBuckets = m.flow.svcRlBuckets := by
  obtain ⟨drops, flow⟩ := replay_flow ws m
  rw [flow]

theorem Upserted.limit_of_ne {leak : String → Nat} {spec : VIP} {p : Dataplane}
    {f : ServiceEntry} {ip : IP} {ws ws' : List MapWrite}
    (up : Upserted leak env spec p q f ip ws ws') (m : Maps) (other : sid ≠ f.serviceID) :
    (replay (upsertWrites p f ip ws ws') m).svcRlConfig sid = m.svcRlConfig sid := by
  refine replay_agree (c := .limit sid) ?_ m
  -- The kinds of write an upsert makes name limits in one way only.
  intro w member same
  cases up.kind member with
  | drops => cases same
  | config => cases same
  | backend cell => rw [cell] at same; cases same
  | health cell => rw [cell] at same; cases same
  | slot _ _ cell => rw [cell] at same; cases same
  | limit _ cell =>
    rw [cell] at same
    cases same
    exact other rfl
  | key _ listed => rcases vipCells_kind listed with ⟨_, this⟩ | ⟨_, this⟩ <;> rw [this] at same <;> cases same

theorem Removed.limit_of_ne {leak : String → Nat} {key : String} {entry : ServiceEntry}
    {p : Dataplane} {ws₁ ws₂ : List MapWrite} (removed : Removed leak env key entry p q ws₁ ws₂)
    (m : Maps) (other : sid ≠ entry.serviceID) :
    (replay (ws₁ ++ ws₂) m).svcRlConfig sid = m.svcRlConfig sid := by
  refine replay_agree (c := .limit sid) ?_ m
  intro w member same
  rcases List.mem_append.mp member with released | cleared
  · rcases (removed.released w released).cell with ⟨_, cell⟩ | ⟨_, cell⟩ <;>
      rw [cell] at same <;> cases same
  · rcases (removed.kinds w cleared).cell with ⟨ip, _, cell⟩ | cell | cell | cell
    · rcases vipCells_kind cell with ⟨_, this⟩ | ⟨_, this⟩ <;> rw [this] at same <;> cases same
    · rw [cell] at same; cases same
    · rw [cell] at same
      cases same
      exact other rfl
    · rw [cell] at same; cases same

theorem SegmentEnds.svcRlBuckets {ctx : Context} {pkt : Packet} {l4 : L4}
    {firstOf : Option UInt32} {outcome : Verdict × Flow}
    (ends : SegmentEnds m ctx pkt l4 firstOf outcome) :
    (∃ sid, m.service pkt.ends.daddr l4.dport l4.transport.proto = some sid ∧
      outcome.2.svcRlBuckets = (limiter m ctx pkt l4 sid).2.svcRlBuckets) ∨
    (m.service pkt.ends.daddr l4.dport l4.transport.proto = none ∧
      outcome.2.svcRlBuckets = m.flow.svcRlBuckets) := by
  cases ends with
  | unmatched none => exact Or.inr ⟨none, rfl⟩
  | limited matched => exact Or.inl ⟨_, matched, by simp⟩
  | unserved matched => exact Or.inl ⟨_, matched, by simp⟩
  | noBackend matched => exact Or.inl ⟨_, matched, by simp⟩
  | unknown matched _ _ chosen => exact Or.inl ⟨_, matched, by rw [chosen.flow]; simp⟩
  | @delivered sid id cfg f be outcome matched _ _ chosen _ handed =>
    refine Or.inl ⟨sid, matched, ?_⟩
    have before : (rememberFragment pkt.ends l4 firstOf ⟨id, sid⟩
        (countDelivered pkt id f)).svcRlBuckets = (limiter m ctx pkt l4 sid).2.svcRlBuckets := by
      rw [rememberFragment_eq, countDelivered_eq, chosen.flow]
    cases handed with
    | translated => exact before
    | direct _ sent => rw [sent.flow]; exact before

/-- A packet changes buckets only if it is a SYN to a service. -/
theorem receive_svcRlBuckets (m : Maps) (ctx : Context) (pkt : Packet) :
    (∃ sid, synTo m sid pkt = true ∧ (m.receive ctx pkt).flow.svcRlBuckets =
      (rateLimitExceeded m ctx sid pkt.ends.saddr).2.svcRlBuckets) ∨
    ((∀ sid, synTo m sid pkt = false) ∧
      (m.receive ctx pkt).flow.svcRlBuckets = m.flow.svcRlBuckets) := by
  have followed : ∀ {cfg sid id be outcome}, FollowEnds m ctx pkt cfg sid id be outcome →
      outcome.2.svcRlBuckets = m.flow.svcRlBuckets := by
    intro cfg sid id be outcome ends
    have counted : (countDelivered pkt id m.flow).svcRlBuckets = m.flow.svcRlBuckets := by
      rw [countDelivered_eq]
    cases ends with
    | translated => exact counted
    | direct _ sent => rw [sent.flow]; exact counted
  have ends := ingress_ends m ctx pkt
  unfold Maps.receive synTo
  generalize ingress m ctx pkt = outcome at ends ⊢
  cases ends with
  | other body => exact Or.inr ⟨fun _ => by rw [body], rfl⟩
  | @segment l4 firstOf _ body ends =>
    simp only [body]
    rcases ends.svcRlBuckets with ⟨sid, matched, buckets⟩ | ⟨none, same⟩
    · -- A packet that is no SYN passes the limiter by.
      unfold limiter at buckets
      cases syn : l4.transport.isSyn with
      | true =>
        rw [syn, if_pos rfl] at buckets
        exact Or.inl ⟨sid, by simp [matched], buckets⟩
      | false =>
        rw [syn, if_neg Bool.false_ne_true] at buckets
        exact Or.inr ⟨fun _ => by simp, buckets⟩
    · exact Or.inr ⟨fun _ => by simp [none], same⟩
  | later body ends =>
    refine Or.inr ⟨fun _ => by rw [body], ?_⟩
    cases ends with
    | passed => rfl
    | dead => exact Flow.bumpStats_svcRlBuckets _ _ _ _
    | followed _ _ _ _ ends => exact followed ends
  | icmp body ends =>
    refine Or.inr ⟨fun _ => by rw [body], ?_⟩
    cases ends with
    | passed => rfl
    | followed _ _ _ _ _ ends => exact followed ends

/-- A SYN is for one VIP. -/
theorem synTo_unique {sid' : Nat} {pkt : Packet} (first : synTo m sid pkt = true)
    (second : synTo m sid' pkt = true) : sid' = sid := by
  unfold synTo at first second
  cases body : pkt.body with
  | segment l4 firstOf =>
    simp only [body, Bool.and_eq_true, decide_eq_true_eq] at first second
    exact Option.some.inj (second.2.symm.trans first.2)
  | _ => simp [body] at first

section

variable {key : String} {cpu : Nat} {numCPU : UInt64} {n : Node} {s : Meter}

/-- What does not touch the VIP's limit keeps the meter. -/
theorem Meters.frame (meters : Meters key cpu numCPU n s) {n' : Node}
    (owned : Owned (fun _ => 0) n'.plane) (cpus : n'.plane.numCPU = n.plane.numCPU)
    (entry : (n'.plane.services.get? key).map ServiceEntry.serviceID =
      (n.plane.services.get? key).map ServiceEntry.serviceID)
    (limit : ∀ e, n.plane.services.get? key = some e →
      n'.maps.svcRlConfig e.serviceID = n.maps.svcRlConfig e.serviceID)
    (buckets : ∀ e source, n.plane.services.get? key = some e →
      n'.maps.flow.svcRlBuckets.get? (cpu, e.serviceID, source) =
        n.maps.flow.svcRlBuckets.get? (cpu, e.serviceID, source)) :
    Meters key cpu numCPU n' s := by
  refine ⟨owned, cpus.trans meters.cpus, ?_, ?_⟩
  · intro absent
    rw [absent] at entry
    exact meters.absent (Option.map_eq_none_iff.mp entry.symm)
  · intro e found
    rw [found] at entry
    obtain ⟨e₀, found₀, same⟩ := Option.map_eq_some_iff.mp entry.symm
    obtain ⟨cfg, stored, meter, enabled, config, hold⟩ := meters.present found₀
    refine ⟨cfg, stored, meter, enabled, ?_, fun source => ?_⟩
    · rw [← same, limit e₀ found₀, config]
    · rw [← same, buckets e₀ source found₀, hold source]

/-- Where the meter stands after an observation. -/
def Meter.after (numCPU : UInt64) (s : Meter) (seen : Option (LimiterEvent × Bool)) : Meter :=
  (seen.map fun o => (s.step numCPU o.1).1).getD s

/-- An upsert sets the meter up. -/
theorem Meters.upsert (meters : Meters key cpu numCPU n s) {spec : VIP}
    (succeeds : (Op.upsertVIP spec).Succeeds env n.plane)
    (own : vipKeyString spec = key → spec.rateLimit.set = true)
    (fresh : FreshBuckets key n (.op (.upsertVIP spec) env)) :
    Meters key cpu numCPU (n.step (.op (.upsertVIP spec) env))
      (s.after numCPU (n.observe key (.op (.upsertVIP spec) env))) := by
  obtain ⟨f, ip, ws, ws', up, maps⟩ := Node.step_upsert meters.owned succeeds
  generalize n.step (.op (.upsertVIP spec) env) = n' at up maps ⊢
  have cpus : n'.plane.numCPU = n.plane.numCPU := by rw [up.rest]
  have buckets : n'.maps.flow.svcRlBuckets = n.maps.flow.svcRlBuckets := by
    rw [maps, replay_svcRlBuckets]
  simp only [Node.observe]
  by_cases mine : vipKeyString spec = key
  · rw [if_pos mine]
    subst mine
    have set := own rfl
    have limit : n'.maps.svcRlConfig f.serviceID = rateLimitEntry numCPU spec.rateLimit := by
      have supported : n.plane.dp.svcRlConfig = true := by
        cases supported : n.plane.dp.svcRlConfig with
        | true => rfl
        | false =>
          have unset := up.able.limit supported
          rw [up.vip] at unset
          exact absurd (set.symm.trans unset) nofun
      have stored := up.holds n.maps (w := .setSvcRl f.serviceID (rateLimitEntry n.plane.numCPU f.vip.rateLimit))
        (Or.inr (Or.inr (Or.inl (by rw [limitWrites, if_pos supported]; exact List.mem_singleton_self _))))
      rw [maps, ← meters.cpus]
      rw [up.vip] at stored
      exact stored
    refine ⟨up.owned, cpus.trans meters.cpus, ?_, ?_⟩
    · intro absent
      rw [up.entry] at absent
      cases absent
    · intro e found
      cases up.entry.symm.trans found
      refine ⟨_, _, rfl, rateLimitEntry_enabled set, limit, fun source => ?_⟩
      rw [buckets]
      -- An updated VIP keeps its ID and its buckets; a new one finds none under its ID.
      cases before : n.plane.services.get? (vipKeyString spec) with
      | some e₀ =>
        obtain ⟨cfg, stored, rfl, _, _, hold⟩ := meters.present before
        rw [up.known before]
        exact hold source
      | none =>
        rw [meters.absent before, fresh rfl before f.serviceID (up.fresh before)]
        rfl
  · rw [if_neg mine]
    have others := up.others key (Ne.symm mine)
    refine meters.frame up.owned cpus (congrArg _ others) ?_ fun _ _ _ => by rw [buckets]
    intro e found
    have differ : e.serviceID ≠ f.serviceID := fun same =>
      mine (up.owned.services.key_unique up.entry (others.trans found) same.symm)
    rw [maps]
    exact up.limit_of_ne n.maps differ

/-- A removal takes it away. -/
theorem Meters.remove (meters : Meters key cpu numCPU n s) (k : String) (env : Env) :
    Meters key cpu numCPU (n.step (.op (.removeVIP k) env))
      (s.after numCPU (n.observe key (.op (.removeVIP k) env))) := by
  simp only [Node.observe]
  rcases Node.step_remove meters.owned k env with ⟨absent, same⟩ | ⟨entry, ws₁, ws₂, found, removed, maps⟩
  · rw [same]
    by_cases mine : k = key
    · rw [if_pos mine]
      have idle : s = none := meters.absent (mine ▸ absent)
      rw [idle] at meters ⊢
      exact meters
    · rw [if_neg mine]
      exact meters
  · generalize n.step (.op (.removeVIP k) env) = n' at removed maps ⊢
    have cpus : n'.plane.numCPU = n.plane.numCPU := by rw [removed.rest]
    by_cases mine : k = key
    · rw [if_pos mine]
      subst mine
      refine ⟨removed.owned, cpus.trans meters.cpus, fun _ => rfl, ?_⟩
      intro e still
      rw [removed.gone] at still
      cases still
    · rw [if_neg mine]
      have others := removed.others key (Ne.symm mine)
      refine meters.frame removed.owned cpus (congrArg _ others) ?_ fun _ _ _ => by
        rw [maps, replay_svcRlBuckets]
      intro e stored
      have differ : e.serviceID ≠ entry.serviceID := fun same =>
        mine (meters.owned.services.key_unique found stored same.symm)
      rw [maps]
      exact removed.limit_of_ne n.maps differ

/-- The VIP's own limiter takes from its bucket. -/
theorem rateLimitExceeded_own (inside : sid < maxVIPs)
    (enabled : (m.svcRlConfig sid).enabled = true) (ctx : Context) (saddr : Addr) :
    (rateLimitExceeded m ctx sid saddr).1 =
        (rlTake (m.svcRlConfig sid) (m.flow.svcRlBuckets.get? (ctx.cpu, sid, saddr)) ctx.now).1 ∧
      (rateLimitExceeded m ctx sid saddr).2.svcRlBuckets =
        m.flow.svcRlBuckets.insert (ctx.cpu, sid, saddr)
          (rlTake (m.svcRlConfig sid) (m.flow.svcRlBuckets.get? (ctx.cpu, sid, saddr)) ctx.now).2 := by
  have own : (m.svcRlConfig? sid).any RLConfig.enabled = true := by
    rw [Maps.svcRlConfig?, if_pos inside]
    exact enabled
  unfold rateLimitExceeded
  simp only [own, if_true]
  exact ⟨trivial, trivial⟩

/-- The buckets of other VIPs stay. -/
theorem rateLimitExceeded_others (m : Maps) (ctx : Context) {sid' : Nat} (saddr : Addr)
    (other : sid ≠ sid') (cpu : Nat) (source : Addr) :
    (rateLimitExceeded m ctx sid' saddr).2.svcRlBuckets.get? (cpu, sid, source) =
      m.flow.svcRlBuckets.get? (cpu, sid, source) := by
  unfold rateLimitExceeded
  dsimp only
  split
  · refine FMap.get?_insert_of_ne _ _ fun same => other ?_
    exact (Prod.mk.inj (Prod.mk.inj same).2).1
  · split <;> rfl

/-- A packet is let through as the meter has it. -/
theorem Meters.packet (meters : Meters key cpu numCPU n s) {ctx : Context} (here : ctx.cpu = cpu)
    (pkt : Packet) :
    Meters key cpu numCPU (n.step (.packet ctx pkt)) (s.after numCPU (n.observe key (.packet ctx pkt))) ∧
      ∀ o, n.observe key (.packet ctx pkt) = some o → (s.step numCPU o.1).2 = o.2 := by
  have kept : ∀ m', (m'.svcRlConfig = n.maps.svcRlConfig) →
      (∀ e source, n.plane.services.get? key = some e →
        m'.flow.svcRlBuckets.get? (cpu, e.serviceID, source) =
          n.maps.flow.svcRlBuckets.get? (cpu, e.serviceID, source)) →
      Meters key cpu numCPU { n with maps := m' } s := fun m' limits buckets =>
    meters.frame meters.owned rfl rfl (fun e _ => congrFun limits _) buckets
  -- The control state is untouched; what matters is which service the packet led to.
  simp only [Node.observe, Node.step]
  cases found : n.plane.services.get? key with
  | none =>
    refine ⟨?_, fun o seen => by cases seen⟩
    refine kept _ rfl fun e source stored => ?_
    rw [found] at stored
    cases stored
  | some e =>
    simp only [Option.bind_some]
    have inside := meters.owned.services.id_lt found
    cases syn : synTo n.maps e.serviceID pkt with
    | false =>
      simp only [Bool.false_eq_true, if_false]
      refine ⟨?_, fun o seen => by cases seen⟩
      refine kept _ rfl fun e' source stored => ?_
      cases found.symm.trans stored
      rcases receive_svcRlBuckets n.maps ctx pkt with ⟨sid, led, buckets⟩ | ⟨_, same⟩
      · -- The SYN led elsewhere, where it took a token of another service.
        rw [buckets]
        refine rateLimitExceeded_others _ _ _ (fun same => ?_) _ _
        rw [same, led] at syn
        cases syn
      · rw [same]
    | true =>
      simp only [if_true]
      obtain ⟨cfg, stored, rfl, enabled, config, hold⟩ := meters.present found
      obtain ⟨exceeded, taken⟩ :=
        rateLimitExceeded_own inside (config ▸ enabled) ctx pkt.ends.saddr
      rw [config, here, ← hold pkt.ends.saddr] at exceeded taken
      refine ⟨⟨meters.owned, meters.cpus, ?_, ?_⟩, ?_⟩
      · intro absent
        cases found.symm.trans absent
      · intro e' again
        cases found.symm.trans again
        refine ⟨cfg, stored.insert pkt.ends.saddr (rlTake cfg (stored.get? pkt.ends.saddr) ctx.now).2,
          rfl, enabled, config, fun source => ?_⟩
        have buckets : (n.maps.receive ctx pkt).flow.svcRlBuckets =
            (rateLimitExceeded n.maps ctx e.serviceID pkt.ends.saddr).2.svcRlBuckets := by
          rcases receive_svcRlBuckets n.maps ctx pkt with ⟨sid, led, buckets⟩ | ⟨none, _⟩
          · rw [buckets, synTo_unique syn led]
          · cases syn.symm.trans (none e.serviceID)
        rw [buckets, taken]
        by_cases same : source = pkt.ends.saddr
        · subst same
          rw [FMap.get?_insert_self, FMap.get?_insert_self]
        · rw [FMap.get?_insert_of_ne _ _ same, FMap.get?_insert_of_ne _ _
            fun tuple => same (Prod.mk.inj (Prod.mk.inj tuple).2).2]
          exact hold source
      · rintro o seen
        cases seen
        rw [exceeded]
        rfl

theorem observe_op {op : Op} {o : LimiterEvent × Bool}
    (seen : n.observe key (.op op env) = some o) : (s.step numCPU o.1).2 = o.2 := by
  cases op with
  | upsertVIP spec =>
    obtain ⟨_, ⟨⟩⟩ := Option.ite_none_right_eq_some.mp seen
    rfl
  | removeVIP k =>
    obtain ⟨_, ⟨⟩⟩ := Option.ite_none_right_eq_some.mp seen
    rfl
  | _ => cases seen

/-- So is every event of a run. -/
theorem Meters.observed (meters : Meters key cpu numCPU n s) {events : List Event}
    (along : Run.Along Node.step (fun n e => LimiterStep key cpu n e ∧ FreshBuckets key n e) n events) :
    (n.observed key events).map Prod.snd =
      Meter.verdicts numCPU s ((n.observed key events).map Prod.fst) := by
  induction events generalizing n s with
  | nil => rfl
  | cons e rest ih =>
    obtain ⟨⟨step, fresh⟩, along'⟩ := along
    -- One event moves the meter with the node, and is let through by both or by neither.
    have moved : Meters key cpu numCPU (n.step e) (s.after numCPU (n.observe key e)) ∧
        ∀ o, n.observe key e = some o → (s.step numCPU o.1).2 = o.2 := by
      cases e with
      | packet ctx pkt => exact meters.packet step pkt
      | op op env =>
        cases op with
        | upsertVIP spec => exact ⟨meters.upsert step.2.1 step.2.2 fresh, fun _ => observe_op⟩
        | removeVIP k => exact ⟨meters.remove k env, fun _ => observe_op⟩
        | _ => exact step.elim
    have later := ih moved.1 along'
    unfold Node.observed
    cases seen : n.observe key e with
    | none =>
      rw [seen] at later
      exact later
    | some o =>
      rw [seen] at later
      simp only [Option.toList_some, List.singleton_append, List.map_cons, Meter.verdicts]
      rw [moved.2 o seen, later]
      rfl

end

theorem Meters.start (key : String) (cpu : Nat) (config : NodeConfig) (maps : StartMaps) :
    Meters key cpu config.numCPU (Node.start config maps) none :=
  ⟨Owned.new config, rfl, fun _ => rfl, fun found => nomatch found⟩

/--
The limiter admits the same SYNs to a VIP in two runs that agree on what concerns the VIP.

The runs may differ in every other VIP and in every packet to it.
-/
theorem limiter_ignores_other_vips {key : String} {cpu : Nat} {config₁ config₂ : NodeConfig}
    {maps₁ maps₂ : StartMaps} {events₁ events₂ : List Event} (cpus : config₁.numCPU = config₂.numCPU)
    (run₁ : Run.Along Node.step (fun n e => LimiterStep key cpu n e ∧ FreshBuckets key n e)
      (Node.start config₁ maps₁) events₁)
    (run₂ : Run.Along Node.step (fun n e => LimiterStep key cpu n e ∧ FreshBuckets key n e)
      (Node.start config₂ maps₂) events₂)
    (agree : ((Node.start config₁ maps₁).observed key events₁).map Prod.fst =
      ((Node.start config₂ maps₂).observed key events₂).map Prod.fst) :
    (Node.start config₁ maps₁).observed key events₁ = (Node.start config₂ maps₂).observed key events₂ := by
  have admitted₁ := (Meters.start key cpu config₁ maps₁).observed run₁
  have admitted₂ := (Meters.start key cpu config₂ maps₂).observed run₂
  -- Both are what one meter says about one sequence of events.
  rw [List.zip_of_prod rfl admitted₁, List.zip_of_prod rfl admitted₂, agree, cpus]

section Inputs

/-- A single-port VIP's service, endpoint and own limit, as the maps hold them. -/
def Dataplane.limitView (p : Dataplane) (key : String) : Option (Nat × VipKey × RLConfig) :=
  (p.services.get? key).bind fun e =>
    (parseIP e.vip.address).bind fun ip =>
      if e.vip.isRange = false ∧ p.dp.svcRlConfig = true then
        some (e.serviceID, vipKey ip e.vip, rateLimitEntry p.numCPU e.vip.rateLimit)
      else none

theorem Node.Sound.observe_syn {n : Node} (sound : n.Sound) {key : String}
    {endpoint : VipKey} {cfg : RLConfig} (view : n.plane.limitView key = some (sid, endpoint, cfg))
    (enabled : cfg.enabled = true) (pkt : Packet) {sport : UInt16} {firstOf : Option UInt32}
    (body : pkt.body = .segment ⟨.tcp true, sport, endpoint.port⟩ firstOf)
    (daddr : pkt.ends.daddr = endpoint.addr) (proto : endpoint.proto = 6) (ctx : Context) :
    n.observe key (.packet ctx pkt) = some (.syn ctx.now pkt.ends.saddr,
        !(rlTake cfg (n.maps.flow.svcRlBuckets.get? (ctx.cpu, sid, pkt.ends.saddr)) ctx.now).1) ∧
      (n.step (.packet ctx pkt)).maps.flow.svcRlBuckets =
        n.maps.flow.svcRlBuckets.insert (ctx.cpu, sid, pkt.ends.saddr)
          (rlTake cfg (n.maps.flow.svcRlBuckets.get? (ctx.cpu, sid, pkt.ends.saddr)) ctx.now).2 := by
  obtain ⟨e, found, rest⟩ := Option.bind_eq_some_iff.mp view
  obtain ⟨ip, parsed, rest⟩ := Option.bind_eq_some_iff.mp rest
  split at rest
  · rename_i plain
    obtain ⟨single, supported⟩ := plain
    cases rest
    have matched := sound.imaged.service_exact found single parsed
    have led : synTo n.maps e.serviceID pkt = true := by
      unfold synTo
      rw [body]
      have tcp : (Transport.tcp true).proto = protoByte e.vip.protocol := proto.symm
      simp only [Transport.isSyn, Bool.true_and, decide_eq_true_eq, daddr, tcp]
      exact matched
    have config : n.maps.svcRlConfig e.serviceID = rateLimitEntry n.plane.numCPU e.vip.rateLimit :=
      (sound.imaged.image sound.recorded).limit found supported
    obtain ⟨exceeded, taken⟩ := rateLimitExceeded_own (sound.imaged.owned.services.id_lt found)
      (config ▸ enabled) ctx pkt.ends.saddr
    rw [config] at exceeded taken
    constructor
    · simp only [Node.observe, found, Option.bind_some, led, if_true, exceeded]
    · rw [← taken]
      rcases receive_svcRlBuckets n.maps ctx pkt with ⟨sid, led', buckets⟩ | ⟨none, _⟩
      · rw [synTo_unique led led'] at buckets
        exact buckets
      · cases led.symm.trans (none e.serviceID)
  · cases rest

/-- A VIP that takes one SYN per second from each source. -/
def limitedVIP (address : String) : VIP :=
  { plainVIP address ["10.0.1.1"] with rateLimit := ⟨1, 1⟩ }

/-- A SYN from one source to a VIP. -/
def synPacket (daddr : UInt32) : Packet :=
  ⟨.v4 0x0909090a daddr, .segment ⟨.tcp true, htons 4000, htons 80⟩ none, 60, 14, true⟩

/-- VIP 10.0.0.1 is added after some operations and takes a SYN. -/
def addedRun (before : List Op) : List Event :=
  calmly (before ++ [.upsertVIP (limitedVIP "10.0.0.1")]) ++
    [.packet quietContext (synPacket 0x0100000a)]

/-- The same, after VIP 10.0.0.2 was added, took a SYN of the same client, and was removed. -/
def afterAnotherRun : List Event :=
  calmly [.upsertVIP (limitedVIP "10.0.0.2")] ++ (.packet quietContext (synPacket 0x0200000a) ::
    (calmly [.removeVIP "10.0.0.2:80:tcp", .upsertVIP (limitedVIP "10.0.0.1")] ++
      [.packet quietContext (synPacket 0x0100000a)]))

theorem observed_append (key : String) (n : Node) (first second : List Event) :
    n.observed key (first ++ second) = n.observed key first ++ (n.run first).observed key second := by
  induction first generalizing n with
  | nil => rfl
  | cons e rest ih =>
    rw [List.cons_append, Node.observed, ih, Node.observed, List.append_assoc]
    rfl

theorem Node.Sound.client_syn {n : Node} (sound : n.Sound) {key : String} {daddr : UInt32}
    (view : n.plane.limitView key = some (sid, ⟨.v4 daddr, htons 80, 6⟩, ⟨1, 1, true⟩))
    (bucket : Option RLBucket) (stored : n.maps.flow.svcRlBuckets.get? (0, sid, .v4 0x0909090a) = bucket) :
    n.observe key (.packet quietContext (synPacket daddr)) =
        some (.syn 0 (.v4 0x0909090a), !(rlTake ⟨1, 1, true⟩ bucket 0).1) ∧
      (n.step (.packet quietContext (synPacket daddr))).maps.flow.svcRlBuckets.get?
        (0, sid, .v4 0x0909090a) = some (rlTake ⟨1, 1, true⟩ bucket 0).2 := by
  obtain ⟨seen, taken⟩ := sound.observe_syn view rfl (synPacket daddr) rfl rfl rfl quietContext
  subst stored
  exact ⟨seen, by rw [taken]; exact FMap.get?_insert_self _ _ _⟩

/-- Additions of limited VIPs and removals: what the limiter's runs are made of. -/
def Op.aboutLimits : Op → Bool
  | .upsertVIP spec => spec.rateLimit.set
  | .removeVIP _ => true
  | _ => false

theorem limiterStep_calmly (key : String) (cpu : Nat) {n : Node} {ops : List Op}
    (about : ∀ op ∈ ops, op.aboutLimits = true) (along : Run.Along Node.step Clean n (calmly ops)) :
    Run.Along Node.step (LimiterStep key cpu) n (calmly ops) := by
  induction ops generalizing n with
  | nil => trivial
  | cons op rest ih =>
    obtain ⟨clean, along'⟩ := along
    refine ⟨?_, ih (fun op' member => about op' (List.mem_cons_of_mem op member)) along'⟩
    have first := about op List.mem_cons_self
    cases op with
    | upsertVIP spec => exact ⟨clean.1, clean.2.1, fun _ => first⟩
    | removeVIP k => exact clean.1
    | _ => cases first

theorem freshBuckets_calmly {key : String} {n : Node} (empty : n.maps.flow.svcRlBuckets = FMap.empty)
    (ops : List Op) : Run.Along Node.step (FreshBuckets key) n (calmly ops) := by
  induction ops generalizing n with
  | nil => trivial
  | cons op rest ih =>
    refine ⟨?_, ih ((replay_svcRlBuckets _ _).trans empty)⟩
    cases op with
    | upsertVIP spec =>
      intro _ _ sid _ cpu source
      rw [empty]
      rfl
    | _ => trivial

theorem added_observed {n : Node} (sound : n.Sound) (empty : n.maps.flow.svcRlBuckets = FMap.empty)
    (before : List Op) (about : ∀ op ∈ before, op.aboutLimits = true)
    (planes : rehearse n.plane (before ++ [.upsertVIP (limitedVIP "10.0.0.1")]) = some q)
    (view : q.limitView "10.0.0.1:80:tcp" =
      some (sid, ⟨.v4 0x0100000a, htons 80, 6⟩, ⟨1, 1, true⟩))
    (others : ∀ n : Node, n.observed "10.0.0.1:80:tcp" (calmly before) = []) :
    Run.Along Node.step (fun n e => LimiterStep "10.0.0.1:80:tcp" 0 n e ∧
        FreshBuckets "10.0.0.1:80:tcp" n e) n (addedRun before) ∧
      n.observed "10.0.0.1:80:tcp" (addedRun before) =
        [(.added ⟨1, 1⟩, true), (.syn 0 (.v4 0x0909090a), true)] := by
  obtain ⟨along, sound', plane⟩ := rehearse_run sound planes
  obtain ⟨drops, flow⟩ := run_calmly_flow n (before ++ [.upsertVIP (limitedVIP "10.0.0.1")])
  have about' : ∀ op ∈ before ++ [.upsertVIP (limitedVIP "10.0.0.1")], op.aboutLimits = true := by
    intro op member
    rcases List.mem_append.mp member with earlier | last
    · exact about op earlier
    · cases List.mem_singleton.mp last
      rfl
  have added : n.observed "10.0.0.1:80:tcp"
      (calmly (before ++ [.upsertVIP (limitedVIP "10.0.0.1")])) = [(.added ⟨1, 1⟩, true)] := by
    rw [calmly, List.map_append, observed_append]
    rw [show n.observed _ (before.map fun op => .op op calm) = [] from others n]
    rfl
  refine ⟨Run.along_append.mpr ⟨(limiterStep_calmly _ _ about' along).and (freshBuckets_calmly empty _),
    ⟨rfl, trivial⟩, trivial⟩, ?_⟩
  rw [addedRun, observed_append, added]
  generalize n.run (calmly (before ++ [.upsertVIP (limitedVIP "10.0.0.1")])) = n' at sound' plane flow ⊢
  obtain ⟨seen, _⟩ := sound'.client_syn (plane ▸ view) none
    (by rw [flow]; simp only [empty]; rfl)
  rw [Node.observed, seen]
  rfl

theorem after_another_observed {n : Node} (sound : n.Sound) {q₁ q₂ : Dataplane}
    (planes₁ : rehearse n.plane [.upsertVIP (limitedVIP "10.0.0.2")] = some q₁)
    (view₁ : q₁.limitView "10.0.0.2:80:tcp" =
      some (0, ⟨.v4 0x0200000a, htons 80, 6⟩, ⟨1, 1, true⟩))
    (unseen : q₁.services.get? "10.0.0.1:80:tcp" = none)
    (planes₂ : rehearse q₁ [.removeVIP "10.0.0.2:80:tcp", .upsertVIP (limitedVIP "10.0.0.1")] = some q₂)
    (view₂ : q₂.limitView "10.0.0.1:80:tcp" =
      some (0, ⟨.v4 0x0100000a, htons 80, 6⟩, ⟨1, 1, true⟩))
    (empty : n.maps.flow.svcRlBuckets = FMap.empty) :
    Run.Along Node.step (LimiterStep "10.0.0.1:80:tcp" 0) n afterAnotherRun ∧
      n.observed "10.0.0.1:80:tcp" afterAnotherRun =
        [(.added ⟨1, 1⟩, true), (.syn 0 (.v4 0x0909090a), false)] := by
  obtain ⟨along₁, sound₁, plane₁⟩ := rehearse_run sound planes₁
  obtain ⟨_, flow₁⟩ := run_calmly_flow n [.upsertVIP (limitedVIP "10.0.0.2")]
  have other : n.observed "10.0.0.1:80:tcp" (calmly [.upsertVIP (limitedVIP "10.0.0.2")]) = [] := rfl
  have steps₁ := limiterStep_calmly "10.0.0.1:80:tcp" 0 (by decide) along₁
  rw [afterAnotherRun, observed_append, other, List.nil_append, Run.along_append]
  change (_ ∧ Run.Along Node.step _ (n.run (calmly [.upsertVIP (limitedVIP "10.0.0.2")])) _) ∧ _
  generalize n.run (calmly [.upsertVIP (limitedVIP "10.0.0.2")]) = n₁ at sound₁ plane₁ flow₁ ⊢
  -- The SYN to the other VIP empties the client's bucket.
  obtain ⟨_, used⟩ := sound₁.client_syn (plane₁ ▸ view₁) none
    (by rw [flow₁]; simp only [empty]; rfl)
  have foreign : n₁.observe "10.0.0.1:80:tcp" (.packet quietContext (synPacket 0x0200000a)) = none := by
    simp only [Node.observe, plane₁, unseen, Option.bind_none]
  have sound₁' : (n₁.step (.packet quietContext (synPacket 0x0200000a))).Sound := sound₁.step trivial
  have plane₁' : (n₁.step (.packet quietContext (synPacket 0x0200000a))).plane = q₁ := plane₁
  rw [Node.observed, foreign, Option.toList_none, List.nil_append, Run.Along]
  generalize n₁.step (.packet quietContext (synPacket 0x0200000a)) = n₂ at used sound₁' plane₁' ⊢
  -- Neither the removal nor the addition touches it, and the new VIP has the old service ID.
  obtain ⟨along₂, sound₂, plane₂⟩ := rehearse_run sound₁' (plane₁'.symm ▸ planes₂)
  obtain ⟨_, flow₂⟩ := run_calmly_flow n₂
    [.removeVIP "10.0.0.2:80:tcp", .upsertVIP (limitedVIP "10.0.0.1")]
  have steps₂ := limiterStep_calmly "10.0.0.1:80:tcp" 0 (by decide) along₂
  refine ⟨⟨steps₁, rfl, Run.along_append.mpr ⟨steps₂, rfl, trivial⟩⟩, ?_⟩
  have added : n₂.observed "10.0.0.1:80:tcp" (calmly
      [.removeVIP "10.0.0.2:80:tcp", .upsertVIP (limitedVIP "10.0.0.1")]) =
      [(.added ⟨1, 1⟩, true)] := rfl
  rw [observed_append, added]
  generalize n₂.run (calmly [.removeVIP "10.0.0.2:80:tcp", .upsertVIP (limitedVIP "10.0.0.1")]) = n₃
    at sound₂ plane₂ flow₂ ⊢
  obtain ⟨seen, _⟩ := sound₂.client_syn (plane₂ ▸ view₂) (some ⟨0, 0⟩) (by rw [flow₂]; exact used)
  rw [Node.observed, seen]
  rfl

theorem rehearse_alone : ((rehearse (Node.start plainNode plainMaps).plane
    ([] ++ [.upsertVIP (limitedVIP "10.0.0.1")])).map fun q => q.limitView "10.0.0.1:80:tcp") =
      some (some (0, ⟨.v4 0x0100000a, htons 80, 6⟩, ⟨1, 1, true⟩)) := by
  decide +kernel

end Inputs

/-- A VIP is charged for a SYN that a client sent to another VIP, removed before this one was added. -/
theorem limiter_charges_later_vip :
    Run.Along Node.step (LimiterStep "10.0.0.1:80:tcp" 0) (Node.start plainNode plainMaps)
        (addedRun []) ∧
      Run.Along Node.step (LimiterStep "10.0.0.1:80:tcp" 0) (Node.start plainNode plainMaps)
        afterAnotherRun ∧
      (Node.start plainNode plainMaps).observed "10.0.0.1:80:tcp" (addedRun []) =
        [(.added ⟨1, 1⟩, true), (.syn 0 (.v4 0x0909090a), true)] ∧
      (Node.start plainNode plainMaps).observed "10.0.0.1:80:tcp" afterAnotherRun =
        [(.added ⟨1, 1⟩, true), (.syn 0 (.v4 0x0909090a), false)] := by
  have rehearsed' : ((rehearse (Node.start plainNode plainMaps).plane
      [.upsertVIP (limitedVIP "10.0.0.2")]).map fun q =>
      decide (q.limitView "10.0.0.2:80:tcp" =
        some (0, ⟨.v4 0x0200000a, htons 80, 6⟩, ⟨1, 1, true⟩)) &&
      (q.services.get? "10.0.0.1:80:tcp").isNone &&
      decide (((rehearse q [.removeVIP "10.0.0.2:80:tcp", .upsertVIP (limitedVIP "10.0.0.1")]).map
        fun r => r.limitView "10.0.0.1:80:tcp") =
          some (some (0, ⟨.v4 0x0100000a, htons 80, 6⟩, ⟨1, 1, true⟩)))) = some true := by
    decide +kernel
  obtain ⟨_, planes, view⟩ := Option.map_eq_some_iff.mp rehearse_alone
  obtain ⟨q₁, planes₁, views⟩ := Option.map_eq_some_iff.mp rehearsed'
  simp only [Bool.and_eq_true, decide_eq_true_eq, Option.isNone_iff_eq_none] at views
  obtain ⟨⟨view₁, unseen⟩, last⟩ := views
  obtain ⟨q₂, planes₂, view₂⟩ := Option.map_eq_some_iff.mp last
  have sound := Node.sound_start plainNode plainMaps
  obtain ⟨alone, admitted⟩ := added_observed sound rfl [] (by decide) planes view fun _ => rfl
  obtain ⟨after, refused⟩ := after_another_observed sound planes₁ view₁
    unseen planes₂ view₂ rfl
  exact ⟨alone.mono And.left, after, admitted, refused⟩

/-- Beside another VIP that is still there, a VIP takes its SYNs as if it were alone. -/
theorem limiter_ignores_present_vip :
    (Node.start plainNode plainMaps).observed "10.0.0.1:80:tcp" (addedRun []) =
      (Node.start plainNode plainMaps).observed "10.0.0.1:80:tcp"
        (addedRun [.upsertVIP (limitedVIP "10.0.0.2")]) := by
  have rehearsed' : ((rehearse (Node.start plainNode plainMaps).plane
      ([.upsertVIP (limitedVIP "10.0.0.2")] ++ [.upsertVIP (limitedVIP "10.0.0.1")])).map
      fun q => q.limitView "10.0.0.1:80:tcp") =
      some (some (1, ⟨.v4 0x0100000a, htons 80, 6⟩, ⟨1, 1, true⟩)) := by
    decide +kernel
  obtain ⟨_, planes, view⟩ := Option.map_eq_some_iff.mp rehearse_alone
  obtain ⟨q', planes', view'⟩ := Option.map_eq_some_iff.mp rehearsed'
  have sound := Node.sound_start plainNode plainMaps
  obtain ⟨run₁, seen₁⟩ := added_observed sound rfl [] (by decide) planes view fun _ => rfl
  obtain ⟨run₂, seen₂⟩ := added_observed sound rfl _ (by decide) planes' view' fun _ => rfl
  exact limiter_ignores_other_vips rfl run₁ run₂ (by rw [seen₁, seen₂])

end Rivora

import Rivora.Proofs.Serving

/-! The node-wide drop counter and the drop counters of the VIPs. -/

namespace Rivora

variable {sid : Nat} {m : Maps} {ctx : Context} {pkt : Packet} {outcome : Verdict × Flow} {p q : Dataplane}
   {n : Node}

/-- The drop counter of the node. -/
def Flow.nodeDrops (f : Flow) : Nat := (f.stats 0).dropped

/-- The packets dropped for one service: over its limit, or without a healthy backend. -/
def Flow.vipDrops (f : Flow) (sid : Nat) : Nat :=
  f.dropStats sid .rateLimited + f.dropStats sid .noBackend

/-- No VIP is added or removed; the VIPs there are may be programmed again. -/
def VIPsStay (n : Node) : Event → Prop
  | .packet _ _ => True
  | .op op env =>
    (∀ q spec, op.Begins env n.plane q (.upsert spec) →
      q.services.contains (vipKeyString spec) = true) ∧
    ∀ q key, op.Begins env n.plane q (.remove key) → q.services.contains key = false

/-- The service a packet is handled for, if any. -/
def Maps.serviceOf (m : Maps) (pkt : Packet) : Option Nat :=
  match pkt.body with
  | .other => none
  | .segment l4 _ => m.service pkt.ends.daddr l4.dport l4.transport.proto
  | .laterFragment id proto =>
    (m.flow.frag.get? ⟨pkt.ends.saddr, pkt.ends.daddr, id, proto⟩).map FragVal.serviceID
  | .icmpError quoted l4 => m.service quoted.saddr l4.sport l4.transport.proto

/--
A packet can be encapsulated: there is a source address and room, and a packet that the route does not carry
can be answered.
-/
structure Encapsulates (m : Maps) (ctx : Context) (pkt : Packet) (mode : ServiceMode) : Prop where
  source : noTunnelSource m pkt.ends = false
  headroom : ctx.headroom = true
  answer : ∀ mtu, Refuses ctx pkt mtu → pkt.Answerable ctx mode

/-- A later fragment finds its backend alive, and what is sent through a tunnel can be encapsulated. -/
def Deliverable (n : Node) : Event → Prop
  | .op _ _ => True
  | .packet ctx pkt =>
    (∀ id proto val, pkt.body = .laterFragment id proto →
      n.maps.flow.frag.get? ⟨pkt.ends.saddr, pkt.ends.daddr, id, proto⟩ = some val →
      n.maps.alive val.backendID = true) ∧
    ∀ sid cfg, n.maps.serviceOf pkt = some sid → n.maps.serviceConfig? sid = some cfg →
      cfg.mode.isTunnel = true → Encapsulates n.maps ctx pkt cfg.mode

section Counting

variable (f : Flow)

theorem nodeDrops_bumpDropped (bytes : Nat) : (f.bumpStats 0 bytes true).nodeDrops = f.nodeDrops + 1 := by
  simp [Flow.nodeDrops, Flow.bumpStats]

theorem nodeDrops_bumpDelivered (i bytes : Nat) :
    (f.bumpStats i bytes false).nodeDrops = f.nodeDrops := by
  unfold Flow.nodeDrops Flow.bumpStats
  split
  · by_cases here : i = 0
    · subst here
      simp
    · simp [arraySet_of_ne _ _ (Ne.symm here)]
  · rfl

theorem nodeDrops_countDelivered (pkt : Packet) (id : Nat) :
    (countDelivered pkt id f).nodeDrops = f.nodeDrops := by
  unfold countDelivered
  rw [nodeDrops_bumpDelivered, nodeDrops_bumpDelivered]

/-- A drop with a reason is counted for its VIP. -/
theorem vipDrops_bumpDrop (inside : sid < maxVIPs) {reason : DropReason}
    (real : reason ≠ .unserved) (j : Nat) :
    (f.bumpDrop sid reason).vipDrops j = f.vipDrops j + if j = sid then 1 else 0 := by
  unfold Flow.vipDrops Flow.bumpDrop
  rw [if_pos inside]
  by_cases here : j = sid
  · subst here
    cases reason with
    | unserved => exact absurd rfl real
    | rateLimited => simp; omega
    | noBackend => simp; omega
  · simp [arraySet_of_ne _ _ here, here]

/-- One without a VIP is not. -/
theorem vipDrops_bumpUnserved (sid j : Nat) : (f.bumpDrop sid .unserved).vipDrops j = f.vipDrops j := by
  unfold Flow.vipDrops Flow.bumpDrop
  split
  · by_cases here : j = sid
    · subst here
      simp
    · simp [arraySet_of_ne _ _ here]
  · rfl

end Counting

/-- How a packet changes the two accounts. -/
inductive Counted (p : Dataplane) (f : Flow) : Verdict × Flow → Prop
  | dropped {k : String} {e : ServiceEntry} {f' : Flow} (programmed : p.services.get? k = some e)
    (node : f'.nodeDrops = f.nodeDrops + 1)
    (vips : ∀ sid, f'.vipDrops sid = f.vipDrops sid + if sid = e.serviceID then 1 else 0) :
    Counted p f (.drop, f')
  | served {v : Verdict} {f' : Flow} (kept : v ≠ .drop) (node : f'.nodeDrops = f.nodeDrops)
    (vips : ∀ sid, f'.vipDrops sid = f.vipDrops sid) : Counted p f (v, f')

/-- A packet that can be encapsulated is not dropped, and counts nothing. -/
theorem Sent.counted {d : Delivery} {f : Flow}
    (sent : Sent m ctx pkt d f outcome)
    (able : d.mode.isTunnel = true → Encapsulates m ctx pkt d.mode) :
    outcome.1 ≠ .drop ∧ outcome.2 = f := by
  cases sent with
  | forward => exact ⟨nofun, rfl⟩
  | pass => exact ⟨nofun, rfl⟩
  | noSource tunnel missing => exact absurd (missing.symm.trans (able tunnel).source) nofun
  | noRoom tunnel full => exact absurd (full.symm.trans (able tunnel).headroom) nofun
  | unanswered tunnel refuses unable => exact absurd ((able tunnel).answer _ refuses) unable
  | tooBig => exact ⟨nofun, rfl⟩

theorem FollowEnds.counted {cfg : ServiceConfig} {id : Nat}
    {be : BackendInfo} (ends : FollowEnds m ctx pkt cfg sid id be outcome)
    (able : cfg.mode.isTunnel = true → Encapsulates m ctx pkt cfg.mode)
    (p : Dataplane) : Counted p m.flow outcome := by
  have delivered : ∀ j, (countDelivered pkt id m.flow).vipDrops j = m.flow.vipDrops j := by
    intro j
    rw [countDelivered_eq]
    rfl
  cases ends with
  | translated => exact .served nofun (nodeDrops_countDelivered _ _ _) delivered
  | direct _ sent =>
    obtain ⟨kept, flow⟩ := sent.counted able
    refine .served kept ?_ ?_
    · rw [flow, nodeDrops_countDelivered]
    · rw [flow]
      exact delivered

theorem limiter_counts (m : Maps) (ctx : Context) (pkt : Packet) (l4 : L4) (sid : Nat) :
    (limiter m ctx pkt l4 sid).2.nodeDrops = m.flow.nodeDrops ∧
      ∀ j, (limiter m ctx pkt l4 sid).2.vipDrops j = m.flow.vipDrops j := by
  rw [limiter_eq]
  exact ⟨rfl, fun _ => rfl⟩

/-- If a packet with a transport header is dropped, both accounts count it. -/
theorem SegmentEnds.counted (imaged : Imaged p m)
    {l4 : L4} {firstOf : Option UInt32}
    (ends : SegmentEnds m ctx pkt l4 firstOf outcome)
    (able : ∀ sid cfg, m.service pkt.ends.daddr l4.dport l4.transport.proto = some sid →
      m.serviceConfig? sid = some cfg → cfg.mode.isTunnel = true → Encapsulates m ctx pkt cfg.mode) :
    Counted p m.flow outcome := by
  -- A service found belongs to a programmed VIP, whose counters are within the array.
  have charged : ∀ {sid : Nat} {reason : DropReason}, reason ≠ .unserved →
      m.service pkt.ends.daddr l4.dport l4.transport.proto = some sid →
      Counted p m.flow
        (.drop, (((limiter m ctx pkt l4 sid).2).bumpStats 0 0 true).bumpDrop sid reason) := by
    intro sid reason real matched
    obtain ⟨node, vips⟩ := limiter_counts m ctx pkt l4 sid
    obtain ⟨k, e, ip, found, rfl, _⟩ := imaged.service_inv matched
    refine .dropped found ?_ fun j => ?_
    · rw [Flow.nodeDrops, Flow.bumpDrop_stats]
      exact (nodeDrops_bumpDropped _ 0).trans (by rw [node])
    · rw [vipDrops_bumpDrop _ (imaged.owned.services.id_lt found) real]
      have same : ((limiter m ctx pkt l4 e.serviceID).2.bumpStats 0 0 true).vipDrops j =
          m.flow.vipDrops j := by
        rw [← vips j, Flow.vipDrops, Flow.bumpStats_dropStats]
        rfl
      rw [same]
  cases ends with
  | unmatched none => exact .served (by simp) rfl fun _ => rfl
  | limited matched => exact charged nofun matched
  | @unserved sid matched =>
    obtain ⟨node, vips⟩ := limiter_counts m ctx pkt l4 sid
    refine .served nofun ?_ fun j => ?_
    · rw [Flow.nodeDrops, Flow.bumpDrop_stats]
      exact node
    · rw [vipDrops_bumpUnserved, vips]
  | noBackend matched => exact charged nofun matched
  | @unknown sid id cfg f matched _ _ chosen =>
    obtain ⟨node, vips⟩ := limiter_counts m ctx pkt l4 sid
    refine .served nofun ?_ fun j => ?_
    · rw [Flow.nodeDrops, Flow.bumpDrop_stats, chosen.flow]
      exact node
    · rw [vipDrops_bumpUnserved, chosen.flow]
      exact vips j
  | @delivered sid id cfg f be outcome matched _ serves chosen _ handed =>
    obtain ⟨node, vips⟩ := limiter_counts m ctx pkt l4 sid
    have before : (rememberFragment pkt.ends l4 firstOf ⟨id, sid⟩ (countDelivered pkt id f)).nodeDrops =
        m.flow.nodeDrops := by
      rw [rememberFragment_eq]
      refine (nodeDrops_countDelivered _ _ _).trans ?_
      rw [chosen.flow]
      exact node
    have before' : ∀ j, (rememberFragment pkt.ends l4 firstOf ⟨id, sid⟩
        (countDelivered pkt id f)).vipDrops j = m.flow.vipDrops j := by
      intro j
      rw [rememberFragment_eq, countDelivered_eq, chosen.flow]
      exact vips j
    cases handed with
    | translated => exact .served nofun before before'
    | direct _ sent =>
      obtain ⟨kept, flow⟩ := sent.counted (able sid cfg matched serves.config)
      refine .served kept ?_ ?_
      · rw [flow, before]
      · rw [flow]
        exact before'

/-- So they do for every packet that can be delivered. -/
theorem Imaged.counted (imaged : Imaged n.plane n.maps)
    (deliverable : Deliverable n (.packet ctx pkt)) :
    Counted n.plane n.maps.flow (ingress n.maps ctx pkt) := by
  obtain ⟨alive, able⟩ := deliverable
  have ends := ingress_ends n.maps ctx pkt
  unfold Maps.serviceOf at able
  generalize ingress n.maps ctx pkt = outcome at ends ⊢
  cases ends with
  | other => exact .served (by simp) rfl fun _ => rfl
  | segment body ends =>
    simp only [body] at able
    exact ends.counted imaged able
  | later body ends =>
    simp only [body] at able
    cases ends with
    | passed => exact .served (by simp) rfl fun _ => rfl
    | dead first down => cases (alive _ _ _ body first).symm.trans down
    | followed first config _ _ ends =>
      exact ends.counted (able _ _ (by rw [first]; rfl) config) _
  | icmp body ends =>
    simp only [body] at able
    cases ends with
    | passed => exact .served (by simp) rfl fun _ => rfl
    | followed _ matched config _ _ ends => exact ends.counted (able _ _ matched config) _

theorem replay_flow_of_no_reset {ws : List MapWrite} (none : ∀ w ∈ ws, ∀ sid, w.cell ≠ .drops sid)
    (m : Maps) : (replay ws m).flow = m.flow := by
  refine replay_preserves (P := fun m' => m'.flow = m.flow) ?_ rfl
  intro w member m' same
  cases w with
  | resetDropStats sid => exact absurd rfl (none _ member sid)
  | _ => exact same

/-- An upsert of a known VIP keeps its counters. -/
theorem Upserted.keeps_counters {leak : String → Nat} {env : Env} {spec : VIP}
    {f : ServiceEntry} {ip : IP} {ws ws' : List MapWrite}
    (up : Upserted leak env spec p q f ip ws ws')
    (known : p.services.contains (vipKeyString spec) = true) (m : Maps) :
    (replay (upsertWrites p f ip ws ws') m).flow = m.flow ∧
      ∀ k, (q.services.get? k).map ServiceEntry.serviceID =
        (p.services.get? k).map ServiceEntry.serviceID := by
  obtain ⟨e, found⟩ := FMap.mem_keys.mp (FMap.contains_iff.mp known)
  constructor
  · refine replay_flow_of_no_reset ?_ m
    intro w member sid
    cases up.kind member with
    | drops isNew => exact absurd (up.known found).symm (isNew _ e found)
    | config => nofun
    | backend cell => rw [cell]; nofun
    | health cell => rw [cell]; nofun
    | slot _ _ cell => rw [cell]; nofun
    | limit _ cell => rw [cell]; nofun
    | key _ listed =>
      rcases vipCells_kind listed with ⟨_, this⟩ | ⟨_, this⟩ <;> rw [this] <;> nofun
  · intro k
    by_cases here : k = vipKeyString spec
    · rw [here, up.entry, found, Option.map_some, Option.map_some, up.known found]
    · rw [up.others k here]

theorem Op.Consists.reweigh_listed {op : Op} {parts : List Part}
    (consists : op.Consists p parts) {key name : String} {weight : Nat}
    (member : .reweigh key name weight ∈ parts) : ∃ id, Lists p key name id := by
  cases op with
  | setBackendWeight id vipKey weight' =>
    obtain ⟨targets, rfl, _, lists⟩ := consists
    obtain ⟨t, inside, same⟩ := List.mem_map.mp member
    cases same
    exact ⟨id, (lists t inside).1⟩
  | reloadVIPs desired =>
    rw [Op.Consists] at consists
    rw [consists] at member
    rcases List.mem_append.mp member with first | second
    · obtain ⟨_, _, same⟩ := List.mem_map.mp first
      cases same
    · obtain ⟨_, _, same⟩ := List.mem_map.mp second
      cases same
  | setBackendDrainingByKey vipKey backendKey draining =>
    rcases consists with rfl | ⟨id, _, rfl⟩
    · cases member
    · cases List.mem_singleton.mp member
  | upsertVIP | removeVIP | setBackendHealth | setBackendDraining | setBackendAdminDraining =>
    rw [Op.Consists] at consists
    rw [consists] at member
    cases List.mem_singleton.mp member

/-- What stays between two control states and flow maps while VIPs are neither added nor removed. -/
structure SameCounters (p q : Dataplane) (f g : Flow) : Prop where
  flow : g = f
  ids : ∀ k, (q.services.get? k).map ServiceEntry.serviceID = (p.services.get? k).map ServiceEntry.serviceID

theorem SameCounters.contains {f g : Flow} (same : SameCounters p q f g) (k : String) :
    q.services.contains k = p.services.contains k := by
  have ids := congrArg Option.isSome (same.ids k)
  rwa [Option.isSome_map, Option.isSome_map] at ids

/-- An operation that adds and removes no VIP keeps the VIPs' service IDs and all counters. -/
theorem Node.Sound.keeps_counters (sound : n.Sound) {op : Op} {env : Env}
    (clean : Clean n (.op op env)) (stay : VIPsStay n (.op op env)) :
    SameCounters n.plane (n.step (.op op env)).plane n.maps.flow (n.step (.op op env)).maps.flow := by
  obtain ⟨reliable, succeeds, beside⟩ := clean
  obtain ⟨known, absent⟩ := stay
  have after : _ ∧ SameCounters n.plane (op.outcome env n.plane).2.plane n.maps.flow
      (replay (op.outcome env n.plane).2.writes n.maps).flow := Op.invariant
    (P := fun s => Imaged s.plane (replay s.writes n.maps) ∧
      SameCounters n.plane s.plane n.maps.flow (replay s.writes n.maps).flow)
    sound.imaged.owned.backends (fun same holds => by rw [same.plane, same.writes]; exact holds)
    (fun {s part result s'} holds begins run ok => by
      obtain ⟨imaged, same⟩ := holds
      rw [ok succeeds] at run
      refine ⟨imaged.part reliable run ?_, ?_⟩
      · rintro spec rfl k e found
        exact beside _ spec begins k e found
      cases part with
      | upsert spec =>
        obtain ⟨f, ip, ws, ws', up, logged⟩ := upsertVIP_ok imaged.owned run
        obtain ⟨flow, ids⟩ := up.keeps_counters (known _ _ begins) (replay s.writes n.maps)
        rw [logged, replay_append]
        exact ⟨flow.trans same.flow, fun k => (ids k).trans (same.ids k)⟩
      | remove key =>
        have missing := absent _ _ begins
        rcases removeVIP_run key env imaged.owned with ⟨_, unchanged⟩ | ⟨entry, _, _, _, found, _⟩
        · cases unchanged.symm.trans run
          exact same
        · rw [FMap.contains, found] at missing
          cases missing
      | reweigh key name weight =>
        have run' := (reweighVIP_eq key name weight env s).symm.trans run
        have imaged' : Imaged (s.plane.reweighed key name weight) (replay s.writes n.maps) :=
          imaged.modifyEntry key fun _ => rfl
        obtain ⟨f, ip, ws, ws', up, logged⟩ :=
          upsertVIP_ok (s := s.withPlane (s.plane.reweighed key name weight)) imaged'.owned run'
        -- The VIP reweighed was there when the operation began, so it still is.
        obtain ⟨ran, rest, _, consists, _⟩ := begins
        obtain ⟨id, e₀, listed, _⟩ :=
          consists.reweigh_listed (List.mem_append_right _ List.mem_cons_self)
        have there : s.plane.services.contains key = true := by
          rw [same.contains key, FMap.contains, listed]
          rfl
        obtain ⟨e, found⟩ := FMap.mem_keys.mp (FMap.contains_iff.mp there)
        have spec : vipKeyString (s.plane.recordedSpec key) = key := by
          rw [Dataplane.recordedSpec, found]
          exact (imaged.keyed found).1
        have mine := modifyEntry_get?_self found fun e => e.overrideWeight name weight
        have known' : (s.plane.reweighed key name weight).services.contains
            (vipKeyString (s.plane.recordedSpec key)) = true := by
          rw [spec, FMap.contains, Dataplane.reweighed, mine]
          rfl
        obtain ⟨flow, ids⟩ := up.keeps_counters known' (replay s.writes n.maps)
        have logged' : s'.writes = s.writes ++ upsertWrites _ f ip ws ws' := logged
        rw [logged', replay_append]
        refine ⟨flow.trans same.flow, fun k => (ids k).trans (Eq.trans ?_ (same.ids k))⟩
        by_cases here : k = key
        · subst here
          rw [withPlane_plane, Dataplane.reweighed, mine, found]
          rfl
        · rw [withPlane_plane, Dataplane.reweighed, modifyEntry_get?_of_ne _ _ here]
      | mark kind id value =>
        rcases setMark_run kind id value env imaged.owned.backends with
          ⟨_, unchanged⟩ | ⟨st, t, stated, plane, ⟨run', logged⟩ | ⟨⟨e, run'⟩, _, _⟩⟩
        · cases unchanged.symm.trans run
          exact same
        · cases run'.symm.trans run
          have services : s'.plane.services = s.plane.services := by
            rw [plane]
            unfold Dataplane.modifyBackend
            split <;> rfl
          rw [logged, replay_append]
          exact ⟨same.flow, fun k => by rw [services]; exact same.ids k⟩
        · cases run'.symm.trans run)
    ⟨sound.imaged, rfl, fun _ => rfl⟩
  exact after.2

/-- How much the drops of some services grew between two flow maps. -/
def vipIncrease (ids : List Nat) (f g : Flow) : ℤ :=
  (ids.map fun sid => (g.vipDrops sid : ℤ) - f.vipDrops sid).sum

theorem vipIncrease_self (ids : List Nat) (f : Flow) : vipIncrease ids f f = 0 := by
  simp [vipIncrease]

theorem vipIncrease_trans (ids : List Nat) (f g h : Flow) :
    vipIncrease ids f h = vipIncrease ids f g + vipIncrease ids g h := by
  unfold vipIncrease
  rw [← List.sum_map_add]
  refine congrArg List.sum (List.map_congr_left fun sid _ => ?_)
  omega

/-- One drop raises the VIPs' sum by one. -/
theorem vipIncrease_of_charged {ids : List Nat} (distinct : ids.Nodup) (member : sid ∈ ids)
    {f g : Flow} (charged : ∀ j, g.vipDrops j = f.vipDrops j + if j = sid then 1 else 0) :
    vipIncrease ids f g = 1 := by
  have each : ∀ j ∈ ids, (g.vipDrops j : ℤ) - f.vipDrops j = if j = sid then 1 else 0 := by
    intro j _
    rw [charged j]
    split <;> simp
  unfold vipIncrease
  rw [List.map_congr_left each, List.sum_map_ite_eq, List.count_eq_one_of_mem distinct member]
  simp

/-- The service IDs in use. -/
def Dataplane.serviceIDs (p : Dataplane) : List Nat := p.services.values.map ServiceEntry.serviceID

theorem ServicesOwned.serviceIDs_nodup (owned : ServicesOwned p) : p.serviceIDs.Nodup := by
  unfold Dataplane.serviceIDs FMap.values
  rw [List.map_map]
  refine List.Nodup.map_on ?_ (List.Nodup.of_map Prod.fst p.services.nodup)
  rintro ⟨k, e⟩ first ⟨k', e'⟩ second same
  have found := FMap.get?_eq_some.mpr first
  have key := owned.key_unique found (FMap.get?_eq_some.mpr second) same
  subst key
  cases found.symm.trans (FMap.get?_eq_some.mpr second)
  rfl

/-- One event keeps the two sums in step. -/
theorem Node.Sound.step_drops (sound : n.Sound) {e : Event} (clean : Clean n e)
    (stay : VIPsStay n e) (deliverable : Deliverable n e) :
    (((n.step e).maps.flow.nodeDrops : ℤ) - n.maps.flow.nodeDrops =
        vipIncrease n.plane.serviceIDs n.maps.flow (n.step e).maps.flow) ∧
      (n.step e).plane.serviceIDs.Perm n.plane.serviceIDs := by
  -- An operation that keeps the VIPs keeps the counters; a packet charges both sides or neither.
  cases e with
  | op op env =>
    obtain ⟨flow, ids⟩ := sound.keeps_counters clean stay
    refine ⟨?_, FMap.values_perm_of_views ids⟩
    rw [flow, vipIncrease_self, Int.sub_self]
  | packet ctx pkt =>
    refine ⟨?_, List.Perm.refl _⟩
    have counted := sound.imaged.counted deliverable
    simp only [Node.step, Maps.receive]
    generalize ingress n.maps ctx pkt = outcome at counted ⊢
    cases counted with
    | @dropped k e f' found node vips =>
      have member : e.serviceID ∈ n.plane.serviceIDs :=
        List.mem_map_of_mem (FMap.mem_values_of_get? found)
      rw [vipIncrease_of_charged sound.imaged.owned.services.serviceIDs_nodup member vips, node]
      omega
    | @served _ f' _ node vips =>
      have none : vipIncrease n.plane.serviceIDs n.maps.flow f' = 0 := by
        unfold vipIncrease
        rw [List.map_congr_left fun sid _ => by rw [vips sid, Int.sub_self]]
        simp
      rw [none, node, Int.sub_self]

/-- So does a run. -/
theorem Node.Sound.run_drops (sound : n.Sound) {events : List Event}
    (run : Run.Along Node.step (fun n e => Clean n e ∧ VIPsStay n e ∧ Deliverable n e) n events) :
    ((n.run events).maps.flow.nodeDrops : ℤ) - n.maps.flow.nodeDrops =
      vipIncrease n.plane.serviceIDs n.maps.flow (n.run events).maps.flow := by
  induction events generalizing n with
  | nil =>
    change (n.maps.flow.nodeDrops : ℤ) - _ = vipIncrease _ _ n.maps.flow
    rw [vipIncrease_self, Int.sub_self]
  | cons e rest ih =>
    obtain ⟨⟨clean, stay, deliverable⟩, along⟩ := run
    -- The increases of the first event and of the rest add up, over the same service IDs.
    obtain ⟨first, ids⟩ := sound.step_drops clean stay deliverable
    have later := ih (sound.step clean) along
    have perm : vipIncrease (n.step e).plane.serviceIDs (n.step e).maps.flow
        ((n.step e).run rest).maps.flow = vipIncrease n.plane.serviceIDs (n.step e).maps.flow
        ((n.step e).run rest).maps.flow := (ids.map _).sum_eq
    rw [perm] at later
    change (((n.step e).run rest).maps.flow.nodeDrops : ℤ) - _ =
      vipIncrease _ _ ((n.step e).run rest).maps.flow
    rw [vipIncrease_trans _ _ (n.step e).maps.flow, ← first, ← later]
    omega

/--
While no VIP is added or removed, the node's drop counter grows by what the VIPs' counters grow by,
and by one for every packet dropped.
-/
theorem drop_counters_agree {config : NodeConfig} {maps : StartMaps} {before events : List Event}
    (clean : Run.Along Node.step Clean (Node.start config maps) before) {n : Node}
    (reached : n = (Node.start config maps).run before)
    (run : Run.Along Node.step (fun n e => Clean n e ∧ VIPsStay n e ∧ Deliverable n e) n events) :
    ((n.run events).maps.flow.nodeDrops : ℤ) - n.maps.flow.nodeDrops =
        (n.plane.services.values.map fun e =>
          ((n.run events).maps.flow.vipDrops e.serviceID : ℤ) - n.maps.flow.vipDrops e.serviceID).sum ∧
      ∀ earlier ctx pkt later, events = earlier ++ .packet ctx pkt :: later →
        (ingress (n.run earlier).maps ctx pkt).1 = .drop →
        ((n.run earlier).maps.receive ctx pkt).flow.nodeDrops =
          (n.run earlier).maps.flow.nodeDrops + 1 := by
  have sound : n.Sound := reached ▸ Node.sound_run clean
  constructor
  · have agree := sound.run_drops run
    unfold vipIncrease Dataplane.serviceIDs at agree
    rw [List.map_map] at agree
    exact agree
  · rintro earlier ctx pkt later rfl dropped
    -- The state the packet arrives in is sound, and the packet is deliverable there.
    obtain ⟨first, ⟨_, _, deliverable⟩, _⟩ := Run.along_append.mp run
    have sound' : (n.run earlier).Sound :=
      Run.invariant (fun {_ _} sound ok => sound.step ok.1) sound first
    have counted := sound'.imaged.counted deliverable
    unfold Maps.receive
    generalize ingress (n.run earlier).maps ctx pkt = outcome at counted dropped ⊢
    cases counted with
    | dropped _ node _ => exact node
    | served kept => exact absurd dropped kept

theorem Imaged.deliverable (imaged : Imaged n.plane n.maps)
    (plain : ∀ entry ∈ n.plane.services.entries, (modeByte entry.2.vip.mode).isTunnel = false)
    (pkt : Packet) {l4 : L4} {firstOf : Option UInt32} (body : pkt.body = .segment l4 firstOf)
    (ctx : Context) : Deliverable n (.packet ctx pkt) := by
  refine ⟨fun id proto val later => ?_, ?_⟩
  · rw [body] at later
    cases later
  · intro sid cfg matched config tunnel
    simp only [Maps.serviceOf, body] at matched
    obtain ⟨k, e, _, found, rfl, _⟩ := imaged.service_inv matched
    cases (imaged.config found).symm.trans config
    exact absurd (tunnel.symm.trans (plain (k, e) (FMap.get?_eq_some.mp found))) nofun

theorem VIPsStay.setBackendHealth (n : Node) (id : Nat) (healthy : Bool) (env : Env) :
    VIPsStay n (.op (.setBackendHealth id healthy) env) := by
  have only : ∀ parts, (Op.setBackendHealth id healthy).Consists n.plane parts →
      parts = [.mark .probe id healthy] := fun _ consists => consists
  constructor
  · intro q spec begins
    cases (begins.single only).1
  · intro q key begins
    cases (begins.single only).1

section Inputs

/-- A packet from client 10.9.9.9 to 10.0.0.1, with what it carries. -/
def fragmentPacket (body : Body) : Packet := ⟨.v4 0x0909090a 0x0100000a, body, 1500, 14, false⟩

/-- The first fragment of a datagram to the VIP. -/
def firstFragment : Packet := fragmentPacket (.segment ⟨.tcp false, htons 4000, htons 80⟩ (some 7))

/-- Another one, without a transport header. -/
def laterFragment : Packet := fragmentPacket (.laterFragment 7 6)

/-- The first fragment passes, its backend goes down, and a later fragment arrives. -/
def fragmentedRun : List Event :=
  [.packet quietContext firstFragment, .op (.setBackendHealth 0 false) calm,
    .packet quietContext laterFragment]

/-- Where the VIP sends its packets. -/
def fragmentTarget : SoleTarget :=
  ⟨0, 0, .nat, ⟨.v4 0x0100000a, htons 80, 6⟩, ⟨.v4 0x0101000a, htons 8080, Mac.zero⟩, .healthy⟩

/-- The first fragment is sent to the backend and noted. -/
theorem first_fragment_noted (sound : n.Sound)
    (target : n.plane.soleTarget "10.0.0.1:80:tcp" = some fragmentTarget)
    (plain : ∀ entry ∈ n.plane.services.entries, (modeByte entry.2.vip.mode).isTunnel = false)
    (fresh : n.maps.flow.affinity = FMap.empty) :
    (n.maps.receive quietContext firstFragment).flow.frag.get? ⟨.v4 0x0909090a, .v4 0x0100000a, 7, 6⟩ =
        some ⟨0, 0⟩ ∧
      (n.maps.receive quietContext firstFragment).flow.nodeDrops = n.maps.flow.nodeDrops ∧
      ∀ sid, (n.maps.receive quietContext firstFragment).flow.vipDrops sid =
        n.maps.flow.vipDrops sid := by
  have unknown : affineBackend n.maps (connKey firstFragment.ends ⟨.tcp false, htons 4000, htons 80⟩) =
      none := by
    unfold affineBackend
    rw [fresh]
    rfl
  obtain ⟨forwarded, _, noted, _⟩ := sound.imaged.translates_sole firstFragment target rfl rfl rfl rfl
    rfl rfl unknown quietContext
  have counted := sound.imaged.counted (sound.imaged.deliverable plain firstFragment rfl quietContext)
  rw [noted]
  refine ⟨FMap.get?_insert_self _ _ _, ?_⟩
  unfold Maps.receive
  generalize ingress n.maps quietContext firstFragment = outcome at counted forwarded ⊢
  cases counted with
  | dropped => cases forwarded
  | served _ node vips => exact ⟨node, vips⟩

/-- With the backend down, the next one is dropped for the node alone. -/
theorem later_fragment_dropped (noted : m.flow.frag.get? ⟨.v4 0x0909090a, .v4 0x0100000a, 7, 6⟩ = some ⟨0, 0⟩)
    (down : m.backendHealth 0 = .down) :
    ingress m quietContext laterFragment = (.drop, m.flow.bumpStats 0 0 true) := by
  have first : m.flow.frag.get?
      ⟨laterFragment.ends.saddr, laterFragment.ends.daddr, 7, 6⟩ = some ⟨0, 0⟩ := noted
  have dead : m.alive 0 = false := by
    simp [Maps.alive, Maps.backendHealth?, down, maxBackends]
  have config : m.serviceConfig? 0 = some (m.serviceConfig 0) := by
    simp [Maps.serviceConfig?, maxVIPs]
  change handleLaterFragment m quietContext laterFragment 7 6 = _
  unfold handleLaterFragment
  rw [first]
  simp only [config, dead, Bool.not_false, if_true]

theorem fragmented_run_drops (sound : n.Sound)
    (target : n.plane.soleTarget "10.0.0.1:80:tcp" = some fragmentTarget)
    (plain : ∀ entry ∈ n.plane.services.entries, (modeByte entry.2.vip.mode).isTunnel = false)
    (fresh : n.maps.flow.affinity = FMap.empty)
    (planes : rehearse n.plane [.setBackendHealth 0 false] = some q)
    (down : (q.backendStates.get? 0).map BackendState.health = some .down) :
    Run.Along Node.step (fun n e => Clean n e ∧ VIPsStay n e) n fragmentedRun ∧
      (n.run fragmentedRun).maps.flow.nodeDrops = n.maps.flow.nodeDrops + 1 ∧
      ∀ sid, (n.run fragmentedRun).maps.flow.vipDrops sid = n.maps.flow.vipDrops sid := by
  obtain ⟨noted, node, vips⟩ := first_fragment_noted sound target plain fresh
  have sound₁ : (n.step (.packet quietContext firstFragment)).Sound := sound.step trivial
  have plane₁ : (n.step (.packet quietContext firstFragment)).plane = n.plane := rfl
  have run : n.run fragmentedRun = ((n.step (.packet quietContext firstFragment)).step
      (.op (.setBackendHealth 0 false) calm)).step (.packet quietContext laterFragment) := rfl
  rw [run, fragmentedRun]
  have noted₁ : (n.step (.packet quietContext firstFragment)).maps.flow.frag.get? _ = _ := noted
  have node₁ : (n.step (.packet quietContext firstFragment)).maps.flow.nodeDrops = _ := node
  have vips₁ : ∀ sid, (n.step (.packet quietContext firstFragment)).maps.flow.vipDrops sid = _ := vips
  simp only [Run.Along, and_true]
  generalize n.step (.packet quietContext firstFragment) = n₁ at sound₁ plane₁ noted₁ node₁ vips₁ ⊢
  -- The health change touches no counter and no fragment entry.
  obtain ⟨⟨clean, _⟩, sound₂, plane₂⟩ := rehearse_run sound₁ (plane₁.symm ▸ planes)
  have stay := VIPsStay.setBackendHealth n₁ 0 false calm
  obtain ⟨flow, _⟩ := sound₁.keeps_counters clean stay
  have dead : (n₁.step (.op (.setBackendHealth 0 false) calm)).maps.backendHealth 0 = .down := by
    obtain ⟨st, stored, health⟩ := Option.map_eq_some_iff.mp down
    have image := sound₂.imaged.backends.health 0
    rw [plane₂, stored] at image
    exact image.trans health
  generalize n₁.step (.op (.setBackendHealth 0 false) calm) = n₂ at flow dead ⊢
  refine ⟨⟨⟨trivial, trivial⟩, ⟨clean, stay⟩, trivial, trivial⟩, ?_⟩
  have ended := later_fragment_dropped (m := n₂.maps) (flow ▸ noted₁) dead
  simp only [Node.step, Maps.receive, ended]
  constructor
  · rw [nodeDrops_bumpDropped, flow, node₁]
  · intro sid
    rw [Flow.vipDrops, Flow.bumpStats_dropStats, flow]
    exact vips₁ sid

/-- A VIP with one backend. -/
def fragmentVIPs : List Op := [.upsertVIP (plainVIP "10.0.0.1" ["10.0.1.1"])]

/-- A node that serves it. -/
def fragmentNode : Node := (Node.start plainNode plainMaps).run (calmly fragmentVIPs)

theorem fragmentNode_plane : ∃ q,
    Run.Along Node.step Clean (Node.start plainNode plainMaps) (calmly fragmentVIPs) ∧
      fragmentNode.Sound ∧ fragmentNode.plane.soleTarget "10.0.0.1:80:tcp" = some fragmentTarget ∧
      (∀ entry ∈ fragmentNode.plane.services.entries,
        (modeByte entry.2.vip.mode).isTunnel = false) ∧
      rehearse fragmentNode.plane [.setBackendHealth 0 false] = some q ∧
      (q.backendStates.get? 0).map BackendState.health = some .down ∧
      ∀ entry ∈ q.services.entries, (modeByte entry.2.vip.mode).isTunnel = false := by
  have rehearsed : ((rehearse (.new plainNode) fragmentVIPs).map fun q =>
      decide (q.soleTarget "10.0.0.1:80:tcp" = some fragmentTarget) &&
      q.services.entries.all (fun entry => !(modeByte entry.2.vip.mode).isTunnel) &&
      (rehearse q [.setBackendHealth 0 false]).any fun r =>
        decide ((r.backendStates.get? 0).map BackendState.health = some .down) &&
        r.services.entries.all fun entry => !(modeByte entry.2.vip.mode).isTunnel) = some true := by
    decide +kernel
  obtain ⟨q, planes, views⟩ := Option.map_eq_some_iff.mp rehearsed
  simp only [Bool.and_eq_true, decide_eq_true_eq, List.all_eq_true, Bool.not_eq_true',
    Option.any_eq_true_iff_get] at views
  obtain ⟨⟨target, plain⟩, some, down, plain'⟩ := views
  obtain ⟨clean, sound, plane⟩ := rehearse_run (Node.sound_start plainNode plainMaps) planes
  unfold fragmentNode
  rw [plane]
  exact ⟨_, clean, sound, target, plain, (Option.some_get some).symm, down, plain'⟩

theorem fragmentNode_flow : fragmentNode.maps.flow.affinity = FMap.empty := by
  obtain ⟨drops, flow⟩ := run_calmly_flow (Node.start plainNode plainMaps) fragmentVIPs
  unfold fragmentNode
  rw [flow]
  rfl

end Inputs

/-- The drop of a later fragment whose backend is down shows in no VIP's counters. -/
theorem later_fragment_drop_uncharged :
    Run.Along Node.step Clean (Node.start plainNode plainMaps) (calmly fragmentVIPs) ∧
      Run.Along Node.step (fun n e => Clean n e ∧ VIPsStay n e) fragmentNode fragmentedRun ∧
      ((fragmentNode.run fragmentedRun).maps.flow.nodeDrops : ℤ) - fragmentNode.maps.flow.nodeDrops = 1 ∧
      (fragmentNode.plane.services.values.map fun e =>
        ((fragmentNode.run fragmentedRun).maps.flow.vipDrops e.serviceID : ℤ) -
          fragmentNode.maps.flow.vipDrops e.serviceID).sum = 0 := by
  obtain ⟨q, clean, sound, target, plain, planes, down, _⟩ := fragmentNode_plane
  obtain ⟨along, node, vips⟩ :=
    fragmented_run_drops sound target plain fragmentNode_flow planes down
  refine ⟨clean, along, ?_, ?_⟩
  · rw [node]
    omega
  · rw [List.map_congr_left fun e _ => by rw [vips e.serviceID, Int.sub_self]]
    simp

/-- A whole packet that finds its backend down is charged to the node and to the VIP. -/
theorem drop_counters_agree_for_whole_packet :
    ((fragmentNode.run [.op (.setBackendHealth 0 false) calm,
        .packet quietContext firstFragment]).maps.flow.nodeDrops : ℤ) -
      fragmentNode.maps.flow.nodeDrops =
    (fragmentNode.plane.services.values.map fun e =>
      ((fragmentNode.run [.op (.setBackendHealth 0 false) calm,
        .packet quietContext firstFragment]).maps.flow.vipDrops e.serviceID : ℤ) -
          fragmentNode.maps.flow.vipDrops e.serviceID).sum := by
  obtain ⟨q, clean, sound, _, _, planes, _, plain⟩ := fragmentNode_plane
  refine (drop_counters_agree clean (n := fragmentNode) rfl ?_).1
  generalize fragmentNode = n at sound planes
  obtain ⟨⟨healthClean, _⟩, sound', plane⟩ := rehearse_run sound planes
  refine ⟨⟨healthClean, VIPsStay.setBackendHealth n 0 false calm, trivial⟩,
    ⟨trivial, trivial, ?_⟩, trivial⟩
  exact sound'.imaged.deliverable (plane.symm ▸ plain) firstFragment rfl quietContext

end Rivora

import Rivora.Properties.NatReply

/-! Where the later fragments of a datagram go. -/

namespace Rivora

/-- The key under which the fragments of a datagram follow its first one. -/
def fragKey (ends : Endpoints) (id : UInt32) (proto : UInt8) : FragKey := ⟨ends.saddr, ends.daddr, id, proto⟩

section Flows

variable {m : Maps} {ctx : Context} {pkt : Packet} {outcome : Verdict × Flow}

theorem FollowEnds.flow {cfg : ServiceConfig} {sid id : Nat} {be : BackendInfo}
    (ends : FollowEnds m ctx pkt cfg sid id be outcome) :
    outcome.2 = { m.flow with stats := outcome.2.stats } := by
  cases ends with
  | translated => exact countDelivered_eq pkt id m.flow
  | direct _ sent => rw [sent.flow, countDelivered_eq]

theorem alive_of_healthy {id : Nat} (healthy : m.backendHealth? id = some .healthy) : m.alive id = true := by
  simp [Maps.alive, healthy]

/-- A packet with a transport header ends as its handler does. -/
theorem ingress_segment {l4 : L4} {firstOf : Option UInt32} (body : pkt.body = .segment l4 firstOf) :
    SegmentEnds m ctx pkt l4 firstOf (ingress m ctx pkt) := by
  unfold ingress
  rw [body]
  exact handleSegment_ends m ctx pkt l4 firstOf

section Handing

variable {l4 : L4} {cfg : ServiceConfig} {sid id : Nat} {be : BackendInfo} {f : Flow}

theorem Handed.kept (handed : Handed m ctx pkt l4 cfg sid id be f outcome) :
    outcome.2.affinity = f.affinity ∧ outcome.2.frag = f.frag := by
  cases handed with
  | translated => exact ⟨rfl, rfl⟩
  | direct _ sent =>
    rw [sent.flow]
    exact ⟨rfl, rfl⟩

/-- What is forwarded goes to the backend at hand. -/
theorem Handed.forwarded (handed : Handed m ctx pkt l4 cfg sid id be f outcome) {d : Delivery}
    (forwarded : outcome.1 = .forward d) :
    d.serviceID = sid ∧ d.backendID = id ∧ d.backend = be ∧ d.mode = cfg.mode := by
  cases handed with
  | translated =>
    cases forwarded
    exact ⟨rfl, rfl, rfl, rfl⟩
  | direct _ sent =>
    cases sent with
    | forward same =>
      cases forwarded
      rw [same]
      exact ⟨rfl, rfl, rfl, rfl⟩
    | pass | noSource | noRoom | unanswered | tooBig => cases forwarded

/-- The chosen backend is noted for the connection. -/
theorem Chosen.affinity (chosen : Chosen m cfg pkt.ends l4 (limiter m ctx pkt l4 sid).2 id f) :
    f.affinity.get? (connKey pkt.ends l4) = some id := by
  cases chosen with
  | affine here =>
    rw [limiter_eq]
    exact (Option.filter_eq_some_iff.mp here).1
  | picked => exact FMap.get?_insert_self _ _ _

end Handing

/-- A packet changes the entry of its own connection only. -/
theorem SegmentEnds.affinity {l4 : L4} {firstOf : Option UInt32}
    (ends : SegmentEnds m ctx pkt l4 firstOf outcome) :
    outcome.2.affinity = m.flow.affinity ∨
      affineBackend m (connKey pkt.ends l4) = none ∧
        ∃ id, outcome.2.affinity = m.flow.affinity.insert (connKey pkt.ends l4) id := by
  have limited : ∀ sid, (limiter m ctx pkt l4 sid).2.affinity = m.flow.affinity := fun sid => by rw [limiter_eq]
  have choice : ∀ {cfg sid id f}, Chosen m cfg pkt.ends l4 (limiter m ctx pkt l4 sid).2 id f →
      f.affinity = m.flow.affinity ∨ affineBackend m (connKey pkt.ends l4) = none ∧
        ∃ id, f.affinity = m.flow.affinity.insert (connKey pkt.ends l4) id := by
    intro cfg sid id f chosen
    cases chosen with
    | affine => exact .inl (limited sid)
    | picked none => exact .inr ⟨none, id, by dsimp only; rw [limited]⟩
  cases ends with
  | unmatched => exact .inl rfl
  | limited => exact .inl (by simp [limited])
  | unserved => exact .inl (by simp [limited])
  | noBackend => exact .inl (by simp [limited])
  | unknown _ _ _ chosen => simpa using choice chosen
  | @delivered sid id cfg f be _ _ _ _ chosen _ handed =>
    rw [handed.kept.1, rememberFragment_eq, countDelivered_eq]
    have next := choice chosen
    exact next

/-- A packet notes its own datagram only. -/
theorem SegmentEnds.frag {l4 : L4} {firstOf : Option UInt32} (ends : SegmentEnds m ctx pkt l4 firstOf outcome) :
    outcome.2.frag = m.flow.frag ∨
      ∃ fid sid id, firstOf = some fid ∧ m.service pkt.ends.daddr l4.dport l4.transport.proto = some sid ∧
        (∀ b, affineBackend m (connKey pkt.ends l4) = some b → b = id) ∧
        outcome.2.frag = m.flow.frag.insert (fragKey pkt.ends fid l4.transport.proto) ⟨id, sid⟩ := by
  have limited : ∀ sid, (limiter m ctx pkt l4 sid).2.frag = m.flow.frag := fun sid => by rw [limiter_eq]
  cases ends with
  | unmatched => exact .inl rfl
  | limited => exact .inl (by simp [limited])
  | unserved => exact .inl (by simp [limited])
  | noBackend => exact .inl (by simp [limited])
  | unknown _ _ _ chosen => exact .inl (by rw [Flow.bumpDrop_frag, chosen.flow]; exact limited _)
  | @delivered sid id cfg f be _ matched _ _ chosen _ handed =>
    have before : f.frag = m.flow.frag := by rw [chosen.flow]; exact limited sid
    rw [handed.kept.2]
    cases firstOf with
    | none =>
      refine .inl ?_
      rw [rememberFragment, countDelivered_eq]
      exact before
    | some fid =>
      refine .inr ⟨fid, sid, id, rfl, matched, ?_, ?_⟩
      · intro b entry
        cases chosen with
        | affine here => exact Option.some.inj (entry.symm.trans here)
        | picked none => cases entry.symm.trans none
      · rw [rememberFragment, countDelivered_eq]
        dsimp only
        rw [before]
        rfl

/-- Packets without a transport header note nothing. -/
theorem IngressEnds.kept (ends : IngressEnds m ctx pkt outcome)
    (bare : ∀ l4 firstOf, pkt.body ≠ .segment l4 firstOf) :
    outcome.2.affinity = m.flow.affinity ∧ outcome.2.frag = m.flow.frag := by
  cases ends with
  | other => exact ⟨rfl, rfl⟩
  | segment body => exact absurd body (bare _ _)
  | later _ ends =>
    cases ends with
    | passed => exact ⟨rfl, rfl⟩
    | dead => simp
    | followed _ _ _ _ followed => rw [followed.flow]; exact ⟨rfl, rfl⟩
  | icmp _ ends =>
    cases ends with
    | passed => exact ⟨rfl, rfl⟩
    | followed _ _ _ _ _ followed => rw [followed.flow]; exact ⟨rfl, rfl⟩

end Flows

/-- A datagram that is sent to a backend: its connection's entry and its own lead there. -/
structure Tracked (m : Maps) (ends : Endpoints) (l4 : L4) (fid : UInt32) (sid id : Nat) : Prop where
  matched : m.service ends.daddr l4.dport l4.transport.proto = some sid
  alive : m.alive id = true
  affinity : m.flow.affinity.get? (connKey ends l4) = some id
  frag : m.flow.frag.get? (fragKey ends fid l4.transport.proto) = some ⟨id, sid⟩

/-- No other datagram of the same source, destination, identification and protocol starts. -/
def Exchange.Spares (ends : Endpoints) (l4 : L4) (fid : UInt32) : Exchange → Prop
  | .reply _ => True
  | .request _ pkt => ∀ l4', pkt.ends = ends → pkt.body = .segment l4' (some fid) →
    l4'.transport.proto = l4.transport.proto → l4'.sport = l4.sport ∧ l4'.dport = l4.dport

section Tracking

variable {m : Maps} {ends : Endpoints} {l4 : L4} {fid : UInt32} {sid id : Nat}

theorem endpoints_ext {e e' : Endpoints} (source : e.saddr = e'.saddr) (destination : e.daddr = e'.daddr) :
    e = e' := by
  cases e <;> cases e' <;> simp_all [Endpoints.saddr, Endpoints.daddr]

theorem egress_affinity (f : Flow) (pkt : Packet) :
    (egress f pkt).2.affinity = f.affinity ∧ (egress f pkt).2.frag = f.frag := by
  unfold egress
  cases pkt.body with
  | other => exact ⟨rfl, rfl⟩
  | icmpError quoted l4 => exact ⟨rfl, rfl⟩
  | laterFragment id proto =>
    dsimp only
    split <;> exact ⟨rfl, rfl⟩
  | segment l4 firstOf =>
    dsimp only
    split
    · exact ⟨rfl, rfl⟩
    · cases firstOf <;> exact ⟨rfl, rfl⟩

theorem Tracked.exchange (tracked : Tracked m ends l4 fid sid id) {event : Exchange}
    (spares : event.Spares ends l4 fid) : Tracked (m.exchange event) ends l4 fid sid id := by
  have affine : affineBackend m (connKey ends l4) = some id := by
    rw [affineBackend, tracked.affinity]
    exact Option.filter_eq_some_iff.mpr ⟨rfl, tracked.alive⟩
  -- Only a request with a transport header can touch the two entries.
  have kept : ∀ flow : Flow, flow.affinity = m.flow.affinity ∧ flow.frag = m.flow.frag →
      Tracked { m with flow := flow } ends l4 fid sid id := by
    rintro flow ⟨affinity, frag⟩
    refine ⟨tracked.matched, tracked.alive, ?_, ?_⟩
    · rw [affinity]
      exact tracked.affinity
    · rw [frag]
      exact tracked.frag
  cases event with
  | reply pkt => exact kept _ (egress_affinity m.flow pkt)
  | request ctx pkt =>
    have ended := ingress_ends m ctx pkt
    by_cases bare : ∀ l4 firstOf, pkt.body ≠ .segment l4 firstOf
    · exact kept _ (ended.kept bare)
    · push Not at bare
      obtain ⟨l4', firstOf, body⟩ := bare
      have ended : SegmentEnds m ctx pkt l4' firstOf (ingress m ctx pkt) := ingress_segment body
      refine ⟨tracked.matched, tracked.alive, ?_, ?_⟩
      · change (ingress m ctx pkt).2.affinity.get? _ = _
        obtain same | ⟨none, id', inserted⟩ := ended.affinity
        · rw [same]
          exact tracked.affinity
        · -- The connection has an entry, so a new one is another connection's.
          have other : connKey ends l4 ≠ connKey pkt.ends l4' := by
            intro same
            rw [← same, affine] at none
            cases none
          rw [inserted, FMap.get?_insert_of_ne _ _ other]
          exact tracked.affinity
      · change (ingress m ctx pkt).2.frag.get? _ = _
        obtain same | ⟨fid', sid', id', rfl, matched, choice, inserted⟩ := ended.frag
        · rw [same]
          exact tracked.frag
        · rw [inserted, FMap.get?_insert]
          split
          · -- The first fragment of the same datagram is sent to the same backend again.
            rename_i here
            obtain ⟨source, destination, rfl, proto⟩ := FragKey.mk.inj here
            obtain rfl := endpoints_ext source destination
            obtain ⟨sport, dport⟩ := spares l4' rfl body proto.symm
            have key : connKey pkt.ends l4' = connKey pkt.ends l4 := by
              unfold connKey
              rw [sport, dport, proto]
            rw [key] at choice
            rw [dport, ← proto] at matched
            rw [choice id affine, Option.some.inj (matched.symm.trans tracked.matched)]
          · exact tracked.frag

theorem Tracked.exchanges (tracked : Tracked m ends l4 fid sid id) {events : List Exchange}
    (spares : ∀ event ∈ events, event.Spares ends l4 fid) : Tracked (m.exchanges events) ends l4 fid sid id := by
  have along : Run.Along Maps.exchange (fun _ event => event.Spares ends l4 fid) m events :=
    Run.along_of_forall spares _
  exact Run.invariant (P := fun m => Tracked m ends l4 fid sid id) (fun tracked spares => tracked.exchange spares)
    tracked along

theorem exchanges_eq (m : Maps) (events : List Exchange) :
    m.exchanges events = { m with flow := (m.exchanges events).flow } := by
  unfold Maps.exchanges
  induction events generalizing m with
  | nil => rfl
  | cons event rest ih =>
    rw [Run.run_cons, ih (m.exchange event)]
    cases event <;> rfl

end Tracking

/-- What the control plane keeps for a packet that was sent to a backend. -/
structure Sustains (m : Maps) (ends : Endpoints) (d : Delivery) : Prop where
  config : ∃ cfg, m.serviceConfig? d.serviceID = some cfg ∧ cfg.mode = d.mode
  entry : m.backend.get? ⟨ends.isV4, d.backendID⟩ = some d.backend
  source : d.mode.isTunnel = true → noTunnelSource m ends = false

section Following

variable {m : Maps} {ctx : Context} {pkt : Packet} {l4 : L4} {fid : UInt32} {d : Delivery}

theorem tracked_of_forwarded (body : pkt.body = .segment l4 (some fid))
    (forwarded : (ingress m ctx pkt).1 = .forward d) :
    Tracked (m.receive ctx pkt) pkt.ends l4 fid d.serviceID d.backendID ∧
      Sustains (m.receive ctx pkt) pkt.ends d := by
  have source := source_of_forwarded forwarded
  have ended : SegmentEnds m ctx pkt l4 (some fid) (ingress m ctx pkt) := ingress_segment body
  generalize outcome : ingress m ctx pkt = result at ended forwarded
  cases ended with
  | unmatched => cases forwarded
  | limited => cases forwarded
  | unserved => cases forwarded
  | noBackend => cases forwarded
  | unknown => cases forwarded
  | @delivered sid id cfg f be _ matched _ serves chosen entry handed =>
    -- Both entries name the backend that was chosen, which is up.
    have alive : m.alive id = true := by
      cases chosen with
      | affine here => exact (Option.filter_eq_some_iff.mp here).2
      | picked _ slot => exact alive_of_healthy (pickBackend_spec serves.slots slot).1
    have kept : result.2.affinity = f.affinity ∧
        result.2.frag.get? (fragKey pkt.ends fid l4.transport.proto) = some ⟨id, sid⟩ := by
      rw [handed.kept.1, handed.kept.2, rememberFragment, countDelivered_eq]
      exact ⟨rfl, FMap.get?_insert_self _ _ _⟩
    obtain ⟨rfl, rfl, rfl, mode⟩ := handed.forwarded forwarded
    refine ⟨⟨matched, alive, ?_, ?_⟩, ⟨cfg, serves.config, mode.symm⟩, entry, source⟩
    · change (ingress m ctx pkt).2.affinity.get? _ = _
      rw [outcome, kept.1]
      exact chosen.affinity
    · change (ingress m ctx pkt).2.frag.get? _ = _
      rw [outcome]
      exact kept.2

theorem Tracked.forwards {ends : Endpoints} (tracked : Tracked m ends l4 fid d.serviceID d.backendID)
    (sustains : Sustains m ends d) (same : pkt.ends = ends)
    (body : pkt.body = .laterFragment fid l4.transport.proto)
    (sendable : d.mode.isTunnel = true → pkt.Framed ∧ Unhindered ctx pkt) :
    ∃ d', (ingress m ctx pkt).1 = .forward d' ∧ d'.backendID = d.backendID ∧ d'.backend = d.backend ∧
      d'.mode = d.mode ∧ (d.mode = .nat → d'.daddr = d.backend.addr) := by
  subst same
  obtain ⟨cfg, config, mode⟩ := sustains.config
  have followed : ingress m ctx pkt = follow m ctx pkt cfg d.serviceID d.backendID d.backend := by
    have first : m.flow.frag.get? ⟨pkt.ends.saddr, pkt.ends.daddr, fid, l4.transport.proto⟩ = _ := tracked.frag
    unfold ingress handleLaterFragment
    simp only [body, first, config, tracked.alive, sustains.entry]
    rfl
  rw [followed, ← mode]
  refine follow_forward fun tunnel => ?_
  rw [mode] at tunnel
  exact ⟨(sendable tunnel).1, sustains.source tunnel, (sendable tunnel).2⟩

theorem Sustains.exchanges {ends : Endpoints} (sustains : Sustains m ends d) (events : List Exchange) :
    Sustains (m.exchanges events) ends d := by
  rw [exchanges_eq]
  exact ⟨sustains.config, sustains.entry, fun tunnel => sustains.source tunnel⟩

end Following

end Rivora

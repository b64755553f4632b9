import Rivora.Bpf.TcNat
import Rivora.Proofs.Serving

/-! Replies through NAT VIPs. -/

namespace Rivora

variable {m : Maps} {l4 : L4} {ctx : Context} {pkt : Packet} {firstOf : Option UInt32} {outcome : Verdict × Flow}

/-- A packet at one of the node's two programs. -/
inductive Exchange where
  | request (ctx : Context) (pkt : Packet)
  | reply (pkt : Packet)

/-- The maps after a packet has passed through its program. -/
def Maps.exchange (m : Maps) : Exchange → Maps
  | .request ctx pkt => m.receive ctx pkt
  | .reply pkt => { m with flow := (egress m.flow pkt).2 }

/-- The maps after packets in both directions. -/
def Maps.exchanges (m : Maps) (events : List Exchange) : Maps := Run.run Maps.exchange m events

/-- A backend a service may send a flow to: the one its affinity entry names, or one of its slots. -/
def Candidate (m : Maps) (cfg : ServiceConfig) (key : ConnKey) (id : Nat) : Prop :=
  m.flow.affinity.get? key = some id ∨
    ∃ i < cfg.maglevSize, m.maglevTable (cfg.maglevOffset + i) = id

/--
No reverse entry of a request's own client endpoint stands in its way.

Wherever the VIP may send the request, an entry already there belongs to the same VIP endpoint.
-/
def NoClash (m : Maps) : Exchange → Prop
  | .reply _ => True
  | .request _ pkt => ∀ l4 firstOf sid id be val, pkt.body = .segment l4 firstOf →
    m.service pkt.ends.daddr l4.dport l4.transport.proto = some sid →
    Candidate m (m.serviceConfig sid) (connKey pkt.ends l4) id →
    m.backend.get? ⟨pkt.ends.isV4, id⟩ = some be →
    m.flow.natReverse.get? (reverseKey (m.serviceConfig sid) pkt l4 be) = some val →
    val = ⟨pkt.ends.daddr, l4.dport⟩

/-- A packet is what the backend of a delivered request sends back. -/
structure Answers (pkt : Packet) (l4 : L4) (d : Delivery) (r : Packet) (l4' : L4)
    (firstOf : Option UInt32) : Prop where
  body : r.body = .segment l4' firstOf
  source : r.ends.saddr = d.daddr
  destination : r.ends.daddr = pkt.ends.saddr
  sport : some l4'.sport = d.dport
  dport : l4'.dport = l4.sport
  proto : l4'.transport.proto = l4.transport.proto

theorem Chosen.candidate {cfg : ServiceConfig} {ends : Endpoints} {f f' : Flow}
    {id : Nat} (chosen : Chosen m cfg ends l4 f id f') (slots : cfg.maglevSize ≠ 0) :
    Candidate m cfg (connKey ends l4) id := by
  cases chosen with
  | affine entry => exact Or.inl (Option.filter_eq_some_iff.mp entry).1
  | picked _ slot =>
    obtain ⟨_, i, below, _, holds⟩ := pickBackend_spec slots slot
    exact Or.inr ⟨i, below, holds⟩

/-- A request that is translated: where it goes, and the reverse entry it leaves. -/
structure Translated (m : Maps) (pkt : Packet) (l4 : L4) (sid id : Nat) (be : BackendInfo)
    (after : FMap NATReverseKey NATReverseVal) : Prop where
  matched : m.service pkt.ends.daddr l4.dport l4.transport.proto = some sid
  candidate : Candidate m (m.serviceConfig sid) (connKey pkt.ends l4) id
  entry : m.backend.get? ⟨pkt.ends.isV4, id⟩ = some be
  reverse : after = m.flow.natReverse.insert (reverseKey (m.serviceConfig sid) pkt l4 be)
    ⟨pkt.ends.daddr, l4.dport⟩

theorem SegmentEnds.natReverse (ends : SegmentEnds m ctx pkt l4 firstOf outcome) :
    (∃ sid id be d, Translated m pkt l4 sid id be outcome.2.natReverse ∧ outcome.1 = .forward d ∧
      d.daddr = be.addr ∧ d.dport = some (backendPort (m.serviceConfig sid) l4 be)) ∨
    (outcome.2.natReverse = m.flow.natReverse ∧ ∀ d, outcome.1 = .forward d → d.mode ≠ .nat) := by
  have kept : ∀ sid, (limiter m ctx pkt l4 sid).2.natReverse = m.flow.natReverse := fun sid => by
    rw [limiter_eq]
  -- Only the delivery of a NAT service writes the map.
  cases ends with
  | unmatched => exact Or.inr ⟨rfl, nofun⟩
  | limited => exact Or.inr ⟨by simp [kept], nofun⟩
  | unserved => exact Or.inr ⟨by simp [kept], nofun⟩
  | noBackend => exact Or.inr ⟨by simp [kept], nofun⟩
  | unknown _ _ _ chosen => exact Or.inr ⟨by rw [chosen.flow]; simp [kept], nofun⟩
  | @delivered sid id cfg f be outcome matched _ serves chosen entry handed =>
    obtain ⟨_, rfl⟩ := serviceConfig?_eq_some serves.config
    have before : (rememberFragment pkt.ends l4 firstOf ⟨id, sid⟩
        (countDelivered pkt id f)).natReverse = m.flow.natReverse := by
      rw [rememberFragment_eq, countDelivered_eq, chosen.flow]
      exact kept sid
    cases handed with
    | translated mode =>
      refine Or.inl ⟨sid, id, be, _, ⟨matched, chosen.candidate serves.slots, entry, ?_⟩, rfl, rfl, rfl⟩
      dsimp only
      rw [before]
    | direct mode sent =>
      refine Or.inr ⟨by rw [sent.flow]; exact before, ?_⟩
      intro d forwarded
      cases sent with
      | forward same =>
        cases forwarded
        rw [same]
        exact mode
      | _ => cases forwarded

theorem FollowEnds.natReverse {cfg : ServiceConfig}
    {sid id : Nat} {be : BackendInfo}
    (ends : FollowEnds m ctx pkt cfg sid id be outcome) :
    outcome.2.natReverse = m.flow.natReverse := by
  have counted : (countDelivered pkt id m.flow).natReverse = m.flow.natReverse := by
    rw [countDelivered_eq]
  cases ends with
  | translated => exact counted
  | direct _ sent => rw [sent.flow]; exact counted

theorem IngressEnds.natReverse (ends : IngressEnds m ctx pkt outcome) :
    outcome.2.natReverse = m.flow.natReverse ∨
      ∃ l4 firstOf sid id be, pkt.body = .segment l4 firstOf ∧
        Translated m pkt l4 sid id be outcome.2.natReverse := by
  cases ends with
  | other => exact Or.inl rfl
  | segment body ends =>
    rcases ends.natReverse with ⟨sid, id, be, _, translated, _⟩ | ⟨same, _⟩
    · exact Or.inr ⟨_, _, sid, id, be, body, translated⟩
    · exact Or.inl same
  | later _ ends =>
    cases ends with
    | passed => exact Or.inl rfl
    | dead => exact Or.inl (Flow.bumpStats_natReverse _ _ _ _)
    | followed _ _ _ _ followed => exact Or.inl followed.natReverse
  | icmp _ ends =>
    cases ends with
    | passed => exact Or.inl rfl
    | followed _ _ _ _ _ followed => exact Or.inl followed.natReverse

theorem egress_natReverse (f : Flow) (pkt : Packet) : (egress f pkt).2.natReverse = f.natReverse := by
  unfold egress
  cases pkt.body with
  | other => rfl
  | icmpError quoted l4 => rfl
  | laterFragment id proto =>
    dsimp only
    split <;> rfl
  | segment l4 firstOf =>
    dsimp only
    split
    · rfl
    · cases firstOf <;> rfl

theorem exchange_keeps_reverse {event : Exchange} (clear : NoClash m event)
    {key : NATReverseKey} {val : NATReverseVal} (stored : m.flow.natReverse.get? key = some val) :
    (m.exchange event).flow.natReverse.get? key = some val := by
  cases event with
  | reply pkt => exact (congrArg (·.get? key) (egress_natReverse m.flow pkt)).trans stored
  | request ctx pkt =>
    change (ingress m ctx pkt).2.natReverse.get? key = some val
    rcases (ingress_ends m ctx pkt).natReverse with same | ⟨l4, firstOf, sid, id, be, body, translated⟩
    · rw [same]
      exact stored
    · rw [translated.reverse, FMap.get?_insert]
      split
      · -- The entry is written again, with the value it already had.
        rename_i here
        subst here
        rw [clear l4 firstOf sid id be val body translated.matched translated.candidate
          translated.entry stored]
      · exact stored

/-- The key a reply is translated back under. -/
def replyKey (r : Packet) (l4 : L4) : NATReverseKey :=
  ⟨r.ends.saddr, r.ends.daddr, l4.sport, l4.dport, l4.transport.proto⟩

theorem egress_of_reverse {f : Flow} {r : Packet}
    {val : NATReverseVal} (body : r.body = .segment l4 firstOf)
    (stored : f.natReverse.get? (replyKey r l4) = some val) :
    egress f r =
      (⟨val.vipAddr, some val.vipPort⟩, rememberReplyFragment r.ends l4 firstOf val.vipAddr f) := by
  unfold replyKey at stored
  unfold egress
  simp only [body, stored]

/-- The key the fragments of a reply are remembered under. -/
def replyFragKey (r : Packet) (l4 : L4) (id : UInt32) : FragKey :=
  ⟨r.ends.saddr, r.ends.daddr, id, l4.transport.proto⟩

/-- A packet is the first fragment of a reply under a key. -/
def Exchange.Starts (key : FragKey) : Exchange → Prop
  | .request _ _ => False
  | .reply r => ∃ l4 id, r.body = .segment l4 (some id) ∧ replyFragKey r l4 id = key

theorem IngressEnds.fragRev (ends : IngressEnds m ctx pkt outcome) : outcome.2.fragRev = m.flow.fragRev := by
  have followed : ∀ {cfg sid id be outcome}, FollowEnds m ctx pkt cfg sid id be outcome →
      outcome.2.fragRev = m.flow.fragRev := by
    intro cfg sid id be outcome ends
    have counted : (countDelivered pkt id m.flow).fragRev = m.flow.fragRev := by
      rw [countDelivered_eq]
    cases ends with
    | translated => exact counted
    | direct _ sent => rw [sent.flow]; exact counted
  cases ends with
  | other => rfl
  | @segment l4 firstOf _ body ends =>
    have kept : ∀ sid, (limiter m ctx pkt l4 sid).2.fragRev = m.flow.fragRev := fun sid => by
      rw [limiter_eq]
    cases ends with
    | unmatched => rfl
    | limited => simp [kept]
    | unserved => simp [kept]
    | noBackend => simp [kept]
    | unknown _ _ _ chosen => rw [chosen.flow]; simp [kept]
    | @delivered sid id cfg f be _ _ _ _ chosen _ handed =>
      have before : (rememberFragment pkt.ends l4 firstOf ⟨id, sid⟩
          (countDelivered pkt id f)).fragRev = m.flow.fragRev := by
        rw [rememberFragment_eq, countDelivered_eq, chosen.flow]
        exact kept sid
      cases handed with
      | translated => exact before
      | direct _ sent => rw [sent.flow]; exact before
  | later _ ends =>
    cases ends with
    | passed => rfl
    | dead => exact Flow.bumpStats_fragRev _ _ _ _
    | followed _ _ _ _ ends => exact followed ends
  | icmp _ ends =>
    cases ends with
    | passed => rfl
    | followed _ _ _ _ _ ends => exact followed ends

theorem exchange_keeps_fragRev {event : Exchange} {key : FragKey}
    (other : ¬ event.Starts key) :
    (m.exchange event).flow.fragRev.get? key = m.flow.fragRev.get? key := by
  cases event with
  | request ctx pkt => exact congrArg (·.get? key) (ingress_ends m ctx pkt).fragRev
  | reply r =>
    change (egress m.flow r).2.fragRev.get? key = m.flow.fragRev.get? key
    unfold egress
    cases body : r.body with
    | other => rfl
    | icmpError quoted l4 => rfl
    | laterFragment id proto =>
      dsimp only
      split <;> rfl
    | segment l4 firstOf =>
      dsimp only
      split
      · rfl
      · cases firstOf with
        | none => rfl
        | some id =>
          have differ : key ≠ replyFragKey r l4 id := fun same => other ⟨l4, id, body, same.symm⟩
          exact FMap.get?_insert_of_ne _ _ differ

theorem reverse_of_delivered {d : Delivery} (body : pkt.body = .segment l4 firstOf)
    (delivered : (ingress m ctx pkt).1 = .forward d) (nat : d.mode = .nat) {r : Packet} {l4' : L4}
    {firstOf' : Option UInt32} (answers : Answers pkt l4 d r l4' firstOf') :
    (m.receive ctx pkt).flow.natReverse.get? (replyKey r l4') = some ⟨pkt.ends.daddr, l4.dport⟩ := by
  have handled : ingress m ctx pkt = handleSegment m ctx pkt l4 firstOf := by
    unfold ingress
    rw [body]
  rw [handled] at delivered
  change (ingress m ctx pkt).2.natReverse.get? _ = _
  rw [handled]
  rcases (handleSegment_ends m ctx pkt l4 firstOf).natReverse with
    ⟨sid, id, be, d', translated, forwarded, daddr, dport⟩ | ⟨_, direct⟩
  · cases delivered.symm.trans forwarded
    have port : l4'.sport = backendPort (m.serviceConfig sid) l4 be :=
      Option.some.inj (answers.sport.trans dport)
    have key : replyKey r l4' = reverseKey (m.serviceConfig sid) pkt l4 be := by
      unfold replyKey reverseKey
      rw [answers.source, answers.destination, port, answers.dport, answers.proto, daddr]
    rw [translated.reverse, key]
    exact FMap.get?_insert_self _ _ _
  · exact absurd nat (direct d delivered)

/--
Every reply to a delivered request leaves from the VIP endpoint the request was addressed to.

So does each later fragment of the reply, until the backend reuses its identification.
-/
theorem replies_leave_from_requested_vip {m : Maps} {before between : List Exchange} {ctx : Context}
    {pkt : Packet} {l4 : L4} {firstOf : Option UInt32} {d : Delivery}
    (clear : Run.Along Maps.exchange NoClash m (before ++ .request ctx pkt :: between))
    (body : pkt.body = .segment l4 firstOf)
    (delivered : (ingress (m.exchanges before) ctx pkt).1 = .forward d) (nat : d.mode = .nat)
    {r : Packet} {l4' : L4} {firstOf' : Option UInt32} (answers : Answers pkt l4 d r l4' firstOf') :
    (egress (m.exchanges (before ++ .request ctx pkt :: between)).flow r).1 =
        ⟨pkt.ends.daddr, some l4.dport⟩ ∧
      ∀ id, firstOf' = some id → ∀ after : List Exchange,
        (∀ event ∈ after, ¬ event.Starts (replyFragKey r l4' id)) → ∀ later : Packet,
        later.ends = r.ends → later.body = .laterFragment id l4'.transport.proto →
        (egress (m.exchanges (before ++ .request ctx pkt :: between ++ .reply r :: after)).flow later).1 =
          ⟨pkt.ends.daddr, none⟩ := by
  -- The request's reverse entry is there right after it, and no later request changes it.
  have noted : (m.exchanges (before ++ .request ctx pkt :: between)).flow.natReverse.get?
      (replyKey r l4') = some ⟨pkt.ends.daddr, l4.dport⟩ := by
    obtain ⟨_, _, rest⟩ := Run.along_append.mp clear
    unfold Maps.exchanges
    rw [Run.run_append, Run.run_cons]
    exact Run.invariant
      (P := fun m : Maps => m.flow.natReverse.get? (replyKey r l4') = some ⟨pkt.ends.daddr, l4.dport⟩)
      (fun stored clear => exchange_keeps_reverse clear stored)
      (reverse_of_delivered body delivered nat answers) rest
  have replied := egress_of_reverse answers.body noted
  refine ⟨by rw [replied], ?_⟩
  rintro id rfl after others later ends laterBody
  -- The first fragment noted the VIP's address for those behind it.
  have follows : (m.exchanges (before ++ .request ctx pkt :: between ++ .reply r :: after)).flow.fragRev.get?
      (replyFragKey r l4' id) = some pkt.ends.daddr := by
    unfold Maps.exchanges
    rw [Run.run_append, Run.run_cons]
    refine Run.invariant
      (P := fun m : Maps => m.flow.fragRev.get? (replyFragKey r l4' id) = some pkt.ends.daddr)
      (fun stored other => (exchange_keeps_fragRev other).trans stored) ?_
      (Run.along_of_forall others _)
    change (egress (m.exchanges (before ++ .request ctx pkt :: between)).flow r).2.fragRev.get? _ = _
    rw [replied]
    exact FMap.get?_insert_self _ _ _
  unfold egress
  rw [laterBody, ends]
  dsimp only
  rw [show FMap.get? _ (⟨r.ends.saddr, r.ends.daddr, id, l4'.transport.proto⟩ : FragKey) = _ from follows]

section Inputs

/-- Two VIPs that share a backend. -/
def sharingVIPs : List Op :=
  [.upsertVIP (plainVIP "10.0.0.1" ["10.0.1.1"]), .upsertVIP (plainVIP "10.0.0.2" ["10.0.1.1"])]

/-- A node that serves them. -/
def sharingNode : Node := (Node.start plainNode plainMaps).run (calmly sharingVIPs)

/-- A segment from a client to a VIP. -/
def clientPacket (daddr : UInt32) : Packet :=
  ⟨.v4 0x0909090a daddr, .segment ⟨.tcp false, htons 4000, htons 80⟩ none, 60, 14, true⟩

/-- The backend's answer to the client. -/
def backendAnswer : Packet :=
  ⟨.v4 0x0101000a 0x0909090a, .segment ⟨.tcp false, htons 8080, htons 4000⟩ none, 60, 14, true⟩

/-- Where the two VIPs send their packets. -/
def sharingTarget (sid : Nat) (daddr : UInt32) : SoleTarget :=
  ⟨sid, 0, .nat, ⟨.v4 daddr, htons 80, 6⟩, ⟨.v4 0x0101000a, htons 8080, Mac.zero⟩, .healthy⟩

theorem sharingNode_targets :
    sharingNode.Sound ∧
      sharingNode.plane.soleTarget "10.0.0.1:80:tcp" = some (sharingTarget 0 0x0100000a) ∧
      sharingNode.plane.soleTarget "10.0.0.2:80:tcp" = some (sharingTarget 1 0x0200000a) := by
  have rehearsed : ((rehearse (.new plainNode) sharingVIPs).map fun q =>
      (q.soleTarget "10.0.0.1:80:tcp", q.soleTarget "10.0.0.2:80:tcp")) =
      some (some (sharingTarget 0 0x0100000a), some (sharingTarget 1 0x0200000a)) := by
    decide +kernel
  obtain ⟨q, planes, targets⟩ := Option.map_eq_some_iff.mp rehearsed
  obtain ⟨_, sound, plane⟩ := rehearse_run (Node.sound_start plainNode plainMaps) planes
  obtain ⟨first, second⟩ := Prod.mk.inj targets
  unfold sharingNode
  rw [plane]
  exact ⟨sound, first, second⟩

theorem sharingNode_flow : sharingNode.maps.flow.affinity = FMap.empty ∧
    sharingNode.maps.flow.natReverse = FMap.empty := by
  obtain ⟨drops, flow⟩ := run_calmly_flow (Node.start plainNode plainMaps) sharingVIPs
  unfold sharingNode
  rw [flow]
  exact ⟨rfl, rfl⟩

end Inputs

theorem answer_after_clash {n : Node} (sound : n.Sound)
    (first : n.plane.soleTarget "10.0.0.1:80:tcp" = some (sharingTarget 0 0x0100000a))
    (second : n.plane.soleTarget "10.0.0.2:80:tcp" = some (sharingTarget 1 0x0200000a))
    (noAffinity : n.maps.flow.affinity = FMap.empty) :
    ∃ d, (ingress n.maps quietContext (clientPacket 0x0100000a)).1 = .forward d ∧
      d.mode = .nat ∧
      Answers (clientPacket 0x0100000a) ⟨.tcp false, htons 4000, htons 80⟩ d backendAnswer
        ⟨.tcp false, htons 8080, htons 4000⟩ none ∧
      (egress (n.maps.exchanges [.request quietContext (clientPacket 0x0100000a),
        .request quietContext (clientPacket 0x0200000a)]).flow backendAnswer).1 =
          ⟨.v4 0x0200000a, some (htons 80)⟩ := by
  obtain ⟨forwarded, affinity, _, reverse⟩ := sound.imaged.translates_sole (clientPacket 0x0100000a)
    first rfl rfl rfl (by decide) rfl rfl
    (by rw [affineBackend, noAffinity]; rfl) quietContext
  refine ⟨_, forwarded, rfl, ⟨rfl, rfl, rfl, rfl, rfl, rfl⟩, ?_⟩
  -- The second flow has no entry of its own, so it goes to the shared backend as well.
  obtain ⟨_, _, _, reverse'⟩ :=
    (sound.imaged.receive quietContext (clientPacket 0x0100000a)).translates_sole
      (clientPacket 0x0200000a) second rfl rfl rfl (by decide) rfl rfl
      (by rw [affineBackend, affinity, noAffinity]; rfl) quietContext
  have stored : (n.maps.exchanges [.request quietContext (clientPacket 0x0100000a),
      .request quietContext (clientPacket 0x0200000a)]).flow.natReverse.get?
        (replyKey backendAnswer ⟨.tcp false, htons 8080, htons 4000⟩) =
        some ⟨.v4 0x0200000a, htons 80⟩ := by
    change ((n.maps.receive quietContext (clientPacket 0x0100000a)).receive quietContext
      (clientPacket 0x0200000a)).flow.natReverse.get? _ = _
    rw [reverse']
    exact FMap.get?_insert_self _ _ _
  rw [egress_of_reverse rfl stored]

/--
A client that uses one port towards two VIPs with a backend in common gets an answer from the wrong one.

The second request goes to the same backend endpoint and overwrites the reverse entry of the first.
-/
theorem reply_leaves_from_other_vip :
    ∃ d, (ingress sharingNode.maps quietContext (clientPacket 0x0100000a)).1 = .forward d ∧
      d.mode = .nat ∧
      Answers (clientPacket 0x0100000a) ⟨.tcp false, htons 4000, htons 80⟩ d backendAnswer
        ⟨.tcp false, htons 8080, htons 4000⟩ none ∧
      (egress (sharingNode.maps.exchanges [.request quietContext (clientPacket 0x0100000a),
        .request quietContext (clientPacket 0x0200000a)]).flow backendAnswer).1 =
          ⟨.v4 0x0200000a, some (htons 80)⟩ := by
  obtain ⟨sound, first, second⟩ := sharingNode_targets
  exact answer_after_clash sound first second sharingNode_flow.1

theorem first_request_clear (noReverse : m.flow.natReverse = FMap.empty) (ctx : Context)
    (pkt : Packet) : Run.Along Maps.exchange NoClash m ([] ++ .request ctx pkt :: []) := by
  refine ⟨?_, trivial⟩
  intro l4 firstOf sid id be val _ _ _ _ stored
  rw [noReverse] at stored
  cases stored

/-- With the first of the two requests alone, the answer leaves from the VIP it was sent to. -/
theorem replies_leave_from_requested_vip_alone :
    ∃ d, (ingress sharingNode.maps quietContext (clientPacket 0x0100000a)).1 = .forward d ∧
      (egress (sharingNode.maps.exchanges
        ([] ++ .request quietContext (clientPacket 0x0100000a) :: [])).flow backendAnswer).1 =
          ⟨.v4 0x0100000a, some (htons 80)⟩ := by
  have alone : ∀ {n : Node} {d : Delivery}, n.maps.flow.natReverse = FMap.empty →
      (ingress n.maps quietContext (clientPacket 0x0100000a)).1 = .forward d → d.mode = .nat →
      Answers (clientPacket 0x0100000a) ⟨.tcp false, htons 4000, htons 80⟩ d backendAnswer
        ⟨.tcp false, htons 8080, htons 4000⟩ none →
      (egress (n.maps.exchanges
        ([] ++ .request quietContext (clientPacket 0x0100000a) :: [])).flow backendAnswer).1 =
          ⟨.v4 0x0100000a, some (htons 80)⟩ := fun noReverse forwarded nat answers =>
    (replies_leave_from_requested_vip (first_request_clear noReverse _ _) rfl forwarded nat answers).1
  obtain ⟨sound, first, second⟩ := sharingNode_targets
  obtain ⟨noAffinity, noReverse⟩ := sharingNode_flow
  obtain ⟨d, forwarded, nat, answers, _⟩ := answer_after_clash sound first second noAffinity
  exact ⟨d, forwarded, alone noReverse forwarded nat answers⟩

end Rivora

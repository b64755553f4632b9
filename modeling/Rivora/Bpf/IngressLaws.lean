import Rivora.Bpf.XdpIngress

/-! What the ingress program does with a packet, case by case. -/

namespace Rivora

variable {cfg : ServiceConfig} {id : Nat} {d : Delivery}

namespace Flow

variable (f : Flow) (i bytes sid : Nat) (dropped : Bool) (reason : DropReason)

/-- Only the traffic counters change. -/
theorem bumpStats_eq :
    f.bumpStats i bytes dropped = { f with stats := (f.bumpStats i bytes dropped).stats } := by
  unfold bumpStats
  split <;> rfl

/-- Only the drop counters change. -/
theorem bumpDrop_eq : f.bumpDrop sid reason = { f with dropStats := (f.bumpDrop sid reason).dropStats } := by
  unfold bumpDrop
  split <;> rfl

@[simp] theorem bumpStats_affinity : (f.bumpStats i bytes dropped).affinity = f.affinity := by
  rw [bumpStats_eq]

@[simp] theorem bumpStats_frag : (f.bumpStats i bytes dropped).frag = f.frag := by
  rw [bumpStats_eq]

@[simp] theorem bumpStats_natReverse : (f.bumpStats i bytes dropped).natReverse = f.natReverse := by
  rw [bumpStats_eq]

@[simp] theorem bumpStats_fragRev : (f.bumpStats i bytes dropped).fragRev = f.fragRev := by
  rw [bumpStats_eq]

@[simp] theorem bumpStats_svcRlBuckets :
    (f.bumpStats i bytes dropped).svcRlBuckets = f.svcRlBuckets := by
  rw [bumpStats_eq]

@[simp] theorem bumpStats_dropStats : (f.bumpStats i bytes dropped).dropStats = f.dropStats := by
  rw [bumpStats_eq]

@[simp] theorem bumpDrop_affinity : (f.bumpDrop sid reason).affinity = f.affinity := by
  rw [bumpDrop_eq]

@[simp] theorem bumpDrop_frag : (f.bumpDrop sid reason).frag = f.frag := by
  rw [bumpDrop_eq]

@[simp] theorem bumpDrop_natReverse : (f.bumpDrop sid reason).natReverse = f.natReverse := by
  rw [bumpDrop_eq]

@[simp] theorem bumpDrop_fragRev : (f.bumpDrop sid reason).fragRev = f.fragRev := by
  rw [bumpDrop_eq]

@[simp] theorem bumpDrop_svcRlBuckets : (f.bumpDrop sid reason).svcRlBuckets = f.svcRlBuckets := by
  rw [bumpDrop_eq]

@[simp] theorem bumpDrop_stats : (f.bumpDrop sid reason).stats = f.stats := by
  rw [bumpDrop_eq]

end Flow

/-- Counting a delivery changes the traffic counters only. -/
theorem countDelivered_eq (pkt : Packet) (id : Nat) (f : Flow) :
    countDelivered pkt id f = { f with stats := (countDelivered pkt id f).stats } := by
  unfold countDelivered
  rw [Flow.bumpStats_eq, Flow.bumpStats_eq]

/-- Remembering a datagram changes the table of fragments only. -/
theorem rememberFragment_eq (ends : Endpoints) (l4 : L4) (firstOf : Option UInt32) (val : FragVal)
    (f : Flow) : rememberFragment ends l4 firstOf val f =
      { f with frag := (rememberFragment ends l4 firstOf val f).frag } := by
  cases firstOf <;> rfl

/-- The limiters of a service change their buckets and nothing else. -/
theorem rateLimitExceeded_eq (m : Maps) (ctx : Context) (sid : Nat) (saddr : Addr) :
    (rateLimitExceeded m ctx sid saddr).2 =
      { m.flow with
        rlBuckets := (rateLimitExceeded m ctx sid saddr).2.rlBuckets
        svcRlBuckets := (rateLimitExceeded m ctx sid saddr).2.svcRlBuckets } := by
  unfold rateLimitExceeded
  dsimp only
  split
  · rfl
  · split <;> rfl

/-- What the limiter says about a packet, and the flow maps after it: only a SYN is limited. -/
def limiter (m : Maps) (ctx : Context) (pkt : Packet) (l4 : L4) (sid : Nat) : Bool × Flow :=
  if l4.transport.isSyn then rateLimitExceeded m ctx sid pkt.ends.saddr else (false, m.flow)

/-- So does the check for a SYN. -/
theorem limiter_eq (m : Maps) (ctx : Context) (pkt : Packet) (l4 : L4) (sid : Nat) :
    (limiter m ctx pkt l4 sid).2 =
      { m.flow with
        rlBuckets := (limiter m ctx pkt l4 sid).2.rlBuckets
        svcRlBuckets := (limiter m ctx pkt l4 sid).2.svcRlBuckets } := by
  unfold limiter
  split
  · exact rateLimitExceeded_eq m ctx sid pkt.ends.saddr
  · rfl

/-- A service has parameters, backends and slots. -/
structure Serves (m : Maps) (sid : Nat) (cfg : ServiceConfig) : Prop where
  config : m.serviceConfig? sid = some cfg
  backends : cfg.backendCount ≠ 0
  slots : cfg.maglevSize ≠ 0

/-- A configuration that is found is that of a service ID within the map. -/
theorem serviceConfig?_eq_some {m : Maps} {sid : Nat}
    (found : m.serviceConfig? sid = some cfg) : sid < maxVIPs ∧ m.serviceConfig sid = cfg := by
  unfold Maps.serviceConfig? at found
  split at found
  · rename_i inside
    exact ⟨inside, Option.some.inj found⟩
  · cases found

/-- A backend that is picked is healthy and stands in the service's table. -/
theorem pickBackend_spec {m : Maps} {offset size start : Nat} (slots : size ≠ 0)
    (picked : pickBackend m offset size start = some id) :
    m.backendHealth? id = some .healthy ∧
      ∃ i < size, offset + i < maglevM ∧ m.maglevTable (offset + i) = id := by
  -- The search is over slots taken modulo the size, so each lies in the range.
  obtain ⟨slot, probed, found⟩ := List.exists_of_findSome?_eq_some picked
  obtain ⟨i, _, rfl⟩ := List.mem_map.mp probed
  obtain ⟨read, healthy⟩ := Option.filter_eq_some_iff.mp found
  refine ⟨by simpa using healthy, (start + i) % size, Nat.mod_lt _ (Nat.pos_of_ne_zero slots), ?_⟩
  unfold Maps.maglevTable? at read
  split at read
  · rename_i inside
    exact ⟨inside, Option.some.inj read⟩
  · cases read

/-- A chosen backend is the one the affinity entry names, or one from the table that is noted. -/
inductive Chosen (m : Maps) (cfg : ServiceConfig) (ends : Endpoints) (l4 : L4) (f : Flow) (id : Nat) :
    Flow → Prop
  | affine (entry : affineBackend m (connKey ends l4) = some id) : Chosen m cfg ends l4 f id f
  | picked (none : affineBackend m (connKey ends l4) = none)
    (slot : pickBackend m cfg.maglevOffset cfg.maglevSize (localSlot cfg ends l4) = some id) :
    Chosen m cfg ends l4 f id { f with affinity := f.affinity.insert (connKey ends l4) id }

/-- A backend is the connection's own, or is picked from the table. -/
theorem chooseBackend_chosen {m : Maps} {ends : Endpoints} {l4 : L4} {f f' : Flow}
    (choice : chooseBackend m cfg ends l4 f = some (id, f')) :
    Chosen m cfg ends l4 f id f' := by
  unfold chooseBackend at choice
  cases entry : affineBackend m (connKey ends l4) with
  | some found =>
    rw [entry] at choice
    cases choice
    exact .affine entry
  | none =>
    rw [entry] at choice
    obtain ⟨picked, slot, same⟩ := Option.map_eq_some_iff.mp choice
    cases same
    exact .picked entry slot

/-- The choice changes the table of connections only. -/
theorem Chosen.flow {m : Maps} {ends : Endpoints} {l4 : L4} {f f' : Flow}
    (chosen : Chosen m cfg ends l4 f id f') : f' = { f with affinity := f'.affinity } := by
  cases chosen <;> rfl

/-- No outer source address is configured for the family of a packet. -/
def noTunnelSource (m : Maps) : Endpoints → Bool
  | .v4 _ _ => decide (m.tunnelConfig.src4 = 0)
  | .v6 _ _ => decide (m.tunnelConfig.src6 = Vector.replicate 16 0)

/-- Whether a mode encapsulates. -/
def ServiceMode.isTunnel : ServiceMode → Bool
  | .tunnelIPIP | .tunnelGRE => true
  | .dsr | .nat => false

/-- The route does not carry an encapsulated packet, and the packet must not be fragmented. -/
structure Refuses (ctx : Context) (pkt : Packet) (mtu : Nat) : Prop where
  untagged : pkt.l2Len = 14
  route : ctx.route = .tooBig mtu
  whole : pkt.ends.isV4 = false ∨ pkt.dontFragment = true

/-- A packet is long enough to be quoted, and its frame for the answer, which can then be cut to size. -/
def Packet.Answerable (pkt : Packet) (ctx : Context) (mode : ServiceMode) : Prop :=
  pkt.l2Len + (if pkt.ends.isV4 then 28 else 48) ≤ pkt.length ∧
    pkt.l2Len + (if pkt.ends.isV4 then 56 else 96) ≤ pkt.length + encapLen pkt.ends mode ∧ ctx.trim = true

/-- Every way the forwarding step of a mode other than NAT can end. -/
inductive Sent (m : Maps) (ctx : Context) (pkt : Packet) (d : Delivery) (f : Flow) :
    Verdict × Flow → Prop
  | forward {d' : Delivery} (same : d' = { d with smac := d'.smac }) :
    Sent m ctx pkt d f (.forward d', f)
  | pass (tunnel : d.mode.isTunnel = true)
    (frame : (pkt.l2Len ≠ 14 ∧ pkt.l2Len ≠ 18 ∧ pkt.l2Len ≠ 22) ∨ pkt.length < 22) :
    Sent m ctx pkt d f (.pass, f)
  | noSource (tunnel : d.mode.isTunnel = true) (missing : noTunnelSource m pkt.ends = true) :
    Sent m ctx pkt d f (.drop, f.bumpStats 0 0 true)
  | noRoom (tunnel : d.mode.isTunnel = true) (full : ctx.headroom = false) :
    Sent m ctx pkt d f (.drop, f)
  | unanswered {mtu : Nat} (tunnel : d.mode.isTunnel = true) (refuses : Refuses ctx pkt mtu)
    (unable : ¬ pkt.Answerable ctx d.mode) : Sent m ctx pkt d f (.drop, f)
  | tooBig {mtu mtu' : Nat} (tunnel : d.mode.isTunnel = true) (refuses : Refuses ctx pkt mtu)
    (able : pkt.Answerable ctx d.mode) : Sent m ctx pkt d f (.tooBig mtu', f)

/-- Sending changes the traffic counters only. -/
theorem Sent.flow {m : Maps} {ctx : Context} {pkt : Packet} {f : Flow}
    {outcome : Verdict × Flow} (sent : Sent m ctx pkt d f outcome) :
    outcome.2 = { f with stats := outcome.2.stats } := by
  cases sent with
  | noSource => exact f.bumpStats_eq 0 0 true
  | _ => rfl

/-- The answer to a packet that is too big, in either family. -/
def tooBigAnswer (ctx : Context) (pkt : Packet) (mode : ServiceMode) (mtu : Nat) : Verdict :=
  if pkt.ends.isV4 then fragNeededV4 ctx pkt (encapLen pkt.ends mode) mtu
  else packetTooBigV6 ctx pkt (encapLen pkt.ends mode) mtu

/-- A packet is answered if it is long enough and can be cut, and dropped otherwise. -/
theorem answerTooBig_cases (quote reply least : Nat) (ctx : Context) (pkt : Packet) (encap mtu : Nat) :
    ((pkt.l2Len + quote ≤ pkt.length ∧ pkt.l2Len + reply ≤ pkt.length + encap ∧ ctx.trim = true) ∧
        ∃ mtu', answerTooBig quote reply least ctx pkt encap mtu = .tooBig mtu') ∨
      (¬ (pkt.l2Len + quote ≤ pkt.length ∧ pkt.l2Len + reply ≤ pkt.length + encap ∧ ctx.trim = true) ∧
        answerTooBig quote reply least ctx pkt encap mtu = .drop) := by
  unfold answerTooBig
  split
  · rename_i short
    refine Or.inr ⟨fun able => ?_, rfl⟩
    rcases short with unread | unwritten | uncut
    · omega
    · omega
    · cases uncut.symm.trans able.2.2
  · rename_i long
    rw [not_or, not_or, Nat.not_lt, Nat.not_lt, Bool.not_eq_false] at long
    exact Or.inl ⟨long, _, rfl⟩

/-- An answer is sent exactly if it can be built. -/
theorem tooBigAnswer_cases (ctx : Context) (pkt : Packet) (mode : ServiceMode) (mtu : Nat) :
    (pkt.Answerable ctx mode ∧ ∃ mtu', tooBigAnswer ctx pkt mode mtu = .tooBig mtu') ∨
      (¬ pkt.Answerable ctx mode ∧ tooBigAnswer ctx pkt mode mtu = .drop) := by
  unfold tooBigAnswer Packet.Answerable
  cases pkt.ends.isV4 with
  | true => exact answerTooBig_cases 28 56 68 ctx pkt _ mtu
  | false => exact answerTooBig_cases 48 96 1280 ctx pkt _ mtu

/-- The two families differ in the length of the outer header, and in who may be answered. -/
theorem tunnelTo_eq (m : Maps) (ctx : Context) (pkt : Packet) (d : Delivery) (f : Flow) :
    tunnelTo m ctx pkt d f =
      if (pkt.l2Len ≠ 14 ∧ pkt.l2Len ≠ 18 ∧ pkt.l2Len ≠ 22) ∨ pkt.length < 22 then (.pass, f)
      else if noTunnelSource m pkt.ends then (.drop, f.bumpStats 0 0 true)
      else if !ctx.headroom then (.drop, f)
      else if pkt.l2Len ≠ 14 then (.forward d, f)
      else
        match ctx.route with
        | .tooBig mtu =>
          if !pkt.ends.isV4 || pkt.dontFragment then (tooBigAnswer ctx pkt d.mode mtu, f) else (.forward d, f)
        | _ => (.forward d, f) := by
  obtain ⟨ends, body, length, l2Len, dontFragment⟩ := pkt
  cases ends <;> rfl

/-- Every way out of the encapsulation. -/
theorem tunnelTo_sent (m : Maps) (ctx : Context) (pkt : Packet) (f : Flow)
    (tunnel : d.mode.isTunnel = true) : Sent m ctx pkt d f (tunnelTo m ctx pkt d f) := by
  rw [tunnelTo_eq]
  split
  · rename_i frame
    exact .pass tunnel frame
  split
  · rename_i missing
    exact .noSource tunnel missing
  split
  · rename_i full
    exact .noRoom tunnel (by simpa using full)
  split
  · exact .forward rfl
  rename_i untagged
  split
  · rename_i mtu route
    split
    · rename_i whole
      have refuses : Refuses ctx pkt mtu := ⟨by simpa using untagged, route, by simpa using whole⟩
      rcases tooBigAnswer_cases ctx pkt d.mode mtu with ⟨able, _, answer⟩ | ⟨unable, answer⟩
      · rw [answer]
        exact .tooBig tunnel refuses able
      · rw [answer]
        exact .unanswered tunnel refuses unable
    · exact .forward rfl
  · exact .forward rfl

/-- Every way out without translation. -/
theorem forwardTo_sent (m : Maps) (ctx : Context) (pkt : Packet) (d : Delivery) (f : Flow)
    (notNat : d.mode ≠ .nat) : Sent m ctx pkt d f (forwardTo m ctx pkt d f) := by
  unfold forwardTo
  cases mode : d.mode with
  | dsr => exact .forward (by rw [mode])
  | nat => exact absurd mode notNat
  | tunnelIPIP => exact tunnelTo_sent m ctx pkt f (by rw [mode]; rfl)
  | tunnelGRE => exact tunnelTo_sent m ctx pkt f (by rw [mode]; rfl)

/-- Hand a packet without a transport header to a backend: only its address is rewritten. -/
def follow (m : Maps) (ctx : Context) (pkt : Packet) (cfg : ServiceConfig) (sid id : Nat)
    (be : BackendInfo) : Verdict × Flow :=
  let f := countDelivered pkt id m.flow
  let d : Delivery := ⟨id, sid, be, cfg.mode, pkt.ends.daddr, none, none⟩
  match cfg.mode with
  | .nat => (.forward { d with daddr := be.addr }, f)
  | _ => forwardTo m ctx pkt d f

/-- The port a translated packet goes to: its own for a range VIP, else the backend's. -/
def backendPort (cfg : ServiceConfig) (l4 : L4) (be : BackendInfo) : UInt16 :=
  if cfg.range then l4.dport else be.port

/-- The reply direction of a translated packet. -/
def reverseKey (cfg : ServiceConfig) (pkt : Packet) (l4 : L4) (be : BackendInfo) : NATReverseKey :=
  ⟨be.addr, pkt.ends.saddr, backendPort cfg l4 be, l4.sport, l4.transport.proto⟩

/-- Every way a packet with a transport header is handed to its backend. -/
inductive Handed (m : Maps) (ctx : Context) (pkt : Packet) (l4 : L4) (cfg : ServiceConfig)
    (sid id : Nat) (be : BackendInfo) (f : Flow) : Verdict × Flow → Prop
  | translated (mode : cfg.mode = .nat) :
    Handed m ctx pkt l4 cfg sid id be f
      (.forward ⟨id, sid, be, cfg.mode, be.addr, some (backendPort cfg l4 be), none⟩,
        { f with natReverse := f.natReverse.insert (reverseKey cfg pkt l4 be) ⟨pkt.ends.daddr, l4.dport⟩ })
  | direct {outcome : Verdict × Flow} (mode : cfg.mode ≠ .nat)
    (sent : Sent m ctx pkt ⟨id, sid, be, cfg.mode, pkt.ends.daddr, some l4.dport, none⟩ f outcome) :
    Handed m ctx pkt l4 cfg sid id be f outcome

/-- Every way out of handing a packet to its backend. -/
theorem deliver_handed (m : Maps) (ctx : Context) (pkt : Packet) (l4 : L4) (cfg : ServiceConfig)
    (sid id : Nat) (be : BackendInfo) (f : Flow) :
    Handed m ctx pkt l4 cfg sid id be f (deliver m ctx pkt l4 cfg sid id be f) := by
  by_cases mode : cfg.mode = .nat
  · have translated : Handed m ctx pkt l4 cfg sid id be f _ := .translated mode
    unfold deliver
    simp only [mode] at translated ⊢
    exact translated
  · refine .direct mode ?_
    unfold deliver
    split
    · rename_i nat
      exact absurd nat mode
    · exact forwardTo_sent m ctx pkt _ f mode

/-- A packet without a transport header is sent on, or refused by the encapsulation. -/
inductive FollowEnds (m : Maps) (ctx : Context) (pkt : Packet) (cfg : ServiceConfig) (sid id : Nat)
    (be : BackendInfo) : Verdict × Flow → Prop
  | translated (mode : cfg.mode = .nat) :
    FollowEnds m ctx pkt cfg sid id be
      (.forward ⟨id, sid, be, cfg.mode, be.addr, none, none⟩, countDelivered pkt id m.flow)
  | direct {outcome : Verdict × Flow} (mode : cfg.mode ≠ .nat)
    (sent : Sent m ctx pkt ⟨id, sid, be, cfg.mode, pkt.ends.daddr, none, none⟩
      (countDelivered pkt id m.flow) outcome) : FollowEnds m ctx pkt cfg sid id be outcome

/-- Every way out for a packet that follows an earlier one. -/
theorem follow_ends (m : Maps) (ctx : Context) (pkt : Packet) (cfg : ServiceConfig) (sid id : Nat)
    (be : BackendInfo) : FollowEnds m ctx pkt cfg sid id be (follow m ctx pkt cfg sid id be) := by
  by_cases mode : cfg.mode = .nat
  · have translated : FollowEnds m ctx pkt cfg sid id be _ := .translated mode
    unfold follow
    simp only [mode] at translated ⊢
    exact translated
  · refine .direct mode ?_
    unfold follow
    dsimp only
    split
    · rename_i nat
      exact absurd nat mode
    · exact forwardTo_sent m ctx pkt _ _ mode

/-- Every way a packet with a transport header can end. -/
inductive SegmentEnds (m : Maps) (ctx : Context) (pkt : Packet) (l4 : L4) (firstOf : Option UInt32) :
    Verdict × Flow → Prop
  | unmatched (none : m.service pkt.ends.daddr l4.dport l4.transport.proto = none) :
    SegmentEnds m ctx pkt l4 firstOf (.pass, m.flow)
  | limited {sid : Nat} (matched : m.service pkt.ends.daddr l4.dport l4.transport.proto = some sid)
    (exceeded : (limiter m ctx pkt l4 sid).1 = true) :
    SegmentEnds m ctx pkt l4 firstOf
      (.drop, (((limiter m ctx pkt l4 sid).2).bumpStats 0 0 true).bumpDrop sid .rateLimited)
  | unserved {sid : Nat} (matched : m.service pkt.ends.daddr l4.dport l4.transport.proto = some sid)
    (admitted : (limiter m ctx pkt l4 sid).1 = false) (missing : ∀ cfg, ¬ Serves m sid cfg) :
    SegmentEnds m ctx pkt l4 firstOf (.pass, (limiter m ctx pkt l4 sid).2.bumpDrop sid .unserved)
  | noBackend {sid : Nat} {cfg : ServiceConfig}
    (matched : m.service pkt.ends.daddr l4.dport l4.transport.proto = some sid)
    (admitted : (limiter m ctx pkt l4 sid).1 = false) (serves : Serves m sid cfg)
    (none : chooseBackend m cfg pkt.ends l4 (limiter m ctx pkt l4 sid).2 = none) :
    SegmentEnds m ctx pkt l4 firstOf
      (.drop, (((limiter m ctx pkt l4 sid).2).bumpStats 0 0 true).bumpDrop sid .noBackend)
  | unknown {sid id : Nat} {cfg : ServiceConfig} {f : Flow}
    (matched : m.service pkt.ends.daddr l4.dport l4.transport.proto = some sid)
    (admitted : (limiter m ctx pkt l4 sid).1 = false) (serves : Serves m sid cfg)
    (chosen : Chosen m cfg pkt.ends l4 (limiter m ctx pkt l4 sid).2 id f)
    (absent : m.backend.get? ⟨pkt.ends.isV4, id⟩ = none) :
    SegmentEnds m ctx pkt l4 firstOf (.pass, f.bumpDrop sid .unserved)
  | delivered {sid id : Nat} {cfg : ServiceConfig} {f : Flow} {be : BackendInfo}
    {outcome : Verdict × Flow}
    (matched : m.service pkt.ends.daddr l4.dport l4.transport.proto = some sid)
    (admitted : (limiter m ctx pkt l4 sid).1 = false) (serves : Serves m sid cfg)
    (chosen : Chosen m cfg pkt.ends l4 (limiter m ctx pkt l4 sid).2 id f)
    (entry : m.backend.get? ⟨pkt.ends.isV4, id⟩ = some be)
    (handed : Handed m ctx pkt l4 cfg sid id be
      (rememberFragment pkt.ends l4 firstOf ⟨id, sid⟩ (countDelivered pkt id f)) outcome) :
    SegmentEnds m ctx pkt l4 firstOf outcome

/-- Every way out for a packet with a transport header. -/
theorem handleSegment_ends (m : Maps) (ctx : Context) (pkt : Packet) (l4 : L4)
    (firstOf : Option UInt32) :
    SegmentEnds m ctx pkt l4 firstOf (handleSegment m ctx pkt l4 firstOf) := by
  -- The cases are the early returns of the program, in the order of the source.
  unfold handleSegment
  cases matched : m.service pkt.ends.daddr l4.dport l4.transport.proto with
  | none => exact .unmatched matched
  | some sid =>
    change SegmentEnds m ctx pkt l4 firstOf
      (if (limiter m ctx pkt l4 sid).1 then
        (.drop, (((limiter m ctx pkt l4 sid).2).bumpStats 0 0 true).bumpDrop sid .rateLimited)
      else serve m ctx pkt l4 firstOf sid (limiter m ctx pkt l4 sid).2)
    cases admitted : (limiter m ctx pkt l4 sid).1 with
    | true => exact .limited matched admitted
    | false =>
      simp only [Bool.false_eq_true, if_false, serve]
      cases config : m.serviceConfig? sid with
      | none =>
        refine .unserved matched admitted fun cfg serves => ?_
        cases config.symm.trans serves.config
      | some cfg =>
        dsimp only
        split
        · rename_i empty
          refine .unserved matched admitted fun cfg' serves => ?_
          cases config.symm.trans serves.config
          exact empty.elim serves.backends serves.slots
        · rename_i filled
          obtain ⟨backends, slots⟩ := not_or.mp filled
          have serves : Serves m sid cfg := ⟨config, backends, slots⟩
          cases choice : chooseBackend m cfg pkt.ends l4 (limiter m ctx pkt l4 sid).2 with
          | none => exact .noBackend matched admitted serves choice
          | some pair =>
            obtain ⟨id, f⟩ := pair
            dsimp only
            cases entry : m.backend.get? ⟨pkt.ends.isV4, id⟩ with
            | none => exact .unknown matched admitted serves (chooseBackend_chosen choice) entry
            | some be =>
              exact .delivered matched admitted serves (chooseBackend_chosen choice) entry
                (deliver_handed ..)

/-- Every way a fragment without a transport header can end. -/
inductive LaterEnds (m : Maps) (ctx : Context) (pkt : Packet) (id : UInt32) (proto : UInt8) :
    Verdict × Flow → Prop
  | passed : LaterEnds m ctx pkt id proto (.pass, m.flow)
  | dead {val : FragVal} (first : m.flow.frag.get? ⟨pkt.ends.saddr, pkt.ends.daddr, id, proto⟩ = some val)
    (down : m.alive val.backendID = false) :
    LaterEnds m ctx pkt id proto (.drop, m.flow.bumpStats 0 0 true)
  | followed {val : FragVal} {cfg : ServiceConfig} {be : BackendInfo} {outcome : Verdict × Flow}
    (first : m.flow.frag.get? ⟨pkt.ends.saddr, pkt.ends.daddr, id, proto⟩ = some val)
    (config : m.serviceConfig? val.serviceID = some cfg) (alive : m.alive val.backendID = true)
    (entry : m.backend.get? ⟨pkt.ends.isV4, val.backendID⟩ = some be)
    (followed : FollowEnds m ctx pkt cfg val.serviceID val.backendID be outcome) :
    LaterEnds m ctx pkt id proto outcome

/-- Every way out for a later fragment. -/
theorem handleLaterFragment_ends (m : Maps) (ctx : Context) (pkt : Packet) (id : UInt32)
    (proto : UInt8) : LaterEnds m ctx pkt id proto (handleLaterFragment m ctx pkt id proto) := by
  unfold handleLaterFragment
  cases first : m.flow.frag.get? ⟨pkt.ends.saddr, pkt.ends.daddr, id, proto⟩ with
  | none => exact .passed
  | some val =>
    dsimp only
    cases config : m.serviceConfig? val.serviceID with
    | none => exact .passed
    | some cfg =>
      dsimp only
      cases alive : m.alive val.backendID with
      | false => exact .dead first alive
      | true =>
        simp only [Bool.not_true, Bool.false_eq_true, if_false]
        cases entry : m.backend.get? ⟨pkt.ends.isV4, val.backendID⟩ with
        | none => exact .passed
        | some be => exact .followed first config alive entry (follow_ends ..)

/-- Every way an ICMP error can end. -/
inductive IcmpEnds (m : Maps) (ctx : Context) (pkt : Packet) (quoted : Endpoints) (l4 : L4) :
    Verdict × Flow → Prop
  | passed : IcmpEnds m ctx pkt quoted l4 (.pass, m.flow)
  | followed {sid id : Nat} {cfg : ServiceConfig} {be : BackendInfo} {outcome : Verdict × Flow}
    (about : quoted.saddr = pkt.ends.daddr)
    (matched : m.service quoted.saddr l4.sport l4.transport.proto = some sid)
    (config : m.serviceConfig? sid = some cfg)
    (affine : affineBackend m
      ⟨quoted.daddr, quoted.saddr, l4.dport, l4.sport, l4.transport.proto⟩ = some id)
    (entry : m.backend.get? ⟨pkt.ends.isV4, id⟩ = some be)
    (followed : FollowEnds m ctx pkt cfg sid id be outcome) :
    IcmpEnds m ctx pkt quoted l4 outcome

/-- Every way out for an ICMP error. -/
theorem handleIcmp_ends (m : Maps) (ctx : Context) (pkt : Packet) (quoted : Endpoints) (l4 : L4) :
    IcmpEnds m ctx pkt quoted l4 (handleIcmp m ctx pkt quoted l4) := by
  unfold handleIcmp
  split
  · exact .passed
  rename_i about
  cases matched : m.service quoted.saddr l4.sport l4.transport.proto with
  | none => exact .passed
  | some sid =>
    dsimp only
    cases config : m.serviceConfig? sid with
    | none => exact .passed
    | some cfg =>
      dsimp only
      cases affine : affineBackend m
          ⟨quoted.daddr, quoted.saddr, l4.dport, l4.sport, l4.transport.proto⟩ with
      | none => exact .passed
      | some id =>
        dsimp only
        cases entry : m.backend.get? ⟨pkt.ends.isV4, id⟩ with
        | none => exact .passed
        | some be =>
          exact .followed (Decidable.not_not.mp about) matched config affine entry (follow_ends ..)

/-- Every way a packet can end, by what it carries. -/
inductive IngressEnds (m : Maps) (ctx : Context) (pkt : Packet) : Verdict × Flow → Prop
  | other (body : pkt.body = .other) : IngressEnds m ctx pkt (.pass, m.flow)
  | segment {l4 : L4} {firstOf : Option UInt32} {outcome : Verdict × Flow}
    (body : pkt.body = .segment l4 firstOf) (ends : SegmentEnds m ctx pkt l4 firstOf outcome) :
    IngressEnds m ctx pkt outcome
  | later {id : UInt32} {proto : UInt8} {outcome : Verdict × Flow}
    (body : pkt.body = .laterFragment id proto) (ends : LaterEnds m ctx pkt id proto outcome) :
    IngressEnds m ctx pkt outcome
  | icmp {quoted : Endpoints} {l4 : L4} {outcome : Verdict × Flow}
    (body : pkt.body = .icmpError quoted l4) (ends : IcmpEnds m ctx pkt quoted l4 outcome) :
    IngressEnds m ctx pkt outcome

/-- Every way out of the ingress program. -/
theorem ingress_ends (m : Maps) (ctx : Context) (pkt : Packet) :
    IngressEnds m ctx pkt (ingress m ctx pkt) := by
  unfold ingress
  cases body : pkt.body with
  | other => exact .other body
  | segment l4 firstOf => exact .segment body (handleSegment_ends m ctx pkt l4 firstOf)
  | laterFragment id proto => exact .later body (handleLaterFragment_ends m ctx pkt id proto)
  | icmpError quoted l4 => exact .icmp body (handleIcmp_ends m ctx pkt quoted l4)

/-- Where a verdict comes from: an early return, a translation, or the forwarding step of another mode. -/
inductive Forwarding (m : Maps) (ctx : Context) (pkt : Packet) : Verdict → Prop
  | pass : Forwarding m ctx pkt .pass
  | drop : Forwarding m ctx pkt .drop
  | translated {d : Delivery} (mode : d.mode = .nat) : Forwarding m ctx pkt (.forward d)
  | sent {d : Delivery} {f : Flow} (mode : d.mode ≠ .nat) : Forwarding m ctx pkt (forwardTo m ctx pkt d f).1

section Forwarding

variable (m : Maps) (ctx : Context) (pkt : Packet)

/-- What follows an earlier packet is forwarded under the conditions of its mode. -/
theorem follow_forwarding (cfg : ServiceConfig) (sid id : Nat) (be : BackendInfo) :
    Forwarding m ctx pkt (follow m ctx pkt cfg sid id be).1 := by
  unfold follow
  dsimp only
  split
  · rename_i mode
    exact .translated mode
  · rename_i mode
    exact .sent mode

/-- So is what a service sends to a backend. -/
theorem serve_forwarding (l4 : L4) (firstOf : Option UInt32) (sid : Nat) (f : Flow) :
    Forwarding m ctx pkt (serve m ctx pkt l4 firstOf sid f).1 := by
  unfold serve
  split
  · exact .pass
  split
  · exact .pass
  dsimp only
  split
  · exact .drop
  split
  · exact .pass
  -- The packet is handed to its backend.
  unfold deliver
  dsimp only
  split
  · rename_i mode
    exact .translated mode
  · rename_i mode
    exact .sent mode

/-- So is a packet with a transport header. -/
theorem handleSegment_forwarding (l4 : L4) (firstOf : Option UInt32) :
    Forwarding m ctx pkt (handleSegment m ctx pkt l4 firstOf).1 := by
  unfold handleSegment
  split
  · exact .pass
  dsimp only
  split
  all_goals split
  all_goals first
    | exact .drop
    | exact serve_forwarding m ctx pkt l4 firstOf _ _

/-- So is every packet. -/
theorem ingress_forwarding : Forwarding m ctx pkt (ingress m ctx pkt).1 := by
  unfold ingress
  split
  · exact .pass
  · exact handleSegment_forwarding m ctx pkt _ _
  · unfold handleLaterFragment
    split
    · exact .pass
    split
    · exact .pass
    split
    · exact .drop
    split
    · exact .pass
    · exact follow_forwarding m ctx pkt _ _ _ _
  · unfold handleIcmp
    split
    · exact .pass
    split
    · exact .pass
    split
    · exact .pass
    split
    · exact .pass
    split
    · exact .pass
    · exact follow_forwarding m ctx pkt _ _ _ _

end Forwarding

/-- A frame long enough to grow, behind at most two VLAN tags. -/
structure Packet.Framed (pkt : Packet) : Prop where
  tags : pkt.l2Len = 14 ∨ pkt.l2Len = 18 ∨ pkt.l2Len = 22
  length : 22 ≤ pkt.length

/-- Nothing outside the program stops a packet from being encapsulated. -/
structure Unhindered (ctx : Context) (pkt : Packet) : Prop where
  headroom : ctx.headroom = true
  route : ∀ mtu, ¬ Refuses ctx pkt mtu

section Encapsulation

variable {m : Maps} {ctx : Context} {pkt : Packet}

/-- With a source address and nothing in the way, a packet is encapsulated. -/
theorem tunnelTo_forward (d : Delivery) (f : Flow) (framed : pkt.Framed)
    (source : noTunnelSource m pkt.ends = false) (fits : Unhindered ctx pkt) : (tunnelTo m ctx pkt d f).1 = .forward d := by
  have long : ¬ pkt.length < 22 := Nat.not_lt.mpr framed.length
  have tags : ¬ ((pkt.l2Len ≠ 14 ∧ pkt.l2Len ≠ 18 ∧ pkt.l2Len ≠ 22) ∨ pkt.length < 22) := by
    have := framed.tags
    omega
  rw [tunnelTo_eq, if_neg tags, if_neg (by simp [source]), if_neg (by simp [fits.headroom])]
  split
  · rfl
  -- Untagged, so the route was asked.
  rename_i untagged
  split
  · rename_i mtu route
    split
    · rename_i whole
      exact absurd ⟨by simpa using untagged, route, by simpa using whole⟩ (fits.route mtu)
    · rfl
  · rfl

/-- A packet that is encapsulated has a source address for it. -/
theorem source_of_forwarded (forwarded : (ingress m ctx pkt).1 = .forward d)
    (tunnel : d.mode.isTunnel = true) : noTunnelSource m pkt.ends = false := by
  have origin := ingress_forwarding m ctx pkt
  rw [forwarded] at origin
  generalize verdict : Verdict.forward d = v at origin
  cases origin with
  | pass => cases verdict
  | drop => cases verdict
  | translated nat =>
    cases verdict
    simp [nat, ServiceMode.isTunnel] at tunnel
  | @sent d' f mode =>
    unfold forwardTo at verdict
    split at verdict
    · rename_i dsr
      cases verdict
      simp [dsr, ServiceMode.isTunnel] at tunnel
    · rw [tunnelTo_eq] at verdict
      split at verdict
      · cases verdict
      split at verdict
      · cases verdict
      · rename_i source
        simpa using source

/-- With nothing in the way, a packet follows the earlier one to its backend. -/
theorem follow_forward {sid : Nat} {be : BackendInfo}
    (sendable : cfg.mode.isTunnel = true → pkt.Framed ∧ noTunnelSource m pkt.ends = false ∧ Unhindered ctx pkt) :
    ∃ d, (follow m ctx pkt cfg sid id be).1 = .forward d ∧ d.backendID = id ∧ d.backend = be ∧ d.mode = cfg.mode ∧
      (cfg.mode = .nat → d.daddr = be.addr) := by
  unfold follow
  dsimp only
  split
  · rename_i nat
    exact ⟨_, rfl, rfl, rfl, rfl, fun _ => rfl⟩
  rename_i direct
  unfold forwardTo
  dsimp only
  split
  · rename_i dsr
    exact ⟨_, rfl, rfl, rfl, rfl, fun nat => absurd nat direct⟩
  · -- Neither NAT nor DSR: one of the two encapsulations.
    rename_i tunnel
    have isTunnel : cfg.mode.isTunnel = true := by
      cases mode : cfg.mode with
      | nat => exact absurd mode direct
      | dsr => exact absurd mode tunnel
      | tunnelIPIP => rfl
      | tunnelGRE => rfl
    obtain ⟨framed, source, fits⟩ := sendable isTunnel
    exact ⟨_, tunnelTo_forward _ _ framed source fits, rfl, rfl, rfl, fun nat => absurd nat direct⟩

end Encapsulation

end Rivora

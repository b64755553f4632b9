import Rivora.Bpf.IngressLaws
import Rivora.Bpf.Rewrite

/-! Which packets the ingress program answers as too big. -/

namespace Rivora

/-- A packet that no node may answer with an error: an ICMP error, or a later fragment over IPv4. -/
def Packet.Unanswerable (pkt : Packet) : Prop :=
  match pkt.body with
  | .icmpError _ _ => True
  | .laterFragment _ _ => pkt.ends.isV4 = true
  | .other | .segment _ _ => False

/-- The mode of the service whose backend a packet without a header of its own connection is handed to. -/
def Maps.handsOn (m : Maps) (pkt : Packet) : Option ServiceMode :=
  match pkt.body with
  | .other | .segment _ _ => none
  | .laterFragment id proto => do
    let val ← m.flow.frag.get? ⟨pkt.ends.saddr, pkt.ends.daddr, id, proto⟩
    let cfg ← m.serviceConfig? val.serviceID
    if m.alive val.backendID then (m.backend.get? ⟨pkt.ends.isV4, val.backendID⟩).map fun _ => cfg.mode
    else none
  | .icmpError quoted l4 =>
    if quoted.saddr ≠ pkt.ends.daddr then none
    else do
      let sid ← m.service quoted.saddr l4.sport l4.transport.proto
      let cfg ← m.serviceConfig? sid
      let id ← affineBackend m ⟨quoted.daddr, quoted.saddr, l4.dport, l4.sport, l4.transport.proto⟩
      (m.backend.get? ⟨pkt.ends.isV4, id⟩).map fun _ => cfg.mode

/-- What it takes to answer a packet of a tunnel service as too big. -/
structure TunnelAnswers (m : Maps) (ctx : Context) (pkt : Packet) (mode : ServiceMode) : Prop where
  tunnel : mode.isTunnel = true
  length : 22 ≤ pkt.length
  source : noTunnelSource m pkt.ends = false
  headroom : ctx.headroom = true
  refuses : ∃ mtu, Refuses ctx pkt mtu
  able : pkt.Answerable ctx mode

section Answers

variable {m : Maps} {ctx : Context} {pkt : Packet} {d : Delivery} {f : Flow}

/-- The answer is behind the checks of the frame, the source address, the room, the tags and the route. -/
theorem tunnelTo_tooBig_iff (tunnel : d.mode.isTunnel = true) :
    (∃ mtu, (tunnelTo m ctx pkt d f).1 = .tooBig mtu) ↔ TunnelAnswers m ctx pkt d.mode := by
  rw [tunnelTo_eq]
  constructor
  · rintro ⟨mtu, answered⟩
    split at answered
    · cases answered
    rename_i framed
    split at answered
    · cases answered
    rename_i source
    split at answered
    · cases answered
    rename_i room
    split at answered
    · cases answered
    rename_i untagged
    split at answered
    · rename_i found route
      split at answered
      · rename_i whole
        rcases tooBigAnswer_cases ctx pkt d.mode found with ⟨able, _⟩ | ⟨_, dropped⟩
        · exact ⟨tunnel, by omega, by simpa using source, by simpa using room,
            ⟨found, by simpa using untagged, route, by simpa using whole⟩, able⟩
        · cases dropped.symm.trans answered
      · cases answered
    · cases answered
  · rintro ⟨_, length, source, headroom, ⟨mtu, untagged, route, whole⟩, able⟩
    have answers : (!pkt.ends.isV4 || pkt.dontFragment) = true := by simpa using whole
    rw [if_neg (by omega), if_neg (by simp [source]), if_neg (by simp [headroom]), if_neg (by simp [untagged]),
      route]
    dsimp only
    rw [if_pos answers]
    rcases tooBigAnswer_cases ctx pkt d.mode mtu with ⟨_, answer⟩ | ⟨unable, _⟩
    · exact answer
    · exact absurd able unable

/-- Only a packet that is encapsulated is answered. -/
theorem follow_tooBig_iff {cfg : ServiceConfig} {sid id : Nat} {be : BackendInfo} :
    (∃ mtu, (follow m ctx pkt cfg sid id be).1 = .tooBig mtu) ↔ TunnelAnswers m ctx pkt cfg.mode := by
  unfold follow forwardTo
  dsimp only
  -- In the other two modes neither side can hold.
  cases mode : cfg.mode with
  | nat | dsr =>
    constructor
    · rintro ⟨_, answered⟩
      cases answered
    · intro answers
      cases answers.tunnel
  | tunnelIPIP | tunnelGRE => exact tunnelTo_tooBig_iff (d := ⟨id, sid, be, _, pkt.ends.daddr, none, none⟩) rfl

/-- A later fragment or an ICMP error is answered if the backend it is handed to is one of a tunnel service. -/
theorem ingress_tooBig_iff (silent : pkt.Unanswerable) :
    (∃ mtu, (ingress m ctx pkt).1 = .tooBig mtu) ↔
      ∃ mode, m.handsOn pkt = some mode ∧ TunnelAnswers m ctx pkt mode := by
  -- Both sides read the same tables in the same order; only with a backend at hand is there anything to show.
  unfold ingress Maps.handsOn
  unfold Packet.Unanswerable at silent
  cases body : pkt.body with
  | other | segment =>
    rw [body] at silent
    exact silent.elim
  | laterFragment id proto =>
    unfold handleLaterFragment
    dsimp only
    cases m.flow.frag.get? ⟨pkt.ends.saddr, pkt.ends.daddr, id, proto⟩ with
    | none => simp
    | some val =>
      cases config : m.serviceConfig? val.serviceID with
      | none => simp [config]
      | some cfg =>
        cases alive : m.alive val.backendID with
        | false => simp [config, alive]
        | true =>
          cases entry : m.backend.get? ⟨pkt.ends.isV4, val.backendID⟩ with
          | none => simp [config, alive, entry]
          | some be =>
            simp only [config, alive, entry, Option.bind_eq_bind, Option.bind_some, Bool.not_true, Bool.false_eq_true,
              if_false, if_true, Option.map_some, Option.some.injEq, exists_eq_left']
            exact follow_tooBig_iff
  | icmpError quoted l4 =>
    unfold handleIcmp
    dsimp only
    split
    · simp
    · cases matched : m.service quoted.saddr l4.sport l4.transport.proto with
      | none => simp
      | some sid =>
        cases config : m.serviceConfig? sid with
        | none => simp [config]
        | some cfg =>
          cases affine : affineBackend m ⟨quoted.daddr, quoted.saddr, l4.dport, l4.sport, l4.transport.proto⟩ with
          | none => simp [config]
          | some id =>
            cases entry : m.backend.get? ⟨pkt.ends.isV4, id⟩ with
            | none => simp [config, entry]
            | some be =>
              simp only [config, entry, Option.bind_eq_bind, Option.bind_some, Option.map_some, Option.some.injEq,
                exists_eq_left']
              exact follow_tooBig_iff

end Answers

/--
An ICMP error or a later fragment over IPv4 is not answered as too big, exactly unless it is handed to a
backend of a tunnel service, the encapsulated packet is too big for the route and must not be fragmented, and
nothing keeps the program from answering.
-/
theorem errors_stay_unanswered {csumDiff : List UInt8 → List UInt8 → Int} {f : Frame} {pkt : Packet}
    {layout : Layout} (parsed : f.parse = some (pkt, layout)) (silent : pkt.Unanswerable) (m : Maps)
    (ctx : Context) :
    (∀ mtu, (ingressFrame csumDiff m ctx f).1 ≠ .tooBig mtu) ↔
      ∀ mode, m.handsOn pkt = some mode → ¬ TunnelAnswers m ctx pkt mode := by
  have verdict : (ingressFrame csumDiff m ctx f).1 = (ingress m ctx pkt).1 := by
    simp only [ingressFrame, parsed]
  rw [verdict]
  simpa only [not_exists, not_and] using not_congr (@ingress_tooBig_iff m ctx pkt silent)

section Sample

/-- The address fd00::1. -/
def vip6 : IP := Vector.ofFn fun k => if k.val = 0 then 0xfd else if k.val = 15 then 1 else 0

/-- The address fd00::5. -/
def client6 : IP := Vector.ofFn fun k => if k.val = 0 then 0xfd else if k.val = 15 then 5 else 0

/-- Maps with a tunnelled service at 10.0.0.1:80 and at fd00::1 port 80, a connection to each, and a datagram. -/
def steerMaps : Maps :=
  { Maps.empty .zero ⟨1, vip6⟩ FMap.empty with
    vip := FMap.ofList [(⟨.v4 0x0100000a, htons 80, 6⟩, 0), (⟨.v6 vip6, htons 80, 6⟩, 0)]
    serviceConfig := fun _ => ⟨1, 0, 1031, .tunnelIPIP, .none, false⟩
    backend := FMap.ofList [(⟨true, 0⟩, ⟨.v4 0x0a01a8c0, htons 80, .zero⟩),
      (⟨false, 0⟩, ⟨.v6 client6, htons 80, .zero⟩)]
    backendHealth := fun _ => .healthy
    flow :=
      { Flow.empty with
        affinity := FMap.ofList [(⟨.v4 0x057100cb, .v4 0x0100000a, htons 40000, htons 80, 6⟩, 0),
          (⟨.v6 client6, .v6 vip6, htons 40000, htons 80, 6⟩, 0)]
        frag := FMap.ofList [(⟨.v4 0x057100cb, .v4 0x0100000a, 0x0700, 6⟩, ⟨0, 0⟩)] } }

/-- A place where the route to the backend carries a number of bytes only. -/
def narrowContext (mtu : Nat) : Context := ⟨1, 0, 0, true, true, .tooBig mtu⟩

/-- An Ethernet header before IPv4. -/
def ethernet4 : Frame := [2, 0, 0, 0, 0, 1, 2, 0, 0, 0, 0, 2, 8, 0]

/-- "Fragmentation needed" from 198.51.100.1 to 10.0.0.1, about a segment to 203.0.113.5:40000. -/
def icmpError4 (flags : UInt8) : Frame :=
  ethernet4 ++ [69, 0, 0, 52, 0, 1, flags, 0, 64, 1, 0, 0, 198, 51, 100, 1, 10, 0, 0, 1, 3, 4, 0, 0, 0, 0, 5, 20,
    69, 0, 0, 40, 0, 9, 64, 0, 64, 6, 0, 0, 10, 0, 0, 1, 203, 0, 113, 5, 0, 80, 156, 64]

/-- The last fragment of a datagram from 203.0.113.5 to 10.0.0.1. -/
def lastFragment4 : Frame :=
  ethernet4 ++ [69, 0, 2, 88, 0, 7, 64, 1, 64, 6, 0, 0, 203, 0, 113, 5, 10, 0, 0, 1] ++ List.replicate 580 0

/-- "Packet too big" from fd00::5 to fd00::1, about a segment from there to fd00::5. -/
def icmpError6 : Frame :=
  [2, 0, 0, 0, 0, 1, 2, 0, 0, 0, 0, 2, 0x86, 0xdd, 0x60, 0, 0, 0, 4, 200, 58, 64] ++ client6.toList ++ vip6.toList ++
    [2, 0, 0, 0, 0, 0, 5, 0, 0x60, 0, 0, 0, 4, 152, 6, 64] ++ vip6.toList ++ client6.toList ++ [0, 80, 156, 64] ++
    List.replicate 1172 0

/-- That error as the program sees it, if it may be fragmented. -/
def fragileError : Packet :=
  ⟨.v4 0x016433c6 0x0100000a, .icmpError (.v4 0x0100000a 0x057100cb) ⟨.tcp false, htons 80, htons 40000⟩, 66, 14,
    false⟩

/-- An error that may be fragmented is passed on to the backend. -/
theorem fragile_error_is_steered :
    (ingressFrame (fun _ _ => 0) steerMaps (narrowContext 68) (icmpError4 0)).1 ≠ .tooBig 68 := by
  have parsed : (icmpError4 0).parse = some (fragileError, .icmp4 14) := by decide +kernel
  refine (errors_stay_unanswered parsed trivial steerMaps (narrowContext 68)).mpr ?_ 68
  rintro mode _ ⟨_, _, _, _, ⟨_, _, _, whole⟩, _⟩
  simp [fragileError, Endpoints.isV4] at whole

/-- The ingress program answers an ICMP error, a later fragment and an ICMPv6 error as too big. -/
theorem errors_are_answered :
    (ingressFrame (fun _ _ => 0) steerMaps (narrowContext 68) (icmpError4 64)).1 = .tooBig 68 ∧
      (ingressFrame (fun _ _ => 0) steerMaps (narrowContext 576) lastFragment4).1 = .tooBig 556 ∧
      (ingressFrame (fun _ _ => 0) steerMaps (narrowContext 1280) icmpError6).1 = .tooBig 1280 := by
  decide +kernel

end Sample

end Rivora

import Rivora.Bpf.Common

/-!
The ingress program: VIP match, rate limit, connection affinity or table lookup, forwarding.

A frame is given by what the program reads of it. The IPv4 and IPv6 paths do the same on the maps
of their family, so each step is written once over both.
-/

namespace Rivora

/-- A transport header's protocol; only TCP has a SYN flag. -/
inductive Transport where
  | tcp (syn : Bool)
  | udp
  deriving DecidableEq, Repr

/-- The protocol number. -/
def Transport.proto : Transport → UInt8
  | .tcp _ => 6
  | .udp => 17

/-- Whether a packet opens a connection. -/
def Transport.isSyn : Transport → Bool
  | .tcp syn => syn
  | .udp => false

/-- A transport header: protocol and ports, in network byte order. -/
structure L4 where
  transport : Transport
  sport : UInt16
  dport : UInt16
  deriving DecidableEq, Repr

/-- What a packet carries, as far as the program looks. -/
inductive Body where
  /-- Anything the program passes on unread: another protocol, a header cut short, a bad chain. -/
  | other
  /-- A whole packet, or the first fragment of the datagram with the given identification. -/
  | segment (l4 : L4) (firstOf : Option UInt32)
  /-- A fragment without a transport header. -/
  | laterFragment (id : UInt32) (proto : UInt8)
  /-- An ICMP error quoting a packet with these addresses and ports. -/
  | icmpError (quoted : Endpoints) (l4 : L4)
  deriving DecidableEq, Repr

/-- A received frame. -/
structure Packet where
  ends : Endpoints
  body : Body
  length : Nat
  /-- Bytes in front of the network header: 14, and 4 more for each VLAN tag. -/
  l2Len : Nat
  dontFragment : Bool
  deriving DecidableEq, Repr

/-- What the route lookup says about an encapsulated packet. -/
inductive Route where
  | found
  | unresolved
  | tooBig (mtu : Nat)
  deriving DecidableEq, Repr

/-- Where and when the program runs, and what the kernel helpers answer. -/
structure Context where
  ifindex : Nat
  cpu : Nat
  now : UInt64
  /-- The frame can grow at the front. -/
  headroom : Bool
  /-- The frame can be cut short at the end. -/
  trim : Bool
  route : Route
  deriving DecidableEq, Repr

/-- A packet on its way to a backend. -/
structure Delivery where
  backendID : Nat
  serviceID : Nat
  backend : BackendInfo
  mode : ServiceMode
  /-- The destination address and port the packet leaves with, where it has a port. -/
  daddr : Addr
  dport : Option UInt16
  /-- The interface's own hardware address, put in as the source in DSR mode. -/
  smac : Option Mac
  deriving DecidableEq, Repr

/-- What becomes of a packet. -/
inductive Verdict where
  | pass
  | drop
  | forward (delivery : Delivery)
  /-- The sender is told that the encapsulated packet is too big. -/
  | tooBig (mtu : Nat)
  deriving DecidableEq, Repr

/-- The flow key of a packet with a transport header. -/
def connKey (ends : Endpoints) (l4 : L4) : ConnKey :=
  ⟨ends.saddr, ends.daddr, l4.sport, l4.dport, l4.transport.proto⟩

/-- The per-source limit: the service's own if it has one, else the node's if it is on. -/
def rateLimitExceeded (m : Maps) (ctx : Context) (sid : Nat) (saddr : Addr) : Bool × Flow :=
  let f := m.flow
  if (m.svcRlConfig? sid).any RLConfig.enabled then
    let (exceeded, bucket) :=
      rlTake (m.svcRlConfig sid) (f.svcRlBuckets.get? (ctx.cpu, sid, saddr)) ctx.now
    (exceeded, { f with svcRlBuckets := f.svcRlBuckets.insert (ctx.cpu, sid, saddr) bucket })
  else if m.rlConfig.enabled then
    let (exceeded, bucket) := rlTake m.rlConfig (f.rlBuckets.get? (ctx.cpu, saddr)) ctx.now
    (exceeded, { f with rlBuckets := f.rlBuckets.insert (ctx.cpu, saddr) bucket })
  else (false, f)

/-- How many slots the search for a healthy backend reads. -/
def maglevProbes : Nat := 8

/-- The slots the search reads: forward from a slot, wrapping inside the service's own range. -/
def probedSlots (offset size localSlot : Nat) : List Nat :=
  (List.range maglevProbes).map fun i => offset + (localSlot + i) % size

/-- The first healthy backend in the slots read. -/
def pickBackend (m : Maps) (offset size localSlot : Nat) : Option Nat :=
  (probedSlots offset size localSlot).findSome? fun slot =>
    (m.maglevTable? slot).filter fun id => m.backendHealth? id = some .healthy

/-- The slot a new flow's search starts at. -/
def localSlot (cfg : ServiceConfig) (ends : Endpoints) (l4 : L4) : Nat :=
  let hash := match cfg.affinity with
    | .clientIP => rivoraHashSrc ends
    | .none => rivoraHash5 ends l4.sport l4.dport l4.transport.proto
  hash.toNat % cfg.maglevSize

/-- The backend of a flow that its affinity entry names, unless that backend is down. -/
def affineBackend (m : Maps) (key : ConnKey) : Option Nat :=
  (m.flow.affinity.get? key).filter m.alive

/-- The backend of a flow: by its affinity entry, else by the table, which is then remembered. -/
def chooseBackend (m : Maps) (cfg : ServiceConfig) (ends : Endpoints) (l4 : L4) (f : Flow) :
    Option (Nat × Flow) :=
  match affineBackend m (connKey ends l4) with
  | some id => some (id, f)
  | none =>
    (pickBackend m cfg.maglevOffset cfg.maglevSize (localSlot cfg ends l4)).map fun id =>
      (id, { f with affinity := f.affinity.insert (connKey ends l4) id })

/-- The bytes an encapsulation puts in front of the network header. -/
def encapLen (ends : Endpoints) (mode : ServiceMode) : Nat :=
  (if ends.isV4 then 20 else 40) + if mode = .tunnelGRE then 4 else 0

/--
Answer an encapsulated packet as too big: `quote` bytes of it are read and `reply` bytes written over the
frame, whose rest is cut off. The MTU named is that of the route less the outer header, and at least `least`.
-/
def answerTooBig (quote reply least : Nat) (ctx : Context) (pkt : Packet) (encap mtu : Nat) : Verdict :=
  -- An answer that cannot be built is a drop, and no counter is touched.
  if pkt.length < pkt.l2Len + quote ∨ pkt.length + encap < pkt.l2Len + reply ∨ ctx.trim = false then .drop
  else .tooBig (if encap + least < mtu then mtu - encap else least)

/-- "Fragmentation needed": the IPv4 header and eight bytes are quoted. -/
def fragNeededV4 : Context → Packet → Nat → Nat → Verdict := answerTooBig 28 56 68

/-- "Packet too big": the IPv6 header and eight bytes are quoted. -/
def packetTooBigV6 : Context → Packet → Nat → Nat → Verdict := answerTooBig 48 96 1280

/-- Encapsulate towards the backend. -/
def tunnelTo (m : Maps) (ctx : Context) (pkt : Packet) (d : Delivery) (f : Flow) :
    Verdict × Flow :=
  let noSource := match pkt.ends with
    | .v4 _ _ => decide (m.tunnelConfig.src4 = 0)
    | .v6 _ _ => decide (m.tunnelConfig.src6 = Vector.replicate 16 0)
  if (pkt.l2Len ≠ 14 ∧ pkt.l2Len ≠ 18 ∧ pkt.l2Len ≠ 22) ∨ pkt.length < 22 then (.pass, f)
  else if noSource then (.drop, f.bumpStats 0 0 true)
  else if !ctx.headroom then (.drop, f)
  -- Behind a VLAN tag the kernel routes the encapsulated packet.
  else if pkt.l2Len ≠ 14 then (.forward d, f)
  else
    match ctx.route with
    | .tooBig mtu =>
      if !pkt.ends.isV4 then (packetTooBigV6 ctx pkt (encapLen pkt.ends d.mode) mtu, f)
      else if pkt.dontFragment then (fragNeededV4 ctx pkt (encapLen pkt.ends d.mode) mtu, f)
      else (.forward d, f)
    | _ => (.forward d, f)

/-- The forwarding step of every mode but full NAT: a hardware address, or an encapsulation. -/
def forwardTo (m : Maps) (ctx : Context) (pkt : Packet) (d : Delivery) (f : Flow) :
    Verdict × Flow :=
  match d.mode with
  | .dsr => (.forward { d with smac := m.ifaceMAC.get? ctx.ifindex }, f)
  | _ => tunnelTo m ctx pkt d f

/-- Count a packet as delivered, for the node and for its backend. -/
def countDelivered (pkt : Packet) (id : Nat) (f : Flow) : Flow :=
  (f.bumpStats 0 pkt.length false).bumpStats (1 + id) pkt.length false

/-- Remember where a first fragment goes, under the addresses it came with. -/
def rememberFragment (ends : Endpoints) (l4 : L4) (firstOf : Option UInt32) (val : FragVal)
    (f : Flow) : Flow :=
  match firstOf with
  | none => f
  | some id =>
    { f with frag := f.frag.insert ⟨ends.saddr, ends.daddr, id, l4.transport.proto⟩ val }

/-- Hand a packet to the backend chosen for it. -/
def deliver (m : Maps) (ctx : Context) (pkt : Packet) (l4 : L4) (cfg : ServiceConfig)
    (sid id : Nat) (be : BackendInfo) (f : Flow) : Verdict × Flow :=
  let d : Delivery := ⟨id, sid, be, cfg.mode, pkt.ends.daddr, some l4.dport, none⟩
  match cfg.mode with
  | .nat =>
    -- A range VIP keeps the client's port; a single-port VIP goes to the backend's.
    let newDport := if cfg.range then l4.dport else be.port
    let key : NATReverseKey :=
      ⟨be.addr, pkt.ends.saddr, newDport, l4.sport, l4.transport.proto⟩
    (.forward { d with daddr := be.addr, dport := some newDport },
      { f with natReverse := f.natReverse.insert key ⟨pkt.ends.daddr, l4.dport⟩ })
  | _ => forwardTo m ctx pkt d f

/-- A packet with a transport header, once its service is known and its limit is passed. -/
def serve (m : Maps) (ctx : Context) (pkt : Packet) (l4 : L4) (firstOf : Option UInt32)
    (sid : Nat) (f : Flow) : Verdict × Flow :=
  match m.serviceConfig? sid with
  | none => (.pass, f.bumpDrop sid .unserved)
  | some cfg =>
    if cfg.backendCount = 0 ∨ cfg.maglevSize = 0 then (.pass, f.bumpDrop sid .unserved)
    else
      match chooseBackend m cfg pkt.ends l4 f with
      | none => (.drop, (f.bumpStats 0 0 true).bumpDrop sid .noBackend)
      | some (id, f) =>
        match m.backend.get? ⟨pkt.ends.isV4, id⟩ with
        | none => (.pass, f.bumpDrop sid .unserved)
        | some be =>
          let f := rememberFragment pkt.ends l4 firstOf ⟨id, sid⟩ (countDelivered pkt id f)
          deliver m ctx pkt l4 cfg sid id be f

/-- A packet with a transport header. -/
def handleSegment (m : Maps) (ctx : Context) (pkt : Packet) (l4 : L4) (firstOf : Option UInt32) :
    Verdict × Flow :=
  match m.service pkt.ends.daddr l4.dport l4.transport.proto with
  | none => (.pass, m.flow)
  | some sid =>
    let (exceeded, f) :=
      if l4.transport.isSyn then rateLimitExceeded m ctx sid pkt.ends.saddr else (false, m.flow)
    if exceeded then (.drop, (f.bumpStats 0 0 true).bumpDrop sid .rateLimited)
    else serve m ctx pkt l4 firstOf sid f

/-- A later fragment follows the backend its datagram's first fragment was given. -/
def handleLaterFragment (m : Maps) (ctx : Context) (pkt : Packet) (id : UInt32) (proto : UInt8) :
    Verdict × Flow :=
  match m.flow.frag.get? ⟨pkt.ends.saddr, pkt.ends.daddr, id, proto⟩ with
  | none => (.pass, m.flow)
  | some val =>
    match m.serviceConfig? val.serviceID with
    | none => (.pass, m.flow)
    | some cfg =>
      if !m.alive val.backendID then (.drop, m.flow.bumpStats 0 0 true)
      else
        match m.backend.get? ⟨pkt.ends.isV4, val.backendID⟩ with
        | none => (.pass, m.flow)
        | some be =>
          let f := countDelivered pkt val.backendID m.flow
          let d : Delivery :=
            ⟨val.backendID, val.serviceID, be, cfg.mode, pkt.ends.daddr, none, none⟩
          match cfg.mode with
          | .nat => (.forward { d with daddr := be.addr }, f)
          | _ => forwardTo m ctx pkt d f

/-- An ICMP error about a VIP's reply goes to the backend of the connection it quotes. -/
def handleIcmp (m : Maps) (ctx : Context) (pkt : Packet) (quoted : Endpoints) (l4 : L4) :
    Verdict × Flow :=
  -- The quoted packet must have left from the VIP this one is addressed to.
  if quoted.saddr ≠ pkt.ends.daddr then (.pass, m.flow)
  else
    match m.service quoted.saddr l4.sport l4.transport.proto with
    | none => (.pass, m.flow)
    | some sid =>
      match m.serviceConfig? sid with
      | none => (.pass, m.flow)
      | some cfg =>
        -- The connection is keyed by the request direction.
        match affineBackend m ⟨quoted.daddr, quoted.saddr, l4.dport, l4.sport, l4.transport.proto⟩ with
        | none => (.pass, m.flow)
        | some id =>
          match m.backend.get? ⟨pkt.ends.isV4, id⟩ with
          | none => (.pass, m.flow)
          | some be =>
            let f := countDelivered pkt id m.flow
            let d : Delivery := ⟨id, sid, be, cfg.mode, pkt.ends.daddr, none, none⟩
            match cfg.mode with
            | .nat => (.forward { d with daddr := be.addr }, f)
            | _ => forwardTo m ctx pkt d f

/-- The ingress program on one frame: what becomes of it, and the flow maps afterwards. -/
def ingress (m : Maps) (ctx : Context) (pkt : Packet) : Verdict × Flow :=
  match pkt.body with
  | .other => (.pass, m.flow)
  | .segment l4 firstOf => handleSegment m ctx pkt l4 firstOf
  | .laterFragment id proto => handleLaterFragment m ctx pkt id proto
  | .icmpError quoted l4 => handleIcmp m ctx pkt quoted l4

end Rivora

import Rivora.Bgp.Gobgp

/-!
The speaker: what it asks of the server to keep sessions, rules and routes as they should be.

The neighbours, their rules and what is recorded about them are behind one lock; the advertised routes are
behind another, which only a resync pass takes. So a pass, once it has updated the rules, can withdraw and
advertise routes between the calls of a change of neighbours.
-/

namespace Rivora.Bgp

open Interaction.Prog (ask)

section Limits

variable (shortSum : String → String)

/-- The names of what implements the limits of one neighbour. -/
structure PeerObjects where
  neighbors : String
  deny4 : String
  deny6 : String
  policy : String
  stmt4 : String
  stmt6 : String
  deriving DecidableEq, Repr

/-- The names are made from a checksum of the canonical address. -/
def objectsFor (addr : String) : PeerObjects :=
  let id := shortSum (normAddr addr)
  ⟨"rivora-peer-" ++ id, "rivora-deny4-" ++ id, "rivora-deny6-" ++ id, "rivora-export-" ++ id,
    "rivora-reject4-" ++ id, "rivora-reject6-" ++ id⟩

/-- The neighbours that run and what is recorded about limits; all of it is behind one lock. -/
structure Limits where
  /-- The settings each running neighbour was started with, by address. -/
  peers : FMap String Peer
  /-- The routes that are limited to some neighbours, as of the last pass. -/
  restrict : FMap Netip.Prefix (List String)
  /-- The prefixes each neighbour must not receive, by canonical address. -/
  denied : FMap String (List Netip.Prefix)

/-- No neighbour runs. -/
def Limits.new : Limits := ⟨.empty, .empty, .empty⟩

/-- What is recorded as denied to a neighbour. -/
def Limits.record (l : Limits) (addr : String) : List Netip.Prefix := (l.denied.get? (normAddr addr)).getD []

/--
The prefixes a neighbour must not receive, in the order of their texts.

The source keeps them as those texts and parses them again; a text stands for one prefix.
-/
def denyList (addr : String) (restrict : FMap Netip.Prefix (List String)) : List Netip.Prefix :=
  ((restrict.entries.filter fun entry => normAddr addr ∉ entry.2).map Prod.fst).insertionSort
    fun p q => p.text ≤ q.text

/-- The prefixes of one family. -/
def familyOf (v4 : Bool) (prefixes : List Netip.Prefix) : List Netip.Prefix :=
  prefixes.filter fun p => p.addr.is4 = v4

/-- Move a set of prefixes from some members to others: first add, then delete. -/
def editPrefixSet (name : String) (current want : List Netip.Prefix) : ExceptT String Prog Unit := do
  let add := want.filter (· ∉ current)
  let del := current.filter (· ∉ want)
  if add ≠ [] then
    let _ ← ExceptT.mk (ask (.addPrefixSet name add))
  if del ≠ [] then
    let _ ← ExceptT.mk (ask (.deletePrefixes name del))

/-- Move the two sets of a neighbour from one list to another. -/
def editDeny (addr : String) (current want : List Netip.Prefix) : ExceptT String Prog Unit := do
  let o := objectsFor shortSum addr
  editPrefixSet o.deny4 (familyOf true current) (familyOf true want)
  editPrefixSet o.deny6 (familyOf false current) (familyOf false want)

/-- Remove what implements the limits of a neighbour, as far as that works. -/
def dropPeerLimits (addr : String) (l : Limits) : Prog Limits := do
  let o := objectsFor shortSum addr
  let _ ← ask (.deletePolicyAssignment o.policy)
  let _ ← ask (.deletePolicy o.policy)
  let _ ← ask (.deletePrefixSet o.deny4)
  let _ ← ask (.deletePrefixSet o.deny6)
  let _ ← ask (.deleteNeighborSet o.neighbors)
  return { l with denied := l.denied.erase (normAddr addr) }

/-- An error of a call, behind a text. -/
def wrapped (front : String) (c : Call) : ExceptT String Prog Unit :=
  ExceptT.mk ((fun reply => (reply.mapError fun e => front ++ e).map fun _ => ()) <$> ask c)

/-- The text by which the server knows a neighbour. -/
def neighborText (a : Netip.Addr) : String := (Netip.hostPrefix a).text

/-- Define what keeps some prefixes from a neighbour, and put it into force. -/
def defineLimits (families : Order (String × List Netip.Prefix)) (addr : String)
    (deny : List Netip.Prefix) : ExceptT String Prog Unit := do
  let o := objectsFor shortSum addr
  match Netip.parseAddr (normAddr addr) with
  | none => throw ("ParseAddr(" ++ addr.quote ++ ")")
  | some a =>
    wrapped "define neighbour set: " (.addNeighborSet o.neighbors [neighborText a])
    (families.walk [(o.deny4, familyOf true deny), (o.deny6, familyOf false deny)]).forM fun set =>
      wrapped ("define prefix set " ++ set.1 ++ ": ") (.addPrefixSet set.1 set.2)
    wrapped "define export policy: "
      (.addPolicy o.policy [⟨o.stmt4, o.neighbors, o.deny4⟩, ⟨o.stmt6, o.neighbors, o.deny6⟩])
    wrapped "apply export policy: " (.addPolicyAssignment o.policy)

/-- Define the limits of a neighbour anew and record them. -/
def createPeerLimits (families : Order (String × List Netip.Prefix)) (addr : String)
    (deny : List Netip.Prefix) (l : Limits) : Prog (Except String Unit × Limits) := do
  let l ← dropPeerLimits shortSum addr l
  match ← (defineLimits shortSum families addr deny).run with
  | .error e => return (.error e, l)
  | .ok () => return (.ok (), { l with denied := l.denied.insert (normAddr addr) deny })

end Limits

/-- What a change of neighbours finds and may choose: the files, and the orders in which maps are visited. -/
structure Choices where
  readFile : String → Except String String
  families : Order (String × List Netip.Prefix)
  running : Order String
  wanted : Order String

/-- A text without the line ends behind it. -/
def trimLineEnds (s : String) : String :=
  String.ofList (s.toList.reverse.dropWhile fun c => c = '\r' ∨ c = '\n').reverse

/-- The password of a neighbour, read from its file if it has one. -/
def Peer.readPassword (read : String → Except String String) (p : Peer) : Except String String :=
  if p.passwordFile = "" then .ok p.password
  else
    match read p.passwordFile with
    | .error e => .error ("read passwordFile: " ++ e)
    | .ok raw =>
      let password := trimLineEnds raw
      if password = "" then .error ("passwordFile " ++ p.passwordFile ++ " is empty")
      else if 80 < password.utf8ByteSize then
        .error ("the password in " ++ p.passwordFile ++ " is longer than the 80 bytes TCP MD5 allows")
      else .ok password

/-- A neighbour as the server is told about it. -/
def peerConfig (localASN : UInt32) (read : String → Except String String) (p : Peer) :
    Except String Neighbor := do
  let password ← p.readPassword read
  return {
    neighborAddress := p.address
    peerAsn := p.asn
    localAsn := localASN
    authPassword := password
    bfd := p.bfd
    multihopTTL := if p.multihop ≠ 0 then some p.multihop else none
    gracefulRestart := (p.gracefulRestart.filter GracefulRestart.enabled).map fun g =>
      if g.restartTime = 0 then 120 else g.restartTime }

/-- What changing the neighbours did. -/
structure PeerChanges where
  added : Nat
  removed : Nat
  updated : Nat
  deriving DecidableEq, Repr

section Peers

variable (shortSum : String → String) (cfg : Settings) (choices : Choices)

/-- Start a neighbour: its limits go in before it does. -/
def addPeer (p : Peer) (l : Limits) : Prog (Except String Unit × Limits) := do
  let front := "bgp peer " ++ p.address ++ ": "
  match peerConfig cfg.asn choices.readFile p with
  | .error e => return (.error (front ++ e), l)
  | .ok peer =>
    match ← createPeerLimits shortSum choices.families p.address (denyList p.address l.restrict) l with
    | (.error e, l) => return (.error (front ++ e), l)
    | (.ok (), l) =>
      match ← ask (.addPeer peer) with
      | .error e =>
        let l ← dropPeerLimits shortSum p.address l
        return (.error ("add " ++ front ++ e), l)
      | .ok _ => return (.ok (), { l with peers := l.peers.insert p.address p })

/-- How far a change of neighbours has come. -/
structure Setting where
  limits : Limits
  changes : PeerChanges
  errs : List String
  /-- Running neighbours that were stopped to be started with other settings. -/
  restarted : List String

/-- Stop a running neighbour unless it is wanted as it is. -/
def stopPeer (want : FMap String Peer) (s : Setting) (addr : String) : Prog Setting :=
  if want.get? addr = s.limits.peers.get? addr then return s
  else do
    match ← ask (.deletePeer addr) with
    | .error e => return { s with errs := s.errs ++ ["remove bgp peer " ++ addr ++ ": " ++ e] }
    | .ok _ =>
      let l ← dropPeerLimits shortSum addr s.limits
      let s := { s with limits := { l with peers := l.peers.erase addr } }
      if want.contains addr then return { s with restarted := addr :: s.restarted }
      else return { s with changes := { s.changes with removed := s.changes.removed + 1 } }

/-- Start a wanted neighbour unless it runs. -/
def startPeer (want : FMap String Peer) (s : Setting) (addr : String) : Prog Setting :=
  match want.get? addr, s.limits.peers.contains addr with
  | some w, false => do
    match ← addPeer shortSum cfg choices w s.limits with
    | (.error e, l) => return { s with limits := l, errs := s.errs ++ [e] }
    | (.ok (), l) =>
      let changes := if addr ∈ s.restarted then { s.changes with updated := s.changes.updated + 1 }
        else { s.changes with added := s.changes.added + 1 }
      return { s with limits := l, changes := changes }
  | _, _ => return s

/-- Make the running neighbours the desired ones. -/
def setPeers (desired : List Peer) (l : Limits) : Prog Setting := do
  let want := desired.foldl (fun want p => want.insert p.address p) FMap.empty
  let s ← (choices.running.walk l.peers.keys).foldlM (stopPeer shortSum want) ⟨l, ⟨0, 0, 0⟩, [], []⟩
  (choices.wanted.walk want.keys).foldlM (startPeer shortSum cfg choices want) s

end Peers

section Pass

variable (shortSum : String → String) (cfg : Settings)

/-- The routes that are limited to some neighbours. -/
def restrictOf (desired : FMap Netip.Prefix Route) : FMap Netip.Prefix (List String) :=
  FMap.ofList (desired.entries.filterMap fun entry => entry.2.peers.map fun peers => (entry.1, peers))

/-- Bring the rules of one neighbour in line, and record that. -/
def syncDenySet (state : Except String Unit × Limits) (addr : String) : Prog (Except String Unit × Limits) := do
  let (err, l) := state
  let want := denyList addr l.restrict
  if l.record addr = want then return (err, l)
  else
    match ← (editDeny shortSum addr (l.record addr) want).run with
    | .error e =>
      let first := "update the routes peer " ++ addr ++ " must not receive: " ++ e
      return (err.bind fun _ => .error first, l)
    | .ok () => return (err, { l with denied := l.denied.insert (normAddr addr) want })

/-- Bring the rules of every neighbour in line with the routes that should be advertised. -/
def syncDenySets (order : Order String) (desired : FMap Netip.Prefix Route) (l : Limits) :
    Prog (Except String Unit × Limits) :=
  (order.walk l.peers.keys).foldlM (syncDenySet shortSum) (.ok (), { l with restrict := restrictOf desired })

/-- A route in the server: the number of its path, and what it was advertised with. -/
structure AdvertisedRoute where
  id : Nat
  sig : String
  deriving DecidableEq, Repr

/-- The advertised routes, and how often something went wrong with them. -/
structure Held where
  advertised : FMap Netip.Prefix AdvertisedRoute
  withdrawErrors : Nat
  advertiseErrors : Nat

/-- Nothing was advertised yet. -/
def Held.new : Held := ⟨.empty, 0, 0⟩

/-- The address under which this node can be reached, for routes of one family. -/
def Settings.nextHop (vip : Netip.Addr) : Except String Netip.Addr :=
  if vip.is4 then
    match Netip.parseAddr cfg.routerID with
    | none => .error ("router id " ++ cfg.routerID.quote ++ " is not a valid next-hop address: ")
    | some addr => .ok addr
  else if cfg.ipv6NextHop = "" then
    .error ("bgp: ipv6NextHop is required to advertise IPv6 VIP " ++ vip.text)
  else
    match Netip.parseAddr cfg.ipv6NextHop with
    | some (.v6 bytes zone) => .ok (.v6 bytes zone)
    | _ => .error ("bgp: ipv6NextHop " ++ cfg.ipv6NextHop.quote ++ " is not a valid IPv6 address")

/-- Add the path of a route. -/
def advertise (p : Netip.Prefix) (r : Route) : Prog Reply :=
  match cfg.nextHop p.addr with
  | .error e => return .error e
  | .ok nextHop => ask (.addPath ⟨p, nextHop, cfg.localPref, r⟩)

/-- Withdraw an advertised route unless it should be advertised as it is. -/
def withdrawStale (desired : FMap Netip.Prefix Route) (h : Held) (p : Netip.Prefix) : Prog Held :=
  match h.advertised.get? p with
  | none => return h
  | some cur =>
    if (desired.get? p).any fun want => want.sig = cur.sig then return h
    else do
      match ← ask (.deletePath cur.id) with
      | .error _ => return { h with withdrawErrors := h.withdrawErrors + 1 }
      | .ok _ => return { h with advertised := h.advertised.erase p }

/-- Advertise a route unless its prefix is; a limited one only if the rules are in line. -/
def advertiseMissing (desired : FMap Netip.Prefix Route) (denyOK : Bool) (h : Held) (p : Netip.Prefix) :
    Prog Held :=
  match h.advertised.contains p, desired.get? p with
  | false, some r =>
    if r.peers.isSome ∧ ¬ denyOK then return h
    else do
      match ← advertise cfg p r with
      | .error _ => return { h with advertiseErrors := h.advertiseErrors + 1 }
      | .ok id => return { h with advertised := h.advertised.insert p ⟨id, r.sig⟩ }
  | _, _ => return h

/-- Withdraw and advertise what differs; rules that could not be updated count as one more error. -/
def syncRoutes (order : Order Netip.Prefix) (desired : FMap Netip.Prefix Route) (denyOK : Bool) (h : Held) :
    Prog Held := do
  let h := if denyOK then h else { h with advertiseErrors := h.advertiseErrors + 1 }
  let h ← (order.walk h.advertised.keys).foldlM (withdrawStale desired) h
  (desired.keys.insertionSort fun p q => p.text ≤ q.text).foldlM (advertiseMissing cfg desired denyOK) h

end Pass

/-- The orders in which a pass visits the maps. -/
structure PassOrders where
  addrs : Order Netip.Addr
  peers : Order String
  held : Order Netip.Prefix

/-- One resync pass, with nothing between its calls. -/
def resync (shortSum : String → String) (cfg : Settings) (orders : PassOrders)
    (desired : FMap Netip.Prefix Route) (l : Limits) (h : Held) : Prog (Limits × Held) := do
  let (result, l) ← syncDenySets shortSum orders.peers desired l
  let h ← syncRoutes cfg orders.held desired result.isOk h
  return (l, h)

/-- A speaker and its server. -/
structure Speaker where
  gobgp : Gobgp
  limits : Limits
  held : Held

/-- Which calls of a pass fail, by number, and with which error. -/
abbrev Failures := Nat → Call → Option String

/-- The answer of a server that fails as it is told, with the number of calls so far. -/
def Failures.answer (fails : Failures) (c : Call) (s : Gobgp × Nat) : Reply × (Gobgp × Nat) :=
  let (reply, g) := s.1.answer (fails s.2 c) c
  (reply, g, s.2 + 1)

/-- Something that happens to a speaker as a whole. -/
inductive Event where
  /-- A pass over what the data plane reports. -/
  | resync (statuses : List Status) (orders : PassOrders) (fails : Failures)
  /-- A change of the neighbours. -/
  | setPeers (desired : List Peer) (choices : Choices) (fails : Failures)

/-- The speaker after an event; a pass ends at once if the routes cannot be told. -/
def Speaker.step (shortSum : String → String) (cfg : Settings) (s : Speaker) : Event → Speaker
  | .resync statuses orders fails =>
    match cfg.desiredRoutes orders.addrs statuses with
    | .error _ => s
    | .ok desired =>
      let ((l, h), g, _) := (resync shortSum cfg orders desired s.limits s.held).run fails.answer (s.gobgp, 0)
      ⟨g, l, h⟩
  | .setPeers desired choices fails =>
    let (setting, g, _) := (setPeers shortSum cfg choices desired s.limits).run fails.answer (s.gobgp, 0)
    { s with gobgp := g, limits := setting.limits }

end Rivora.Bgp

import Rivora.Cluster

/-! From a Gateway, its routes and their backends to the VIPs wanted for it. -/

namespace Rivora.GatewayApi

open Reconciler (DesiredVIP endpointsForPort sameFamily)

/-- How a label selector is read, or why it cannot be. -/
abbrev SelectorReader := LabelSelector → Except String (Labels → Bool)

/-- The routes with a parent reference that names a Gateway: first those of one kind, then the other. -/
def attachedRoutes (c : Cluster) (gw : GatewayRef) : List RouteRef :=
  [RouteKind.tcpRoute, .udpRoute].flatMap fun kind =>
    (c.routesOf kind).filter fun rr => rr.spec.parentRefs.any fun pr => namesGateway rr pr gw

/-- Whether a route attaches to a listener through any of its parent references. -/
def attaches (env : Env) (gw : GatewayRef) (l : GatewayListener) (rr : RouteRef) : Bool :=
  rr.spec.parentRefs.any fun pr => (attachToListener gw l rr pr env).attached

/-- The assigned addresses in canonical text, each once. -/
def gatewayIPs (addresses : List String) : List String :=
  (addresses.filterMap fun addr => (parseIP addr).map IP.text).eraseDups

/-- The protocol of a VIP for a listener. -/
def listenerProtocol : ListenerProtocol → Option Protocol
  | .tcp => some .tcp
  | .udp => some .udp
  | .other _ => none

/-- A reference's weight, spread over the Service's serving backends; each gets at least one. -/
def perBackend (weight : Option Int32) (ready : Nat) : Nat :=
  let per := weight.getD 1 / Int32.ofNat ready
  if per < 1 then 1 else per.toInt.toNat

/-- The backends of a referenced Service with their weights, and those that are draining. -/
def resolveBackendRef (c : Cluster) (routeNs : String) (br : BackendRef) :
    Except String (List Backend × List Backend) :=
  let svcNs := namespaceOr br.ns routeNs
  if br.kind.any (· ≠ "Service") then
    .error ("unsupported backendRef kind " ++ (br.kind.getD "").quote)
  else
    match br.port with
    | none => .error ("backendRef " ++ br.name ++ ": port is required")
    | some port =>
      match c.service svcNs br.name with
      | none => .error ("service " ++ br.name.quote ++ " not found")
      | some svc =>
        match svc.svc.ports.find? fun p => p.port = port with
        | none => .error ("service " ++ br.name ++ " has no port " ++ toString port.toInt32.toInt)
        | some p =>
          let (ready, draining) := endpointsForPort (c.slicesOf svcNs br.name) p.name "" fun _ => 0
          .ok (ready.map fun b => { b with weight := perBackend br.weight ready.length }, draining)

/-- The backends gathered for a listener so far, those that are draining, and the keys seen. -/
structure Gathered where
  backends : List Backend
  draining : List Backend
  seen : List String

/-- Gather one backend, unless its key was seen before. -/
def Gathered.add (g : Gathered) (b : Backend) : Gathered :=
  if backendName b ∈ g.seen then g
  else { g with backends := g.backends ++ [b], seen := backendName b :: g.seen }

/-- Gather the backends of one reference, if the route may use it and it resolves. -/
def Gathered.addRef (c : Cluster) (env : Env) (g : Gathered) (source : RouteRef × BackendRef) :
    Gathered :=
  if (checkBackendRef source.1 source.2 env).resolved = false then g
  else
    match resolveBackendRef c source.1.ns source.2 with
    | .error _ => g
    | .ok (backends, draining) =>
      let g := backends.foldl Gathered.add g
      { g with draining := g.draining ++ draining }

/-- The backend references of a route, rule by rule. -/
def RouteRef.backendRefs (rr : RouteRef) : List (RouteRef × BackendRef) :=
  rr.spec.rules.flatMap fun rule => rule.backendRefs.map fun br => (rr, br)

/-- The backends of a listener, from the routes that attach to it. -/
def listenerBackends (c : Cluster) (env : Env) (gw : GatewayRef) (l : GatewayListener)
    (routes : List RouteRef) : Gathered :=
  ((routes.filter (attaches env gw l)).flatMap RouteRef.backendRefs).foldl (Gathered.addRef c env)
    ⟨[], [], []⟩

/-- The VIP of one listener on one address, if it has a backend. -/
def listenerVIP (c : Cluster) (env : Env) (gw : GatewayRef) (routes : List RouteRef) (addr : String)
    (l : GatewayListener) : Option DesiredVIP :=
  match listenerProtocol l.protocol with
  | none => none
  | some protocol =>
    let g := listenerBackends c env gw l routes
    let backends := sameFamily g.backends addr
    if backends = [] then none
    else
      some
        { vip :=
            { address := addr
              port := l.port.toUInt16
              portEnd := 0
              protocol := protocol
              mode := .nat
              backends := backends
              sessionAffinity := .unset
              healthCheck := default
              rateLimit := default
              bgpCommunities := none
              bgpPeers := none }
          drainingBackends := sameFamily g.draining addr }

/-- The VIPs wanted for a Gateway: one for each address and listener that has a backend. -/
def buildDesiredVIPs (c : Cluster) (env : Env) (gw : GatewayRef) (addresses : List String)
    (routes : List RouteRef) : List DesiredVIP :=
  (gatewayIPs addresses).flatMap fun addr => gw.listeners.filterMap (listenerVIP c env gw routes addr)

/-- The VIPs the reconciler programs for a Gateway; none if it is gone or served elsewhere. -/
def desiredVIPs (asSelector : SelectorReader) (c : Cluster) (key : ObjectKey) : List DesiredVIP :=
  match c.gateways.get? key with
  | none => []
  | some gw =>
    if c.managed gw.gatewayClassName = false then []
    else
      buildDesiredVIPs c (c.env asSelector) (gw.ref key) gw.addresses (attachedRoutes c (gw.ref key))

end Rivora.GatewayApi

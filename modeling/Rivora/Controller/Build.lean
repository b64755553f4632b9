import Rivora.Controller.Reconcile

/-! From a Service and its endpoints to the VIPs wanted for it. -/

namespace Rivora.Reconciler

/-- What is known about an endpoint; an absent condition is unknown. -/
structure Conditions where
  ready : Option Bool
  serving : Option Bool
  deriving DecidableEq, Repr

/-- One endpoint of a Service. -/
structure Endpoint where
  addresses : List String
  conditions : Conditions
  nodeName : Option String
  deriving DecidableEq, Repr

/-- A port of a slice of endpoints; the number is as wide as the API has it. -/
structure EndpointPort where
  name : Option String
  port : Option UInt32
  deriving DecidableEq, Repr

/-- A slice of a Service's endpoints. -/
structure EndpointSlice where
  ports : List EndpointPort
  endpoints : List Endpoint
  deriving DecidableEq, Repr

/-- The settings of a policy that is in force for a Service. -/
structure ServicePolicy where
  probe : ProbeSpec
  rateLimit : VIPRateLimit
  communities : Option (List String)
  bgpPeers : Option (List String)
  weights : FMap String Nat
  defaultW : Nat

/-- The weight a policy gives an endpoint: that of its node, or else the default. -/
def ServicePolicy.weightFor (policy : Option ServicePolicy) (ep : Endpoint) : Nat :=
  match policy with
  | none => 0
  | some sp => ((ep.nodeName.bind sp.weights.get?).getD sp.defaultW)

/-- Whether an endpoint serves; unknown counts as serving. -/
def endpointServing (ep : Endpoint) : Bool := ep.conditions.serving.getD true

/-- The port of a slice with a name; an absent name is the empty one. -/
def portForName (ports : List EndpointPort) (name : String) : Option UInt16 :=
  ports.findSome? fun p =>
    match p.port with
    | none => none
    | some port => if p.name.getD "" = name then some port.toUInt16 else none

/-- The backends collected so far, those of them that are draining, and their keys. -/
structure Collected where
  backends : List Backend
  draining : List Backend
  seen : List String

/-- Collect one address of an endpoint, unless it was seen before or is none. -/
def Collected.add (ready : Bool) (port : UInt16) (weight : Nat) (c : Collected) (addr : String) :
    Collected :=
  match parseIP addr with
  | none => c
  | some ip =>
    let b : Backend := ⟨ip.text, port, "", weight⟩
    if backendName b ∈ c.seen then c
    else
      { backends := c.backends ++ [b]
        draining := if ready then c.draining else c.draining ++ [b]
        seen := backendName b :: c.seen }

/-- Collect an endpoint that serves, and runs on the node if one is asked for. -/
def Collected.addEndpoint (node : String) (weigh : Endpoint → Nat) (port : UInt16) (c : Collected)
    (ep : Endpoint) : Collected :=
  if endpointServing ep ∧ (node = "" ∨ ep.nodeName = some node) then
    ep.addresses.foldl (Collected.add (ep.conditions.ready.getD false) port (weigh ep)) c
  else c

/-- The serving backends of a port over all slices, and those of them that are not ready. -/
def endpointsForPort (slices : List EndpointSlice) (portName node : String) (weigh : Endpoint → Nat) :
    List Backend × List Backend :=
  let c := slices.foldl (fun c slice =>
    match portForName slice.ports portName with
    | none => c
    | some port => slice.endpoints.foldl (Collected.addEndpoint node weigh port) c) ⟨[], [], []⟩
  (c.backends, c.draining)

/-- The backends of the same address family as a VIP. -/
def sameFamily (backends : List Backend) (vip : String) : List Backend :=
  match parseIP vip with
  | none => []
  | some v => backends.filter fun b =>
    match parseIP b.address with
    | none => false
    | some ip => ip.to4.isSome = v.to4.isSome

/-- The protocol of a Service's port as the API has it. -/
inductive ServiceProtocol where
  | unset
  | tcp
  | udp
  | other
  deriving DecidableEq, Repr

/-- The protocol of a VIP for a Service's port; an unsupported one has none. -/
def protocolFor : ServiceProtocol → Option Protocol
  | .unset | .tcp => some .tcp
  | .udp => some .udp
  | .other => none

/-- A port of a Service. -/
structure ServicePort where
  name : String
  protocol : ServiceProtocol
  port : UInt32
  deriving DecidableEq, Repr

/-- The parts of a Service that are translated. -/
structure Service where
  isLoadBalancer : Bool
  /-- The addresses assigned to it. -/
  ingress : List String
  ports : List ServicePort
  clientIPAffinity : Bool
  /-- Whether only endpoints of this node are to be used. -/
  externalTrafficLocal : Bool
  deriving DecidableEq, Repr

/-- How a node translates Services. -/
structure BuildOptions where
  localNode : String
  policy : Option ServicePolicy

/-- The assigned addresses in canonical text, each once. -/
def ingressIPs (svc : Service) : List String :=
  if svc.isLoadBalancer then
    (svc.ingress.filterMap fun addr => (parseIP addr).map IP.text).eraseDups
  else []

/-- The VIPs wanted for a Service: one for each address and port that has a backend. -/
def buildDesiredVIPs (svc : Service) (slices : List EndpointSlice) (opts : BuildOptions) :
    List DesiredVIP :=
  let localOnly := if opts.localNode ≠ "" ∧ svc.externalTrafficLocal then opts.localNode else ""
  (ingressIPs svc).flatMap fun addr => svc.ports.filterMap fun p =>
    match protocolFor p.protocol with
    | none => none
    | some protocol =>
      let (backends, draining) :=
        endpointsForPort slices p.name localOnly (ServicePolicy.weightFor opts.policy)
      let backends := sameFamily backends addr
      let draining := sameFamily draining addr
      if backends = [] then none
      else
        some
          { vip :=
              { address := addr
                port := p.port.toUInt16
                portEnd := 0
                protocol := protocol
                mode := .nat
                backends := backends
                sessionAffinity := if svc.clientIPAffinity then .clientIP else .unset
                healthCheck := (opts.policy.map ServicePolicy.probe).getD default
                rateLimit := (opts.policy.map ServicePolicy.rateLimit).getD default
                bgpCommunities := opts.policy.bind ServicePolicy.communities
                bgpPeers := opts.policy.bind ServicePolicy.bgpPeers }
            drainingBackends := draining }

end Rivora.Reconciler

import Rivora.Lib.FiniteMap

/-!
Which routes may attach to a listener of a Gateway, and which Services a route may reference.

These decisions are shared by the reconciler that programs a node and by the one that writes status.
They read the rest of the cluster through an environment.
-/

namespace Rivora.GatewayApi

/-- The API group of the Gateway API. -/
def groupName : String := "gateway.networking.k8s.io"

/-- The controller a class names to have its Gateways served here. -/
def controllerName : String := "rivora.zyvor.dev/gateway-controller"

/-- The route kinds that are served. -/
inductive RouteKind where
  | tcpRoute
  | udpRoute
  deriving DecidableEq, Repr

/-- A route kind as the API writes it. -/
def RouteKind.text : RouteKind → String
  | .tcpRoute => "TCPRoute"
  | .udpRoute => "UDPRoute"

/-- The labels of an object. -/
abbrev Labels := FMap String String

/-- One expression of a label selector. -/
structure LabelSelectorRequirement where
  key : String
  operator : String
  values : List String
  deriving DecidableEq, Repr

/-- A label selector as the API has it. -/
structure LabelSelector where
  matchLabels : Labels
  matchExpressions : List LabelSelectorRequirement
  deriving DecidableEq

/-- A route kind named in a listener; an absent group is that of the Gateway API. -/
structure RouteGroupKind where
  group : Option String
  kind : String
  deriving DecidableEq, Repr

/-- The namespaces routes may come from; an absent choice is the Gateway's own. -/
structure RouteNamespaces where
  fromText : Option String
  selector : Option LabelSelector
  deriving DecidableEq

/-- Which routes may attach to a listener. -/
structure AllowedRoutes where
  namespaces : Option RouteNamespaces
  kinds : List RouteGroupKind
  deriving DecidableEq

/-- The protocol of a listener; others than these two are not served. -/
inductive ListenerProtocol where
  | tcp
  | udp
  | other (text : String)
  deriving DecidableEq, Repr

/-- A protocol as the API writes it. -/
def ListenerProtocol.text : ListenerProtocol → String
  | .tcp => "TCP"
  | .udp => "UDP"
  | .other text => text

/-- A listener of a Gateway. -/
structure GatewayListener where
  name : String
  protocol : ListenerProtocol
  port : UInt32
  allowedRoutes : Option AllowedRoutes
  deriving DecidableEq

/-- A Gateway by name, with the listeners that routes attach to. -/
structure GatewayRef where
  ns : String
  name : String
  listeners : List GatewayListener
  deriving DecidableEq

/-- A route's reference to a Gateway, or to one listener of it. -/
structure ParentRef where
  group : Option String
  kind : Option String
  ns : Option String
  name : String
  sectionName : Option String
  deriving DecidableEq, Repr

/-- A route's reference to a backend. -/
structure BackendRef where
  group : Option String
  kind : Option String
  name : String
  ns : Option String
  port : Option UInt32
  weight : Option Int32
  deriving DecidableEq

/-- A rule of a route. -/
structure RouteRule where
  backendRefs : List BackendRef
  deriving DecidableEq

/-- What a route asks for. -/
structure RouteSpec where
  parentRefs : List ParentRef
  rules : List RouteRule
  deriving DecidableEq

/-- One route of either kind. -/
structure RouteRef where
  kind : RouteKind
  ns : String
  name : String
  spec : RouteSpec
  deriving DecidableEq

/-- The routes a grant speaks of. -/
structure ReferenceGrantFrom where
  group : String
  kind : String
  ns : String
  deriving DecidableEq, Repr

/-- The objects a grant opens; an absent name is every object of the kind. -/
structure ReferenceGrantTo where
  group : String
  kind : String
  name : Option String
  deriving DecidableEq, Repr

/-- A permission for references into the grant's own namespace. -/
structure ReferenceGrant where
  fromRefs : List ReferenceGrantFrom
  toRefs : List ReferenceGrantTo
  deriving DecidableEq, Repr

/-- What the decisions need beyond the objects themselves. -/
structure Env where
  /-- The labels of a namespace, if it is known. -/
  namespaceLabels : String → Option Labels
  /-- The grants that live in a namespace. -/
  grants : String → List ReferenceGrant
  serviceExists : String → String → Bool
  /-- How the API machinery reads a label selector, or why it cannot. -/
  labelSelectorAsSelector : LabelSelector → Except String (Labels → Bool)

/-- Why a route or a reference is used or not. -/
inductive Reason where
  | accepted
  | noMatchingParent
  | notAllowedByListeners
  | resolvedRefs
  | refNotPermitted
  | invalidKind
  | backendNotFound
  | unsupportedProtocol
  deriving DecidableEq, Repr

/-- The route kind a listener protocol serves. -/
def kindForProtocol : ListenerProtocol → Option RouteKind
  | .tcp => some .tcpRoute
  | .udp => some .udpRoute
  | .other _ => none

/-- A namespace given in a reference, or else that of the object that refers. -/
def namespaceOr (given : Option String) (own : String) : String :=
  match given with
  | some ns => if ns ≠ "" then ns else own
  | none => own

/-- The Gateway namespace a parent reference names: its own, or else the route's. -/
def parentNamespace (routeNs : String) (pr : ParentRef) : String := namespaceOr pr.ns routeNs

/-- Whether a parent reference refers to a Gateway. -/
def namesGateway (rr : RouteRef) (pr : ParentRef) (gw : GatewayRef) : Bool :=
  if pr.name ≠ gw.name ∨ parentNamespace rr.ns pr ≠ gw.ns then false
  else if pr.group.any (· ≠ groupName) then false
  else pr.kind.all (· = "Gateway")

/-- The outcome for one route, parent reference and listener. -/
structure Attach where
  attached : Bool
  reason : Reason
  message : String
  deriving DecidableEq, Repr

/-- The route does not reach the listener. -/
def Attach.noMatch (message : String) : Attach := ⟨false, .noMatchingParent, message⟩

/-- The listener refuses the route. -/
def Attach.refused (message : String) : Attach := ⟨false, .notAllowedByListeners, message⟩

/-- Whether a listener's list of kinds has a route kind in it; an empty list has every kind. -/
def kindAllowed (ar : Option AllowedRoutes) (kind : RouteKind) : Bool :=
  match ar with
  | none => true
  | some ar =>
    ar.kinds.isEmpty || ar.kinds.any fun k => k.group.all (· = groupName) && k.kind = kind.text

/-- Whether a listener takes routes from the namespace of a route. -/
def attachFromNamespace (gw : GatewayRef) (ar : Option AllowedRoutes) (rr : RouteRef) (env : Env) :
    Attach :=
  let namespaces := ar.bind AllowedRoutes.namespaces
  match (namespaces.bind RouteNamespaces.fromText).getD "Same" with
  | "Same" =>
    if rr.ns ≠ gw.ns then
      .refused ("the listener only accepts routes from namespace " ++ gw.ns.quote ++
        " (allowedRoutes.namespaces.from: Same)")
    else ⟨true, .accepted, ""⟩
  | "All" => ⟨true, .accepted, ""⟩
  | "Selector" =>
    match namespaces.bind RouteNamespaces.selector with
    | none => .refused "allowedRoutes.namespaces.from is Selector but no selector is set"
    | some selector =>
      match env.labelSelectorAsSelector selector with
      | .error e => .refused ("allowedRoutes.namespaces.selector is invalid: " ++ e)
      | .ok sel =>
        if (env.namespaceLabels rr.ns).any sel then ⟨true, .accepted, ""⟩
        else
          .refused ("namespace " ++ rr.ns.quote ++ " does not match the listener's namespace selector")
  | other =>
    .refused ("allowedRoutes.namespaces.from " ++ other.quote ++ " is not Same, All or Selector")

/-- Whether a route attaches to a listener through one of its parent references. -/
def attachToListener (gw : GatewayRef) (l : GatewayListener) (rr : RouteRef) (pr : ParentRef)
    (env : Env) : Attach :=
  if namesGateway rr pr gw = false then .noMatch "the parentRef does not name this Gateway"
  else if pr.sectionName.any (· ≠ l.name) then
    .noMatch ("sectionName " ++ (pr.sectionName.getD "").quote ++ " is not this listener")
  else
    match kindForProtocol l.protocol with
    | none => .refused ("listener protocol " ++ l.protocol.text.quote ++ " is not TCP or UDP")
    | some served =>
      if rr.kind ≠ served then
        .refused ("a " ++ l.protocol.text ++ " listener serves " ++ served.text ++ ", not " ++ rr.kind.text)
      else if kindAllowed l.allowedRoutes rr.kind = false then
        .refused ("the listener's allowedRoutes.kinds does not include " ++ rr.kind.text)
      else attachFromNamespace gw l.allowedRoutes rr env

/-- Whether one backend reference may be used. -/
structure RefOutcome where
  resolved : Bool
  reason : Reason
  message : String
  deriving DecidableEq, Repr

/-- Whether a grant lets a route reference a Service of the grant's own namespace. -/
def ReferenceGrant.allows (g : ReferenceGrant) (rr : RouteRef) (svc : String) : Bool :=
  g.fromRefs.any (fun f => f.group = groupName && f.kind = rr.kind.text && f.ns = rr.ns) &&
    g.toRefs.any fun t => t.group = "" && t.kind = "Service" && t.name.all (· = svc)

/-- Whether any of some grants lets a route reference a Service. -/
def grantAllows (grants : List ReferenceGrant) (rr : RouteRef) (svc : String) : Bool :=
  grants.any (·.allows rr svc)

/-- Whether a route may use a backend reference: to a Service, in its own namespace or with a grant. -/
def checkBackendRef (rr : RouteRef) (br : BackendRef) (env : Env) : RefOutcome :=
  if br.kind.any (· ≠ "Service") || br.group.any (· ≠ "") then
    ⟨false, .invalidKind, "only Service backendRefs are supported"⟩
  else
    let ns := namespaceOr br.ns rr.ns
    if ns ≠ rr.ns ∧ grantAllows (env.grants ns) rr br.name = false then
      ⟨false, .refNotPermitted, "no ReferenceGrant in namespace " ++ ns.quote ++ " allows " ++
        rr.kind.text ++ " from namespace " ++ rr.ns.quote ++ " to reference Service " ++ br.name.quote⟩
    else if env.serviceExists ns br.name = false then
      ⟨false, .backendNotFound, "Service " ++ ns ++ "/" ++ br.name ++ " does not exist"⟩
    else ⟨true, .resolvedRefs, ""⟩

end Rivora.GatewayApi

import Rivora.Controller.Build
import Rivora.GatewayApi.Attach

/-!
The objects of a cluster that the reconcilers read, as their caches hold them.

Objects are stored by name, so no two of a kind share one. The order in which a kind is listed is
that of the store and carries no meaning.
-/

namespace Rivora

/-- The name of an object of some kind. -/
structure ObjectKey where
  ns : String
  name : String
  deriving DecidableEq, Repr

/-- A Service, and the load balancer class it asks for. -/
structure ServiceObject where
  svc : Reconciler.Service
  loadBalancerClass : Option String
  deriving DecidableEq

/-- A slice of endpoints with its labels. -/
structure SliceObject where
  labels : GatewayApi.Labels
  slice : Reconciler.EndpointSlice
  deriving DecidableEq

namespace GatewayApi

/-- The name of a route. -/
structure RouteKey where
  kind : RouteKind
  ns : String
  name : String
  deriving DecidableEq, Repr

/-- A route as it is stored. -/
structure RouteObject where
  spec : RouteSpec
  deriving DecidableEq

/-- A Gateway as it is stored. -/
structure GatewayObject where
  gatewayClassName : String
  listeners : List GatewayListener
  /-- The addresses assigned to it. -/
  addresses : List String
  deriving DecidableEq

/-- A stored route as the decisions about it see it. -/
def RouteObject.ref (key : RouteKey) (route : RouteObject) : RouteRef :=
  ⟨key.kind, key.ns, key.name, route.spec⟩

/-- A stored Gateway as the decisions about it see it. -/
def GatewayObject.ref (key : ObjectKey) (gw : GatewayObject) : GatewayRef :=
  ⟨key.ns, key.name, gw.listeners⟩

end GatewayApi

open GatewayApi

/-- The label of a slice that names its Service. -/
def serviceNameLabel : String := "kubernetes.io/service-name"

/-- The objects of a cluster, by kind and name. -/
structure Cluster where
  services : FMap ObjectKey ServiceObject
  slices : FMap ObjectKey SliceObject
  /-- The controller each class names. -/
  classes : FMap String String
  gateways : FMap ObjectKey GatewayObject
  routes : FMap RouteKey RouteObject
  /-- The labels of each namespace. -/
  namespaces : FMap String Labels
  grants : FMap ObjectKey ReferenceGrant

namespace Cluster

/-- The cluster without objects. -/
def empty : Cluster := ⟨.empty, .empty, .empty, .empty, .empty, .empty, .empty⟩

/-- Look a Service up; no object is without a name. -/
def service (c : Cluster) (ns name : String) : Option ServiceObject :=
  if name = "" then none else c.services.get? ⟨ns, name⟩

/-- The slices of a Service. -/
def slicesOf (c : Cluster) (ns name : String) : List Reconciler.EndpointSlice :=
  (c.slices.entries.filter fun entry =>
    entry.1.ns = ns && entry.2.labels.get? serviceNameLabel = some name).map fun entry => entry.2.slice

/-- The grants of a namespace. -/
def grantsIn (c : Cluster) (ns : String) : List ReferenceGrant :=
  (c.grants.entries.filter fun entry => entry.1.ns = ns).map Prod.snd

/-- The routes of one kind. -/
def routesOf (c : Cluster) (kind : RouteKind) : List RouteRef :=
  (c.routes.entries.filter fun entry => entry.1.kind = kind).map fun entry => entry.2.ref entry.1

/-- Whether a class has its Gateways served here. -/
def managed (c : Cluster) (className : String) : Bool := c.classes.get? className = some controllerName

/-- What the decisions about routes read of a cluster. -/
def env (asSelector : LabelSelector → Except String (Labels → Bool)) (c : Cluster) :
    GatewayApi.Env :=
  ⟨c.namespaces.get?, c.grantsIn, fun ns name => (c.service ns name).isSome, asSelector⟩

end Cluster

end Rivora

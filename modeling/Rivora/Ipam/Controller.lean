import Mathlib.Logic.Function.Basic
import Rivora.Ipam.Allocator
import Rivora.Lib.Interaction

/-!
The address controller: Services and Gateways that are given addresses by one allocator.

The start-up program and the reconciles of all objects take turns: between two calls of one, any number
of calls of others can happen. The queues hand an object to one worker at a time, so each object has at
most one reconcile in progress.
-/

namespace Rivora.Ipam

open Interaction

/-- The two kinds of objects that are given addresses. -/
inductive Kind where
  | service
  | gateway
  deriving DecidableEq, Repr

/-- An object: its kind, and its namespace and name as one key. -/
structure Owner where
  kind : Kind
  key : String
  deriving DecidableEq, Repr

/-- The mark that holds back the deletion of an object until its address is released. -/
def finalizer : String := "rivora.zyvor.dev/ipam"

/-- The controller a managed class names. -/
def controllerName : String := "rivora.zyvor.dev/gateway-controller"

/-- An object of the API with a specification of its own. -/
structure Object (σ : Type) where
  spec : σ
  deleting : Bool
  finalizers : List String
  /-- The pool its annotation names, empty if there is none. -/
  pool : String
  /-- The addresses recorded in its status. -/
  status : List String
  deriving DecidableEq, Repr

/-- The parts of a Service's specification that matter here. -/
structure ServiceSpec where
  isLoadBalancer : Bool
  loadBalancerClass : Option String
  loadBalancerIP : String
  deriving DecidableEq, Repr

/-- The parts of a Gateway's specification that matter here. -/
structure GatewaySpec where
  gatewayClassName : String
  addresses : List String
  deriving DecidableEq, Repr

/-- A Service as the controller sees it. -/
abbrev Service := Object ServiceSpec

/-- A Gateway as the controller sees it. -/
abbrev Gateway := Object GatewaySpec

/-- The address recorded for an object: the first that is not empty, or else the empty text. -/
def Object.assignedIP {σ : Type} (obj : Object σ) : String := (obj.status.find? (· ≠ "")).getD ""

/-- Whether a Service is for this controller. -/
def ServiceSpec.managed (lbClass : String) (spec : ServiceSpec) : Bool :=
  spec.isLoadBalancer && spec.loadBalancerClass.getD "" = lbClass

/-- The address a Gateway asks for, empty if it asks for none. -/
def GatewaySpec.pinnedIP (spec : GatewaySpec) : String := spec.addresses.headD ""

/-- A pool of addresses as the API has it. -/
structure AddressPool where
  name : String
  addresses : List String
  avoidBuggyIPs : Bool
  autoAssign : Option Bool

/-- What the API holds. -/
structure Cluster where
  services : FMap String Service
  gateways : FMap String Gateway
  /-- The controller each GatewayClass names. -/
  classes : FMap String String
  pools : List AddressPool

/-- Whether a GatewayClass is for this controller. -/
def Cluster.managedGatewayClass (c : Cluster) (className : String) : Bool :=
  c.classes.get? className = some controllerName

/-- The pools whose texts parse; the others are skipped. -/
def poolsOf (pools : List AddressPool) : FMap String PoolSpec :=
  pools.foldl (fun known pool =>
    match parsePool pool.addresses pool.avoidBuggyIPs with
    | .error _ => known
    | .ok expanded =>
      known.insert pool.name ⟨expanded.addresses, expanded.prefixes, pool.autoAssign.getD true⟩) .empty

section Programs

/-- What looking an object up can answer. -/
inductive Fetched (α : Type) where
  | notFound
  | failed (e : String)
  | found (obj : α)

/-- What the controller calls. The allocator is told an object's key only. -/
inductive Request where
  | getService (key : String)
  | getGateway (key : String)
  | listServices
  | listGateways
  | managedGatewayClass (className : String)
  | patchFinalizers (o : Owner) (finalizers : List String)
  | patchStatus (o : Owner) (ip : String)
  | reserve (o : Owner) (ip : String)
  | allocate (o : Owner) (preferredPool pinnedIP : String)
  | release (o : Owner)
  | reconcilePools
  /-- Let the workers for a kind of objects begin. -/
  | startWorkers (kind : Kind)

/-- The answers to these calls. -/
def Request.Reply : Request → Type
  | .getService _ => Fetched Service
  | .getGateway _ => Fetched Gateway
  | .listServices => List (String × Service)
  | .listGateways => List (String × Gateway)
  | .managedGatewayClass _ => Bool
  | .patchFinalizers _ _ | .patchStatus _ _ | .reserve _ _ => Except String Unit
  | .allocate _ _ _ => Except String String
  | .release _ | .reconcilePools | .startWorkers _ => Unit

/-- A program that makes these requests. -/
abbrev Program := Prog Request.Reply

/-- Look a Service up. -/
def getService (key : String) : Program (Fetched Service) := Prog.ask (Request.getService key)

/-- Look a Gateway up. -/
def getGateway (key : String) : Program (Fetched Gateway) := Prog.ask (Request.getGateway key)

/-- All Services. -/
def listServices : Program (List (String × Service)) := Prog.ask Request.listServices

/-- All Gateways. -/
def listGateways : Program (List (String × Gateway)) := Prog.ask Request.listGateways

/-- Whether a GatewayClass is for this controller. -/
def managedGatewayClass (className : String) : Program Bool :=
  Prog.ask (Request.managedGatewayClass className)

/-- Record an assignment found in a status. -/
def reserve (o : Owner) (ip : String) : Program (Except String Unit) := Prog.ask (Request.reserve o ip)

/-- Tell the allocator the current pools. -/
def reconcilePools : Program Unit := Prog.ask Request.reconcilePools

/-- Let the workers for a kind begin. -/
def startWorkers (kind : Kind) : Program Unit := Prog.ask (Request.startWorkers kind)

/-- Assign an address to an object. -/
def allocate (o : Owner) (preferredPool pinnedIP : String) : Program (Except String String) :=
  Prog.ask (Request.allocate o preferredPool pinnedIP)

/-- Free the address of an object. -/
def release (o : Owner) : Program Unit := Prog.ask (Request.release o)

/-- Replace the finalizers of an object. -/
def patchFinalizers (o : Owner) (finalizers : List String) : Program (Except String Unit) :=
  Prog.ask (Request.patchFinalizers o finalizers)

/-- Record an address in the status of an object. -/
def patchStatus (o : Owner) (ip : String) : Program (Except String Unit) :=
  Prog.ask (Request.patchStatus o ip)

/-- Reconcile an object that was looked up, given whether it is managed. -/
def reconcileFound {σ : Type} (o : Owner) (obj : Object σ) (managed : Bool) (pinnedIP : String) :
    Program (Except String Unit) :=
  if !managed || obj.deleting then
    if finalizer ∈ obj.finalizers then do
      release o
      patchFinalizers o (obj.finalizers.filter (· ≠ finalizer))
    else return .ok ()
  else if finalizer ∉ obj.finalizers then patchFinalizers o (obj.finalizers ++ [finalizer])
  else do
    match ← allocate o obj.pool pinnedIP with
    | .error e => return .error ("allocate address: " ++ e)
    | .ok ip => if obj.assignedIP = ip then return .ok () else patchStatus o ip

/-- Reconcile a Service. -/
def reconcileService (lbClass key : String) : Program (Except String Unit) := do
  match ← getService key with
  | .notFound => do
    release ⟨.service, key⟩
    return .ok ()
  | .failed e => return .error e
  | .found svc =>
    reconcileFound ⟨.service, key⟩ svc (svc.spec.managed lbClass) svc.spec.loadBalancerIP

/-- Reconcile a Gateway. -/
def reconcileGateway (key : String) : Program (Except String Unit) := do
  match ← getGateway key with
  | .notFound => do
    release ⟨.gateway, key⟩
    return .ok ()
  | .failed e => return .error e
  | .found gw => do
    let managed ← managedGatewayClass gw.spec.gatewayClassName
    reconcileFound ⟨.gateway, key⟩ gw managed gw.spec.pinnedIP

/-- Reconcile an object of either kind. -/
def reconcile (lbClass : String) (o : Owner) : Program (Except String Unit) :=
  match o.kind with
  | .service => reconcileService lbClass o.key
  | .gateway => reconcileGateway o.key

/-- Reserve the address recorded for a managed object, if there is one; a refusal is only logged. -/
def reserveAssigned {σ : Type} (o : Owner) (obj : Object σ) (managed : Bool) : Program Unit :=
  if !managed || obj.assignedIP = "" then return ()
  else do
    let _ ← reserve o obj.assignedIP
    return ()

/-- Reserve the addresses of the managed Services of a list. -/
def reserveServices (lbClass : String) : List (String × Service) → Program Unit
  | [] => return ()
  | (key, svc) :: rest => do
    reserveAssigned ⟨.service, key⟩ svc (svc.spec.managed lbClass)
    reserveServices lbClass rest

/-- Reserve the addresses of the managed Gateways of a list. -/
def reserveGateways : List (String × Gateway) → Program Unit
  | [] => return ()
  | (key, gw) :: rest => do
    let managed ← managedGatewayClass gw.spec.gatewayClassName
    reserveAssigned ⟨.gateway, key⟩ gw managed
    reserveGateways rest

/-- Reserve the Gateways' addresses and let their workers begin. -/
def startGateways : Program (Except String Unit) := do
  let gateways ← listGateways
  reserveGateways gateways
  startWorkers .gateway
  return .ok ()

/-- Start up: pools, then the Services' addresses, then their workers, and then the same for Gateways. -/
def startUp (lbClass : String) (enableGatewayAPI : Bool) : Program (Except String Unit) := do
  reconcilePools
  let services ← listServices
  reserveServices lbClass services
  startWorkers .service
  if enableGatewayAPI then startGateways else return .ok ()

end Programs

/-- Who makes calls: the start-up program, or the worker that has an object. -/
inductive Thread where
  | main
  | worker (o : Owner)
  deriving DecidableEq

/-- The controller and the cluster it works on. -/
structure Controller where
  lbClass : String
  enableGatewayAPI : Bool
  cluster : Cluster
  allocator : Allocator
  /-- The address each object was given and has not given back. -/
  holds : FMap Owner String
  /-- What is left of the programs in progress. -/
  left : Thread → Option (Program (Except String Unit))
  /-- Which workers have been started. -/
  serving : Kind → Bool

/-- The controller before it starts up. -/
def Controller.start (lbClass : String) (enableGatewayAPI : Bool) (cluster : Cluster) : Controller :=
  { lbClass := lbClass
    enableGatewayAPI := enableGatewayAPI
    cluster := cluster
    allocator := .new
    holds := .empty
    left := fun t => if t = .main then some (startUp lbClass enableGatewayAPI) else none
    serving := fun _ => false }

/-- What a call does not decide: whether the API fails, and the choices of the allocator. -/
structure Outcome where
  /-- The error of the API, and whether a write takes effect all the same. -/
  fails : Option (String × Bool)
  chance : Chance

section Answers

/-- An object with other finalizers; one that is being deleted is gone with its last. -/
def Object.withFinalizers {σ : Type} (obj : Object σ) (finalizers : List String) : Option (Object σ) :=
  if obj.deleting ∧ finalizers = [] then none else some { obj with finalizers := finalizers }

/-- A map with the value of a key changed, or erased if it has none left. -/
def updateKey {ν : Type} (m : FMap String ν) (key : String) (f : ν → Option ν) : FMap String ν :=
  match m.get? key with
  | none => m
  | some v =>
    match f v with
    | none => m.erase key
    | some v' => m.insert key v'

/-- The cluster with the finalizers of an object replaced. -/
def Cluster.setFinalizers (c : Cluster) (o : Owner) (finalizers : List String) : Cluster :=
  match o.kind with
  | .service => { c with services := updateKey c.services o.key (·.withFinalizers finalizers) }
  | .gateway => { c with gateways := updateKey c.gateways o.key (·.withFinalizers finalizers) }

/-- The cluster with an address recorded for an object. -/
def Cluster.setStatus (c : Cluster) (o : Owner) (ip : String) : Cluster :=
  match o.kind with
  | .service => { c with services := updateKey c.services o.key fun obj => some { obj with status := [ip] } }
  | .gateway => { c with gateways := updateKey c.gateways o.key fun obj => some { obj with status := [ip] } }

/-- Whether the API has an object. -/
def Cluster.has (c : Cluster) (o : Owner) : Bool :=
  match o.kind with
  | .service => c.services.contains o.key
  | .gateway => c.gateways.contains o.key

/-- What looking a key up in the API answers. -/
def fetch {ν : Type} (m : FMap String ν) (key : String) (outcome : Outcome) : Fetched ν :=
  match outcome.fails, m.get? key with
  | some (e, _), _ => .failed e
  | none, none => .notFound
  | none, some v => .found v

/-- A write to an object of the API. -/
def Controller.patch (s : Controller) (o : Owner) (outcome : Outcome) (c : Cluster) :
    Except String Unit × Controller :=
  if !s.cluster.has o then (.error "not found", s)
  else
    match outcome.fails with
    | none => (.ok (), { s with cluster := c })
    | some (e, applied) => (.error e, if applied then { s with cluster := c } else s)

/-- The answer to a call. -/
def Controller.answer (outcome : Outcome) : (r : Request) → Controller → r.Reply × Controller
  | .getService key, s => (fetch s.cluster.services key outcome, s)
  | .getGateway key, s => (fetch s.cluster.gateways key outcome, s)
  | .listServices, s => (s.cluster.services.entries, s)
  | .listGateways, s => (s.cluster.gateways.entries, s)
  | .managedGatewayClass className, s => (s.cluster.managedGatewayClass className, s)
  | .patchFinalizers o finalizers, s => s.patch o outcome (s.cluster.setFinalizers o finalizers)
  | .patchStatus o ip, s => s.patch o outcome (s.cluster.setStatus o ip)
  | .reserve o ip, s =>
    let (r, allocator) := s.allocator.reserve outcome.chance ip o.key
    (r, { s with
      allocator := allocator
      holds := match r with
        | .ok _ => s.holds.insert o ip
        | .error _ => s.holds })
  | .allocate o preferredPool pinnedIP, s =>
    let (r, allocator) := s.allocator.allocate outcome.chance o.key preferredPool pinnedIP
    (r, { s with
      allocator := allocator
      holds := match r with
        | .ok ip => s.holds.insert o ip
        | .error _ => s.holds })
  | .release o, s => ((), { s with allocator := s.allocator.release o.key, holds := s.holds.erase o })
  | .reconcilePools, s => ((), { s with allocator := s.allocator.setPools (poolsOf s.cluster.pools) })
  | .startWorkers kind, s => ((), { s with serving := Function.update s.serving kind true })

end Answers

/-- What others do to the cluster. -/
inductive Change where
  | service (key : String) (svc : Option Service)
  | gateway (key : String) (gw : Option Gateway)
  | classes (classes : FMap String String)
  | pools (pools : List AddressPool)

/-- A map with one key set or erased. -/
def setKey {ν : Type} (m : FMap String ν) (key : String) : Option ν → FMap String ν
  | none => m.erase key
  | some v => m.insert key v

/-- The cluster after others changed it. -/
def Cluster.change (c : Cluster) : Change → Cluster
  | .service key svc => { c with services := setKey c.services key svc }
  | .gateway key gw => { c with gateways := setKey c.gateways key gw }
  | .classes classes => { c with classes := classes }
  | .pools pools => { c with pools := pools }

/-- What can happen next. -/
inductive Turn where
  /-- A worker takes an object up. -/
  | begin (o : Owner)
  /-- A program in progress makes its next call, or returns. -/
  | advance (t : Thread) (outcome : Outcome)
  /-- The pool worker reads the pools again. -/
  | syncPools
  | change (c : Change)

/-- A program taken further. -/
def Controller.setLeft (s : Controller) (t : Thread) (left : Option (Program (Except String Unit))) :
    Controller :=
  { s with left := Function.update s.left t left }

/-- One turn. -/
def Controller.step (s : Controller) : Turn → Controller
  | .begin o =>
    -- The queue does not hand out an object that is being worked on.
    if s.serving o.kind ∧ (s.left (.worker o)).isNone then
      s.setLeft (.worker o) (some (reconcile s.lbClass o))
    else s
  | .advance t outcome =>
    match s.left t with
    | none => s
    | some (.done _) => s.setLeft t none
    | some (.call r next) =>
      let (reply, s') := Controller.answer outcome r s
      s'.setLeft t (some (next reply))
  | .syncPools =>
    if s.serving .service then
      { s with allocator := s.allocator.setPools (poolsOf s.cluster.pools) }
    else s
  | .change c => { s with cluster := s.cluster.change c }

end Rivora.Ipam

import Rivora.Bpf.Maps
import Rivora.Config
import Rivora.Dataplane.IdAlloc
import Rivora.Dataplane.MaglevAlloc
import Rivora.Lib.Effect

/-! The control plane's live state, and the effects its operations are written in. -/

namespace Rivora

/-- A node's live state for one VIP. -/
structure ServiceEntry where
  serviceID : Nat
  /-- The VIP as the last successful caller supplied it. -/
  vipSpec : VIP
  /-- The VIP as programmed, with the weight overrides applied. -/
  vip : VIP
  weightOverrides : FMap String Nat
  /-- The VIP's current backends, by name. -/
  backendIDs : FMap String Nat
  extent : Extent

/-- A node's live state for one backend, shared by every VIP that lists it. -/
structure BackendState where
  address : String
  port : UInt16
  isV4 : Bool
  probeHealthy : Bool
  draining : Bool
  probe : ProbeSpec
  mac : Mac
  hasMAC : Bool
  adminDraining : Bool
  refCount : Int

/-- Which of the optional maps the loaded datapath object has. -/
structure Datapath where
  tunnelConfig : Bool
  svcRlConfig : Bool
  vipRange : Bool
  vipRange6 : Bool
  dropStats : Bool
  deriving DecidableEq, Repr

/-- The control plane of one node. -/
structure Dataplane where
  interface : String
  /-- The number of CPUs, by which a rate limit is divided. -/
  numCPU : UInt64
  dp : Datapath
  services : FMap String ServiceEntry
  backendStates : FMap Nat BackendState
  serviceAlloc : IdAllocator
  backendAlloc : IdAllocator
  maglevAlloc : ExtentAllocator
  tunnelSrc4 : Option IP
  tunnelSrc6 : Option IP
  /-- VIPs recovered from an earlier run that nobody has programmed since. -/
  unclaimed : FMap String Bool

/-- What is fixed about a node before any VIP is programmed. -/
structure NodeConfig where
  interface : String
  numCPU : UInt64
  dp : Datapath
  tunnelSrc4 : Option IP
  tunnelSrc6 : Option IP

/-- A control plane that has programmed nothing. -/
def Dataplane.new (node : NodeConfig) : Dataplane where
  interface := node.interface
  numCPU := node.numCPU
  dp := node.dp
  services := FMap.empty
  backendStates := FMap.empty
  serviceAlloc := IdAllocator.new maxVIPs
  backendAlloc := IdAllocator.new maxBackends
  maglevAlloc := ExtentAllocator.new maglevM
  tunnelSrc4 := node.tunnelSrc4
  tunnelSrc6 := node.tunnelSrc6
  unclaimed := FMap.empty

/-- The errors callers tell apart. -/
inductive Sentinel where
  | backendNotFound
  | vipNotFound
  | invalidWeight
  deriving DecidableEq, Repr

/-- An error: its text, and the sentinel it wraps if any. -/
structure GoError where
  text : String
  sentinel : Option Sentinel
  deriving DecidableEq, Repr

/-- An error with no sentinel. -/
def GoError.plain (text : String) : GoError := ⟨text, none⟩

/-- The same error behind a text in front. -/
def GoError.wrap (front : String) (e : GoError) : GoError := ⟨front ++ e.text, e.sentinel⟩

/-- What an operation works on: the control state, and the writes the kernel has taken. -/
structure World where
  plane : Dataplane
  /-- The map writes that took effect, oldest first. -/
  writes : List MapWrite
  /-- How many choices the environment has made. -/
  clock : Nat

/-- The choices an operation does not make: which writes fail, and the order of map iterations. -/
structure Env where
  /-- The error of a map write at a time, if it fails. -/
  fails : Nat → MapWrite → Option String
  /-- The order in which a map with these keys is walked at a time. -/
  order : Nat → List String → List String
  order_perm : ∀ time keys, (order time keys).Perm keys

/-- A map write may fail. -/
def Env.Fails (env : Env) (w : MapWrite) : Prop := ∃ time, env.fails time w ≠ none

/-- No map write fails. -/
def Env.Reliable (env : Env) : Prop := ∀ w, ¬ env.Fails w

/-- An operation on the control plane: it can write, fail and ask its surroundings. -/
abbrev M := Effect Env World GoError

/-- The world one choice later. -/
def World.tick (s : World) : World := { s with clock := s.clock + 1 }

/-- The world with another control state. -/
def World.withPlane (s : World) (plane : Dataplane) : World := { s with plane := plane }

/-- Ask the kernel for one map write. -/
def write (w : MapWrite) : M Unit := fun env s =>
  match env.fails s.clock w with
  | some text => (.error (.plain text), s.tick)
  | none =>
    if w.inBounds then (.ok (), { s.tick with writes := s.writes ++ [w] })
    else (.error (.plain "update: argument list too long"), s.tick)

/-- The keys of a map in the order an iteration visits them. -/
def iterate (keys : List String) : M (List String) := fun env s =>
  (.ok (env.order s.clock keys), s.tick)

/-- Read the control state. -/
def getPlane : M Dataplane := Effect.read World.plane

/-- Change the control state. -/
def modifyPlane (f : Dataplane → Dataplane) : M Unit :=
  Effect.update fun s => s.withPlane (f s.plane)

/-- The control state with one VIP's entry changed, if it has one. -/
def Dataplane.modifyEntry (p : Dataplane) (key : String) (f : ServiceEntry → ServiceEntry) :
    Dataplane :=
  match p.services.get? key with
  | none => p
  | some entry => { p with services := p.services.insert key (f entry) }

/-- The control state with one backend's state changed, if it has one. -/
def Dataplane.modifyBackend (p : Dataplane) (id : Nat) (f : BackendState → BackendState) :
    Dataplane :=
  match p.backendStates.get? id with
  | none => p
  | some st => { p with backendStates := p.backendStates.insert id (f st) }

end Rivora

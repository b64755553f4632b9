import Rivora.ConfigLaws
import Rivora.GatewayApi.Build
import Rivora.Lib.FirstSeen

/-! What the slices of a Service offer, and what the references of a listener's routes gather of it. -/

namespace Rivora

open FirstSeen

namespace Reconciler

/-- What one endpoint offers under a port: its backends, and whether they are ready. -/
def Endpoint.candidates (node : String) (weigh : Endpoint → Nat) (port : UInt16) (ep : Endpoint) :
    List (Backend × Bool) :=
  if endpointServing ep ∧ (node = "" ∨ ep.nodeName = some node) then
    ep.addresses.filterMap fun addr => (parseIP addr).map fun ip =>
      (⟨ip.text, port, "", weigh ep⟩, ep.conditions.ready.getD false)
  else []

/-- What the endpoints of a slice offer under a port. -/
def EndpointSlice.candidates (portName node : String) (weigh : Endpoint → Nat) (slice : EndpointSlice) :
    List (Backend × Bool) :=
  match portForName slice.ports portName with
  | none => []
  | some port => slice.endpoints.flatMap (Endpoint.candidates node weigh port)

/-- What all endpoints of all slices offer under a port. -/
def candidates (slices : List EndpointSlice) (portName node : String) (weigh : Endpoint → Nat) :
    List (Backend × Bool) :=
  slices.flatMap (EndpointSlice.candidates portName node weigh)

/-- The name of what is offered. -/
def candidateName (candidate : Backend × Bool) : String := backendName candidate.1

/-- Collect a candidate, unless its name was seen before. -/
def Collected.keep (c : Collected) (candidate : Backend × Bool) : Collected :=
  if candidateName candidate ∈ c.seen then c
  else
    { backends := c.backends ++ [candidate.1]
      draining := if candidate.2 then c.draining else c.draining ++ [candidate.1]
      seen := candidateName candidate :: c.seen }

theorem addEndpoint_eq (node : String) (weigh : Endpoint → Nat) (port : UInt16) (c : Collected) (ep : Endpoint) :
    c.addEndpoint node weigh port ep = (ep.candidates node weigh port).foldl Collected.keep c := by
  unfold Collected.addEndpoint Endpoint.candidates
  split
  · rw [List.foldl_filterMap]
    congr 1
    funext c addr
    -- A text that is no address is passed over.
    unfold Collected.add
    cases parseIP addr with
    | none => rfl
    | some ip => rfl
  · rfl

/-- The collection shows the candidates kept so far. -/
structure Collected.Shows (kept : List (Backend × Bool)) (c : Collected) : Prop where
  backends : c.backends = kept.map Prod.fst
  draining : c.draining = (kept.filter fun candidate => !candidate.2).map Prod.fst
  seen : ∀ name, name ∈ c.seen ↔ name ∈ kept.map candidateName

theorem Collected.Shows.keep {kept : List (Backend × Bool)} {c : Collected} (state : c.Shows kept)
    (candidate : Backend × Bool) :
    (c.keep candidate).Shows (FirstSeen.keep candidateName kept candidate) := by
  unfold Collected.keep FirstSeen.keep
  by_cases seen : candidateName candidate ∈ c.seen
  · rw [if_pos seen, if_pos ((state.seen _).mp seen)]
    exact state
  · rw [if_neg seen, if_neg (mt (state.seen _).mpr seen)]
    refine ⟨?_, ?_, fun name => ?_⟩
    · simp only [state.backends, List.map_append, List.map_singleton]
    · -- A candidate that is not ready is draining as well.
      obtain ⟨backend, ready⟩ := candidate
      cases ready <;> simp [state.draining]
    · rw [List.mem_cons, state.seen, List.map_append, List.map_singleton, List.mem_append, List.mem_singleton,
        or_comm]

/-- The slices are read candidate by candidate. -/
theorem Collected.Shows.run {kept : List (Backend × Bool)} {c : Collected} (state : c.Shows kept)
    (rest : List (Backend × Bool)) :
    (rest.foldl Collected.keep c).Shows (rest.foldl (FirstSeen.keep candidateName) kept) := by
  induction rest generalizing kept c with
  | nil => exact state
  | cons candidate rest ih => exact ih (state.keep candidate)

/-- The first candidate of each name is kept. -/
theorem endpointsForPort_eq (slices : List EndpointSlice) (portName node : String) (weigh : Endpoint → Nat) :
    endpointsForPort slices portName node weigh =
      ((firsts candidateName (candidates slices portName node weigh)).map Prod.fst,
        ((firsts candidateName (candidates slices portName node weigh)).filter fun candidate => !candidate.2).map
          Prod.fst) := by
  -- The nested loops run over the candidates of all slices in order.
  have flat : slices.foldl (fun c slice =>
      match portForName slice.ports portName with
      | none => c
      | some port => slice.endpoints.foldl (Collected.addEndpoint node weigh port) c) ⟨[], [], []⟩ =
        (candidates slices portName node weigh).foldl Collected.keep ⟨[], [], []⟩ := by
    rw [candidates, List.foldl_flatMap]
    congr 1
    funext c slice
    unfold EndpointSlice.candidates
    cases portForName slice.ports portName with
    | none => rfl
    | some port =>
      simp only [List.foldl_flatMap]
      congr 1
      funext c ep
      exact addEndpoint_eq node weigh port c ep
  have start : Collected.Shows [] ⟨[], [], []⟩ := ⟨rfl, rfl, by simp⟩
  have state := start.run (candidates slices portName node weigh)
  rw [← flat] at state
  exact Prod.ext state.backends state.draining

end Reconciler

namespace GatewayApi

open Reconciler (DesiredVIP endpointsForPort sameFamily candidates candidateName
  EndpointSlice Endpoint)

variable {g : Gathered} {kept draining : List Backend}

/-- A port of a Service by name. -/
structure Target where
  ns : String
  service : String
  portName : String

/-- What a backend reference leads to, if it leads anywhere. -/
def refTarget (c : Cluster) (routeNs : String) (br : BackendRef) : Option Target :=
  if br.kind.any (· ≠ "Service") then none
  else
    match br.port with
    | none => none
    | some port =>
      match c.service (namespaceOr br.ns routeNs) br.name with
      | none => none
      | some svc =>
        (svc.svc.ports.find? fun p => p.port = port).map fun p => ⟨namespaceOr br.ns routeNs, br.name, p.name⟩

/-- The backends at the end of a reference, each with its share of the weight, and those that are draining. -/
def Target.backends (c : Cluster) (weight : Option Int32) (target : Target) : List Backend × List Backend :=
  let (ready, draining) := endpointsForPort (c.slicesOf target.ns target.service) target.portName "" fun _ => 0
  (ready.map fun b => { b with weight := perBackend weight ready.length }, draining)

/-- A reference leads to its target's endpoints. -/
theorem resolveBackendRef_eq (c : Cluster) (routeNs : String) (br : BackendRef) :
    (resolveBackendRef c routeNs br).toOption = (refTarget c routeNs br).map (Target.backends c br.weight) := by
  unfold resolveBackendRef refTarget
  dsimp only
  split
  · rfl
  · cases br.port with
    | none => rfl
    | some port =>
      dsimp only
      cases c.service (namespaceOr br.ns routeNs) br.name with
      | none => rfl
      | some svc =>
        dsimp only
        cases svc.svc.ports.find? fun p => p.port = port with
        | none => rfl
        | some p => rfl

/-- What a route's reference contributes to a listener; nothing if it may not be used or leads nowhere. -/
def contribution (c : Cluster) (env : Env) (source : RouteRef × BackendRef) : List Backend × List Backend :=
  if (checkBackendRef source.1 source.2 env).resolved = false then ([], [])
  else ((refTarget c source.1.ns source.2).map (Target.backends c source.2.weight)).getD ([], [])

/-- A reference adds its contribution. -/
theorem addRef_eq (c : Cluster) (env : Env) (g : Gathered) (source : RouteRef × BackendRef) :
    g.addRef c env source =
      { (contribution c env source).1.foldl Gathered.add g with
        draining :=
          ((contribution c env source).1.foldl Gathered.add g).draining ++ (contribution c env source).2 } := by
  unfold Gathered.addRef contribution
  split
  · simp
  · rw [← resolveBackendRef_eq]
    cases resolveBackendRef c source.1.ns source.2 with
    | error e => simp [Except.toOption]
    | ok found => rfl

/-- The gathering shows the backends kept so far and all that are draining. -/
structure Gathered.Shows (kept draining : List Backend) (g : Gathered) : Prop where
  backends : g.backends = kept
  draining : g.draining = draining
  seen : ∀ name, name ∈ g.seen ↔ name ∈ kept.map backendName

theorem Gathered.Shows.add (state : g.Shows kept draining)
    (b : Backend) : (g.add b).Shows (FirstSeen.keep backendName kept b) draining := by
  unfold Gathered.add FirstSeen.keep
  by_cases seen : backendName b ∈ g.seen
  · rw [if_pos seen, if_pos ((state.seen _).mp seen)]
    exact state
  · rw [if_neg seen, if_neg (mt (state.seen _).mpr seen)]
    refine ⟨by rw [state.backends], state.draining, fun name => ?_⟩
    rw [List.mem_cons, state.seen, List.map_append, List.map_singleton, List.mem_append, List.mem_singleton,
      or_comm]

theorem Gathered.Shows.addAll (state : g.Shows kept draining)
    (bs : List Backend) :
    (bs.foldl Gathered.add g).Shows (bs.foldl (FirstSeen.keep backendName) kept) draining := by
  induction bs generalizing kept g with
  | nil => exact state
  | cons b rest ih => exact ih (state.add b)

/-- The references are read one by one. -/
theorem Gathered.Shows.run (c : Cluster) (env : Env)
    (state : g.Shows kept draining) (sources : List (RouteRef × BackendRef)) :
    (sources.foldl (Gathered.addRef c env) g).Shows
      ((sources.flatMap fun source => (contribution c env source).1).foldl (FirstSeen.keep backendName) kept)
      (draining ++ sources.flatMap fun source => (contribution c env source).2) := by
  induction sources generalizing kept draining g with
  | nil => simpa using state
  | cons source rest ih =>
    rw [List.foldl_cons, addRef_eq, List.flatMap_cons, List.foldl_append, List.flatMap_cons, ← List.append_assoc]
    have added := state.addAll (contribution c env source).1
    exact ih ⟨added.backends, by rw [added.draining], added.seen⟩

/-- The references of the routes that attach to a listener. -/
def listenerRefs (env : Env) (gw : GatewayRef) (l : GatewayListener) (routes : List RouteRef) :
    List (RouteRef × BackendRef) :=
  (routes.filter (attaches env gw l)).flatMap RouteRef.backendRefs

/-- The first backend of each name is kept. -/
theorem listenerBackends_eq (c : Cluster) (env : Env) (gw : GatewayRef) (l : GatewayListener)
    (routes : List RouteRef) :
    (listenerBackends c env gw l routes).backends =
        firsts backendName ((listenerRefs env gw l routes).flatMap fun source => (contribution c env source).1) ∧
      (listenerBackends c env gw l routes).draining =
        (listenerRefs env gw l routes).flatMap fun source => (contribution c env source).2 := by
  have start : Gathered.Shows [] [] ⟨[], [], []⟩ := ⟨rfl, rfl, by simp⟩
  have state := start.run c env (listenerRefs env gw l routes)
  exact ⟨state.backends, state.draining⟩

section Offers

variable {slices slices' : List EndpointSlice} {portName portName' : String} {w : Nat} {x y : Backend × Bool}

/-- Everything a slice offers has the number of the port it was asked for, and the weight given. -/
theorem mem_sliceCandidates {slice : EndpointSlice}
    (offered : x ∈ slice.candidates portName "" fun _ => w) :
    slice.candidates portName "" (fun _ => w) =
        slice.endpoints.flatMap (Endpoint.candidates "" (fun _ => w) x.1.port) ∧
      x.1.mac = "" ∧ x.1.weight = w := by
  unfold EndpointSlice.candidates at offered ⊢
  cases port : Reconciler.portForName slice.ports portName with
  | none =>
    rw [port] at offered
    cases offered
  | some port' =>
    rw [port] at offered
    obtain ⟨ep, -, offers⟩ := List.mem_flatMap.mp offered
    unfold Endpoint.candidates at offers
    split at offers
    · obtain ⟨addr, -, made⟩ := List.mem_filterMap.mp offers
      obtain ⟨ip, -, rfl⟩ := Option.map_eq_some_iff.mp made
      exact ⟨rfl, rfl, rfl⟩
    · cases offers

/-- The name of what is offered tells the backend. -/
theorem eq_of_candidateName (offered : x ∈ candidates slices portName "" fun _ => w)
    (offered' : y ∈ candidates slices' portName' "" fun _ => w) (same : candidateName x = candidateName y) :
    x.1 = y.1 := by
  obtain ⟨slice, -, offered⟩ := List.mem_flatMap.mp offered
  obtain ⟨slice', -, offered'⟩ := List.mem_flatMap.mp offered'
  obtain ⟨-, mac, weight⟩ := mem_sliceCandidates offered
  obtain ⟨-, mac', weight'⟩ := mem_sliceCandidates offered'
  obtain ⟨address, port⟩ := backendName_inj same
  rcases x with ⟨⟨_, _, _, _⟩, _⟩
  rcases y with ⟨⟨_, _, _, _⟩, _⟩
  simp_all

theorem mem_endpointsForPort {b : Backend} :
    b ∈ (endpointsForPort slices portName "" fun _ => w).1 ↔
      ∃ x ∈ candidates slices portName "" fun _ => w, x.1 = b := by
  rw [Reconciler.endpointsForPort_eq, List.mem_map]
  constructor
  · rintro ⟨x, kept, is⟩
    exact ⟨x, mem_of_mem_firsts kept, is⟩
  · rintro ⟨x, offered, rfl⟩
    obtain ⟨y, kept, same⟩ := exists_first candidateName offered
    exact ⟨y, kept, eq_of_candidateName (mem_of_mem_firsts kept) offered same⟩

theorem endpointsForPort_nodup :
    ((endpointsForPort slices portName "" fun _ => w).1.map backendName).Nodup := by
  rw [Reconciler.endpointsForPort_eq, List.map_map]
  exact keys_firsts_nodup _

/-- The backends of a port do not depend on the order of the slices; those that are draining may. -/
theorem endpointsForPort_perm (perm : slices.Perm slices') :
    (endpointsForPort slices portName "" fun _ => w).1.Perm
      (endpointsForPort slices' portName "" fun _ => w).1 := by
  refine (List.perm_ext_iff_of_nodup endpointsForPort_nodup.of_map endpointsForPort_nodup.of_map).mpr fun b => ?_
  simp only [mem_endpointsForPort, candidates, (perm.flatMap_right _).mem_iff]

end Offers

/-- A reference names each endpoint once, with one weight. -/
theorem contribution_spec (c : Cluster) (env : Env) (source : RouteRef × BackendRef) :
    ((contribution c env source).1.map backendName).Nodup ∧
      ∀ b ∈ (contribution c env source).1,
        b.weight = perBackend source.2.weight (contribution c env source).1.length := by
  unfold contribution
  split
  · simp
  · cases refTarget c source.1.ns source.2 with
    | none => simp
    | some target =>
      simp only [Option.map_some, Option.getD_some, Target.backends, List.map_map, List.length_map]
      rw [Reconciler.endpointsForPort_eq]
      constructor
      · -- The weight is no part of the name, and the first candidates have names of their own.
        rw [List.map_map]
        exact keys_firsts_nodup (candidates (c.slicesOf target.ns target.service) target.portName "" fun _ => 0)
      · intro b mem
        obtain ⟨_, _, rfl⟩ := List.mem_map.mp mem
        rfl

end GatewayApi

end Rivora

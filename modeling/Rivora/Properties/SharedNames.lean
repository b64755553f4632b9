import Rivora.Ipam.ControllerLaws
import Rivora.Properties.Ownership

/-! Services and Gateways that share an allocator. -/

namespace Rivora.Ipam

open Run

/-- In every run in which names are of one kind and texts canonical, the kinds hold different addresses. -/
theorem kinds_hold_different_addresses (names : String → Kind) (lbClass : String) (api : Bool)
    (cluster : Cluster) (tidied : cluster.Tidy names) (turns : List Turn)
    (kept : ∀ turn ∈ turns, turn.Tidy names) :
    (∀ svc gw ip ip',
      (run Controller.step (.start lbClass api cluster) turns).holds.get? ⟨.service, svc⟩ = some ip →
      (run Controller.step (.start lbClass api cluster) turns).holds.get? ⟨.gateway, gw⟩ = some ip' →
      ¬ SameAddress ip ip') ∧
    ∀ o ip, (run Controller.step (.start lbClass api cluster) turns).holds.get? o = some ip →
      (run Controller.step (.start lbClass api cluster) turns).allocator.addrOwner.get? ip = some o.key ∧
      (run Controller.step (.start lbClass api cluster) turns).allocator.ownerAddr.get? o.key = some ip := by
  have along : Along Controller.step (fun _ turn => turn.Tidy names) (.start lbClass api cluster) turns :=
    along_of_forall kept _
  obtain ⟨sound, _⟩ := Run.invariant (P := fun s => s.Sound names ∧ s.Disciplined names)
    (fun holds tidied => holds.1.step holds.2 tidied) (Controller.sound_start lbClass api tidied) along
  generalize run Controller.step (.start lbClass api cluster) turns = s at sound ⊢
  constructor
  · intro svc gw ip ip' held held'
    obtain ⟨named, has⟩ := sound.given _ ip held
    obtain ⟨named', has'⟩ := sound.given _ ip' held'
    -- The names are of different kinds, so the keys differ.
    have other : svc ≠ gw := by
      intro same
      subst same
      rw [named] at named'
      cases named'
    exact not_sameAddress sound.backed sound.spelled has has' other
  · intro o ip held
    obtain ⟨_, has⟩ := sound.given o ip held
    exact ⟨sound.backed o.key ip has, has⟩

section Example

/-- A call that succeeds. -/
def Outcome.plain : Outcome := ⟨none, .plain⟩

/-- A Service without an address. -/
def waitingService : Service := ⟨⟨true, some "rivora", ""⟩, false, [finalizer], "", []⟩

/-- A Gateway without an address. -/
def waitingGateway : Gateway := ⟨⟨"rivora", []⟩, false, [finalizer], "", []⟩

/-- A Service and a Gateway under these names, and a pool of two addresses. -/
def pairCluster (svc gw : String) : Cluster :=
  { services := FMap.ofList [(svc, waitingService)]
    gateways := FMap.ofList [(gw, waitingGateway)]
    classes := FMap.ofList [("rivora", controllerName)]
    pools := [⟨"v4", ["10.0.0.1-10.0.0.2"], false, none⟩] }

/-- Start up, and reconcile the Service and then the Gateway. -/
def reconcileBoth (svc gw : String) : List Turn :=
  List.replicate 7 (.advance .main .plain) ++
    [.begin ⟨.service, svc⟩] ++ List.replicate 4 (.advance (.worker ⟨.service, svc⟩) .plain) ++
    [.begin ⟨.gateway, gw⟩] ++ List.replicate 5 (.advance (.worker ⟨.gateway, gw⟩) .plain)

/-- The names of a cluster in which one name is a Gateway's. -/
def oneGateway (gw key : String) : Kind := if key = gw then .gateway else .service

theorem tidy_pairCluster : (pairCluster "default/web" "default/edge").Tidy (oneGateway "default/edge") := by
  intro o v seen
  obtain ⟨kind, key⟩ := o
  have waiting : ∀ v : View, v.pinnedIP = "" → v.status = [] → v.Written := by
    rintro ⟨managed, deleting, pinnedIP, status⟩ rfl rfl
    exact ⟨canonical_empty, nofun⟩
  cases kind with
  | service =>
    obtain ⟨svc, found, rfl⟩ := Option.map_eq_some_iff.mp seen
    have member := FMap.mem_of_get?_ofList found
    simp only [List.mem_singleton, Prod.mk.injEq] at member
    obtain ⟨named, rfl⟩ := member
    exact ⟨by rw [named]; decide, waiting _ rfl rfl⟩
  | gateway =>
    obtain ⟨gw, found, rfl⟩ := Option.map_eq_some_iff.mp seen
    have member := FMap.mem_of_get?_ofList found
    simp only [List.mem_singleton, Prod.mk.injEq] at member
    obtain ⟨named, rfl⟩ := member
    exact ⟨by rw [named]; decide, waiting _ rfl rfl⟩

/-- Under different names the Service and the Gateway are given the two addresses of the pool. -/
theorem kinds_hold_different_addresses_of_pool :
    let s := run Controller.step (.start "rivora" true (pairCluster "default/web" "default/edge"))
      (reconcileBoth "default/web" "default/edge")
    s.holds.get? ⟨.service, "default/web"⟩ = some "10.0.0.1" ∧
      s.holds.get? ⟨.gateway, "default/edge"⟩ = some "10.0.0.2" ∧ ¬ SameAddress "10.0.0.1" "10.0.0.2" := by
  intro s
  have service : s.holds.get? ⟨.service, "default/web"⟩ = some "10.0.0.1" := by decide +kernel
  have gateway : s.holds.get? ⟨.gateway, "default/edge"⟩ = some "10.0.0.2" := by decide +kernel
  refine ⟨service, gateway, ?_⟩
  refine (kinds_hold_different_addresses (oneGateway "default/edge") "rivora" true _ tidy_pairCluster
    (reconcileBoth "default/web" "default/edge") ?_).1 _ _ _ _ service gateway
  -- The only turns that are restricted are those that take an object up.
  intro turn member
  simp only [reconcileBoth, List.mem_append, List.mem_replicate, List.mem_singleton] at member
  rcases member with (((⟨_, rfl⟩ | rfl) | ⟨_, rfl⟩) | rfl) | ⟨_, rfl⟩
  · trivial
  · exact (by decide : oneGateway "default/edge" "default/web" = .service)
  · trivial
  · exact (by decide : oneGateway "default/edge" "default/edge" = .gateway)
  · trivial

/-- Under one name they are given one address, and the Gateway's deletion frees it under the Service. -/
theorem shared_name_shares_address :
    let s := run Controller.step (.start "rivora" true (pairCluster "default/web" "default/web"))
      (reconcileBoth "default/web" "default/web")
    let s' := run Controller.step s ([.change (.gateway "default/web" (some { waitingGateway with deleting := true })),
      .begin ⟨.gateway, "default/web"⟩] ++ List.replicate 3 (.advance (.worker ⟨.gateway, "default/web"⟩) .plain))
    (s.holds.get? ⟨.service, "default/web"⟩ = some "10.0.0.1" ∧
      s.holds.get? ⟨.gateway, "default/web"⟩ = some "10.0.0.1") ∧
    s'.holds.get? ⟨.service, "default/web"⟩ = some "10.0.0.1" ∧
      s'.allocator.addrOwner.get? "10.0.0.1" = none := by
  decide +kernel

end Example

end Rivora.Ipam

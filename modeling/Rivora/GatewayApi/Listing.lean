import Rivora.GatewayApi.Build

/-! What the listings of a cluster have in them. -/

namespace Rivora.GatewayApi

variable {c : Cluster} {gw : GatewayRef}

/-- The name of a route. -/
def RouteRef.key (rr : RouteRef) : RouteKey := ⟨rr.kind, rr.ns, rr.name⟩

theorem mem_grantsIn {ns : String} {g : ReferenceGrant} (listed : g ∈ c.grantsIn ns) :
    ∃ name, c.grants.get? ⟨ns, name⟩ = some g := by
  obtain ⟨⟨⟨ns', name⟩, grant⟩, chosen, rfl⟩ := List.mem_map.mp listed
  obtain ⟨stored, there⟩ := List.mem_filter.mp chosen
  have there : ns' = ns := by simpa using there
  exact ⟨name, FMap.get?_eq_some.mpr (there ▸ stored)⟩

theorem mem_routesOf {kind : RouteKind} {rr : RouteRef} :
    rr ∈ c.routesOf kind ↔
      rr.kind = kind ∧ ∃ route, c.routes.get? rr.key = some route ∧ rr = route.ref rr.key := by
  unfold Cluster.routesOf
  rw [List.mem_map]
  constructor
  · rintro ⟨⟨key, route⟩, chosen, rfl⟩
    obtain ⟨stored, isKind⟩ := List.mem_filter.mp chosen
    exact ⟨of_decide_eq_true isKind, route, FMap.get?_eq_some.mpr stored, rfl⟩
  · rintro ⟨isKind, route, stored, is⟩
    refine ⟨(rr.key, route), List.mem_filter.mpr ⟨FMap.get?_eq_some.mp stored, ?_⟩, is.symm⟩
    exact decide_eq_true isKind

theorem mem_attachedRoutes {rr : RouteRef} :
    rr ∈ attachedRoutes c gw ↔
      (∃ route, c.routes.get? rr.key = some route ∧ rr = route.ref rr.key) ∧
        ∃ pr ∈ rr.spec.parentRefs, namesGateway rr pr gw = true := by
  unfold attachedRoutes
  simp only [List.mem_flatMap, List.mem_filter, List.any_eq_true, mem_routesOf]
  constructor
  · rintro ⟨kind, -, ⟨-, stored⟩, named⟩
    exact ⟨stored, named⟩
  · rintro ⟨stored, named⟩
    refine ⟨rr.kind, ?_, ⟨rfl, stored⟩, named⟩
    cases rr.kind with
    | tcpRoute => exact List.mem_cons_self
    | udpRoute => exact List.mem_cons_of_mem _ List.mem_cons_self

end Rivora.GatewayApi

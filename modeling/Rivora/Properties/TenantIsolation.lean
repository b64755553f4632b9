import Rivora.GatewayApi.AttachLaws
import Rivora.GatewayApi.Listing

/-! Where the backends of a Gateway's VIPs come from. -/

namespace Rivora.GatewayApi

variable {b : Backend}

variable {asSelector : SelectorReader} {c : Cluster} {env : Env} {gw : GatewayRef} {l : GatewayListener}

section Gathering

/-- A reference of a route is used and has a backend, serving or draining. -/
structure Offers (c : Cluster) (env : Env) (source : RouteRef × BackendRef) (b : Backend) : Prop where
  usable : (checkBackendRef source.1 source.2 env).resolved = true
  resolves : ∃ backends draining,
    resolveBackendRef c source.1.ns source.2 = .ok (backends, draining) ∧
      (b ∈ backends ∨ b ∈ draining)

/-- All backends that were gathered, draining or not. -/
def Gathered.all (g : Gathered) : List Backend := g.backends ++ g.draining

theorem Gathered.mem_foldl_add (backends : List Backend) (g : Gathered)
    (gathered : b ∈ (backends.foldl Gathered.add g).all) : b ∈ g.all ∨ b ∈ backends := by
  -- Induction on the list; each step keeps what there was or appends its own backend.
  induction backends generalizing g with
  | nil => exact .inl gathered
  | cons first rest ih =>
    rcases ih (g.add first) gathered with earlier | later
    · unfold Gathered.add at earlier
      split at earlier
      · exact .inl earlier
      · simp only [Gathered.all, List.mem_append, List.mem_singleton] at earlier ⊢
        rcases earlier with (before | new) | draining
        · exact .inl (.inl before)
        · exact .inr (new ▸ List.mem_cons_self)
        · exact .inl (.inr draining)
    · exact .inr (List.mem_cons_of_mem _ later)

theorem Gathered.mem_addRef {g : Gathered} {source : RouteRef × BackendRef}
    (gathered : b ∈ (g.addRef c env source).all) : b ∈ g.all ∨ Offers c env source b := by
  unfold Gathered.addRef at gathered
  split at gathered
  · exact .inl gathered
  · rename_i usable
    have usable : (checkBackendRef source.1 source.2 env).resolved = true := by simpa using usable
    split at gathered
    · exact .inl gathered
    · rename_i backends draining resolved
      -- What is new is a serving backend of the reference, or one of those it drains.
      have parts : b ∈ (backends.foldl Gathered.add g).all ∨ b ∈ draining := by
        simp only [Gathered.all, List.mem_append] at gathered ⊢
        tauto
      rcases parts with folded | drains
      · rcases mem_foldl_add backends g folded with before | serving
        · exact .inl before
        · exact .inr ⟨usable, backends, draining, resolved, .inl serving⟩
      · exact .inr ⟨usable, backends, draining, resolved, .inr drains⟩

theorem Gathered.mem_foldl_addRef (sources : List (RouteRef × BackendRef)) (g : Gathered)
    (gathered : b ∈ (sources.foldl (Gathered.addRef c env) g).all) :
    b ∈ g.all ∨ ∃ source ∈ sources, Offers c env source b := by
  induction sources generalizing g with
  | nil => exact .inl gathered
  | cons first rest ih =>
    rcases ih (g.addRef c env first) gathered with earlier | ⟨source, member, offers⟩
    · rcases mem_addRef earlier with before | offers
      · exact .inl before
      · exact .inr ⟨first, List.mem_cons_self, offers⟩
    · exact .inr ⟨source, List.mem_cons_of_mem _ member, offers⟩

theorem mem_listenerBackends {routes : List RouteRef}
    (gathered : b ∈ (listenerBackends c env gw l routes).all) :
    ∃ rr ∈ routes, attaches env gw l rr = true ∧
      ∃ rule ∈ rr.spec.rules, ∃ br ∈ rule.backendRefs, Offers c env (rr, br) b := by
  rcases Gathered.mem_foldl_addRef _ _ gathered with none_ | ⟨source, member, offers⟩
  · simp [Gathered.all] at none_
  · obtain ⟨rr, chosen, listed⟩ := List.mem_flatMap.mp member
    obtain ⟨routed, attached⟩ := List.mem_filter.mp chosen
    obtain ⟨rule, ruled, listed⟩ := List.mem_flatMap.mp listed
    obtain ⟨br, referenced, rfl⟩ := List.mem_map.mp listed
    exact ⟨rr, routed, attached, rule, ruled, br, referenced, offers⟩

end Gathering

section Sources

/-- A Service has a backend: one of its endpoints, at the port a reference asks for. -/
def HasBackend (c : Cluster) (ns name : String) (port : Option UInt32) (b : Backend) : Prop :=
  ∃ svc, c.service ns name = some svc ∧
    ∃ p ∈ svc.svc.ports, port = some p.port ∧
      ∃ e, (e ∈ (Reconciler.endpointsForPort (c.slicesOf ns name) p.name "" fun _ => 0).1 ∨
          e ∈ (Reconciler.endpointsForPort (c.slicesOf ns name) p.name "" fun _ => 0).2) ∧
        e.address = b.address ∧ e.port = b.port

theorem hasBackend_of_resolved {ns : String} {br : BackendRef} {backends draining : List Backend}
    (resolved : resolveBackendRef c ns br = .ok (backends, draining))
    (member : b ∈ backends ∨ b ∈ draining) :
    HasBackend c (namespaceOr br.ns ns) br.name br.port b := by
  unfold resolveBackendRef at resolved
  dsimp only at resolved
  -- Every way out but the last is an error.
  split at resolved
  · cases resolved
  · split at resolved
    · cases resolved
    · rename_i port asked
      split at resolved
      · cases resolved
      · rename_i svc found
        split at resolved
        · cases resolved
        · rename_i p chosen
          have isPort : p.port = port := by simpa using List.find?_some chosen
          obtain ⟨rfl, rfl⟩ := Prod.mk.inj (Except.ok.inj resolved)
          refine ⟨svc, found, p, List.mem_of_find?_eq_some chosen, by rw [asked, isPort], ?_⟩
          rcases member with serving | drains
          · obtain ⟨e, ready, rfl⟩ := List.mem_map.mp serving
            exact ⟨e, .inl ready, rfl, rfl⟩
          · exact ⟨b, .inr drains, rfl, rfl⟩

/-- A namespace holds a grant for a route to reference one of its Services. -/
def Granted (c : Cluster) (ns : String) (rr : RouteRef) (svc : String) : Prop :=
  ∃ name grant, c.grants.get? ⟨ns, name⟩ = some grant ∧ grant.Permits rr.kind rr.ns svc

theorem mem_of_mem_sameFamily {backends : List Backend} {addr : String}
    (member : b ∈ Reconciler.sameFamily backends addr) : b ∈ backends := by
  unfold Reconciler.sameFamily at member
  split at member
  · cases member
  · exact List.mem_of_mem_filter member

theorem mem_listenerVIP {routes : List RouteRef} {addr : String} {d : Reconciler.DesiredVIP}
    (built : listenerVIP c env gw routes addr l = some d)
    (member : b ∈ d.vip.backends ∨ b ∈ d.drainingBackends) :
    b ∈ (listenerBackends c env gw l routes).all := by
  unfold listenerVIP at built
  dsimp only at built
  split at built
  · cases built
  · split at built
    · cases built
    · obtain rfl := Option.some.inj built
      rcases member with serving | drains
      · exact List.mem_append_left _ (mem_of_mem_sameFamily serving)
      · exact List.mem_append_right _ (mem_of_mem_sameFamily drains)

end Sources

/--
Each VIP is that of a listener, and each of its backends is an endpoint of a Service that a route
attached to this listener refers to, in the route's own namespace or in one that granted it.
-/
theorem listener_backends_are_admitted (asSelector : SelectorReader) (c : Cluster) (gw : GatewayRef)
    (addresses : List String) :
    (∀ d ∈ buildDesiredVIPs c (c.env asSelector) gw addresses (attachedRoutes c gw),
      ∃ addr ∈ gatewayIPs addresses, ∃ l ∈ gw.listeners,
        listenerVIP c (c.env asSelector) gw (attachedRoutes c gw) addr l = some d) ∧
    ∀ addr l d, listenerVIP c (c.env asSelector) gw (attachedRoutes c gw) addr l = some d →
      ∀ b, b ∈ d.vip.backends ∨ b ∈ d.drainingBackends →
        ∃ key route, c.routes.get? key = some route ∧
          (∃ pr ∈ route.spec.parentRefs, AttachesThrough (c.env asSelector) gw l (route.ref key) pr) ∧
          ∃ rule ∈ route.spec.rules, ∃ br ∈ rule.backendRefs,
            HasBackend c (namespaceOr br.ns key.ns) br.name br.port b ∧
            (namespaceOr br.ns key.ns = key.ns ∨
              Granted c (namespaceOr br.ns key.ns) (route.ref key) br.name) := by
  constructor
  · intro d built
    obtain ⟨addr, assigned, built⟩ := List.mem_flatMap.mp built
    obtain ⟨l, listens, built⟩ := List.mem_filterMap.mp built
    exact ⟨addr, assigned, l, listens, built⟩
  · intro addr l d built b member
    obtain ⟨rr, found, attached, rule, ruled, br, referenced, offers⟩ :=
      mem_listenerBackends (mem_listenerVIP built member)
    obtain ⟨route, stored, is⟩ := (mem_attachedRoutes.mp found).1
    rw [is] at attached ruled offers
    obtain ⟨pr, parent, attached⟩ := List.any_eq_true.mp attached
    obtain ⟨backends, draining, resolved, member⟩ := offers.resolves
    refine ⟨rr.key, route, stored, ⟨pr, parent, attachToListener_attached.mp attached⟩, rule, ruled, br,
      referenced, hasBackend_of_resolved resolved member, ?_⟩
    -- The check of the reference came before it was resolved.
    rcases (checkBackendRef_resolved offers.usable).1 with own | ⟨g, there, permits⟩
    · exact .inl own
    · obtain ⟨name, stored⟩ := mem_grantsIn there
      exact .inr ⟨name, g, stored, permits⟩

section Sample

/-- A Gateway that routes of all namespaces attach to. -/
def sharedGateway : GatewayRef :=
  ⟨"infra", "edge", [⟨"web", .tcp, 80, some ⟨some ⟨some "All", none⟩, []⟩⟩]⟩

/-- A route of one tenant to a Service of another. -/
def borrowingRoute : RouteObject :=
  ⟨⟨[⟨none, none, some "infra", "edge", none⟩],
    [⟨[⟨none, none, "cart", some "shop", some 8080, none⟩]⟩]⟩⟩

/-- A cluster in which the other tenant granted the reference. -/
def borrowingCluster : Cluster :=
  { Cluster.empty with
    services := FMap.ofList [(⟨"shop", "cart"⟩, ⟨⟨false, [], [⟨"http", .tcp, 8080⟩], false, false⟩, none⟩)]
    slices := FMap.ofList [(⟨"shop", "cart-1"⟩,
      ⟨FMap.ofList [(serviceNameLabel, "cart")],
        ⟨[⟨some "http", some 8080⟩], [⟨["10.0.0.1"], ⟨some true, none⟩, none⟩]⟩⟩)]
    routes := FMap.ofList [(⟨.tcpRoute, "app", "cart"⟩, borrowingRoute)]
    grants := FMap.ofList [(⟨"shop", "from-app"⟩,
      ⟨[⟨groupName, "TCPRoute", "app"⟩], [⟨"", "Service", none⟩]⟩)] }

/-- No label selector can be read. -/
def noSelectors : SelectorReader := fun _ => .error "no selectors"

/-- The VIP of the sample's listener. -/
def borrowedVIP : Reconciler.DesiredVIP :=
  ⟨⟨"192.0.2.1", 80, 0, .tcp, .nat, [⟨"10.0.0.1", 8080, "", 1⟩], .unset, default, default, none, none⟩, []⟩

/-- The borrowed backend is served, and a grant of its namespace is what lets it be. -/
theorem listener_backends_are_admitted_of_granted :
    listenerVIP borrowingCluster (borrowingCluster.env noSelectors) sharedGateway
      (attachedRoutes borrowingCluster sharedGateway) "192.0.2.1"
      ⟨"web", .tcp, 80, some ⟨some ⟨some "All", none⟩, []⟩⟩ = some borrowedVIP ∧
    ∃ key route, borrowingCluster.routes.get? key = some route ∧
      ∃ rule ∈ route.spec.rules, ∃ br ∈ rule.backendRefs,
        namespaceOr br.ns key.ns = key.ns ∨
          Granted borrowingCluster (namespaceOr br.ns key.ns) (route.ref key) br.name := by
  have built : listenerVIP borrowingCluster (borrowingCluster.env noSelectors) sharedGateway
      (attachedRoutes borrowingCluster sharedGateway) "192.0.2.1"
      ⟨"web", .tcp, 80, some ⟨some ⟨some "All", none⟩, []⟩⟩ = some borrowedVIP := by decide +kernel
  obtain ⟨key, route, stored, -, rule, ruled, br, referenced, -, granted⟩ :=
    (listener_backends_are_admitted noSelectors borrowingCluster sharedGateway ["192.0.2.1"]).2 _ _ _ built
      ⟨"10.0.0.1", 8080, "", 1⟩ (.inl List.mem_cons_self)
  exact ⟨built, key, route, stored, rule, ruled, br, referenced, granted⟩

end Sample

end Rivora.GatewayApi

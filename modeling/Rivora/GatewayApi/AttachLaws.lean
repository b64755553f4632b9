import Rivora.GatewayApi.Attach

/-! What the decisions about routes and references come to, without the order in which they check. -/

namespace Rivora.GatewayApi

variable {env : Env} {gw : GatewayRef} {l : GatewayListener} {rr : RouteRef} {pr : ParentRef}
  {br : BackendRef}

/-- A parent reference of a route refers to a Gateway. -/
structure ParentRef.Names (pr : ParentRef) (rr : RouteRef) (gw : GatewayRef) : Prop where
  name : pr.name = gw.name
  ns : parentNamespace rr.ns pr = gw.ns
  group : ∀ g, pr.group = some g → g = groupName
  kind : ∀ k, pr.kind = some k → k = "Gateway"

/-- A parent reference selects a listener: it has no section, or that listener's name as one. -/
def ParentRef.Selects (pr : ParentRef) (l : GatewayListener) : Prop :=
  ∀ section_, pr.sectionName = some section_ → section_ = l.name

/-- A listener takes routes of a kind. -/
structure GatewayListener.AdmitsKind (l : GatewayListener) (kind : RouteKind) : Prop where
  protocol : kindForProtocol l.protocol = some kind
  kinds : ∀ ar, l.allowedRoutes = some ar → ar.kinds = [] ∨
    ∃ k ∈ ar.kinds, k.kind = kind.text ∧ ∀ g, k.group = some g → g = groupName

/-- What a listener says about the namespaces of its routes. -/
def GatewayListener.namespaces (l : GatewayListener) : Option RouteNamespaces :=
  l.allowedRoutes.bind AllowedRoutes.namespaces

/-- Which namespaces a listener takes routes from: the Gateway's own unless it says otherwise. -/
def GatewayListener.fromText (l : GatewayListener) : String :=
  (l.namespaces.bind RouteNamespaces.fromText).getD "Same"

/-- A listener takes routes from a namespace, in one of the three ways it can say so. -/
inductive GatewayListener.AdmitsNamespace (env : Env) (gw : GatewayRef) (l : GatewayListener)
    (ns : String) : Prop where
  | same (choice : l.fromText = "Same") (own : ns = gw.ns)
  | all (choice : l.fromText = "All")
  | selector (choice : l.fromText = "Selector")
      (selector : LabelSelector) (given : l.namespaces.bind RouteNamespaces.selector = some selector)
      (sel : Labels → Bool) (read : env.labelSelectorAsSelector selector = .ok sel)
      (labels : Labels) (known : env.namespaceLabels ns = some labels) (chosen : sel labels = true)

/-- A grant lets routes of a kind from a namespace reference a Service of the grant's namespace. -/
structure ReferenceGrant.Permits (g : ReferenceGrant) (kind : RouteKind) (ns svc : String) : Prop where
  source : ⟨groupName, kind.text, ns⟩ ∈ g.fromRefs
  target : ∃ name, ⟨"", "Service", name⟩ ∈ g.toRefs ∧ ∀ n, name = some n → n = svc

theorem namesGateway_iff : namesGateway rr pr gw = true ↔ pr.Names rr gw := by
  unfold namesGateway
  constructor
  · intro passes
    -- Each refusal that did not happen is one field.
    split at passes
    · cases passes
    · rename_i named
      split at passes
      · cases passes
      · rename_i grouped
        rw [not_or, not_not, not_not] at named
        rw [Option.all_eq_true] at passes
        rw [Bool.not_eq_true, Option.any_eq_false] at grouped
        exact ⟨named.1, named.2, fun g is => by simpa using grouped g is,
          fun k is => by simpa using passes k is⟩
  · intro names
    have grouped : pr.group.any (· ≠ groupName) = false :=
      (Option.any_eq_false _ _).mpr fun g is => by simp [names.group g is]
    rw [if_neg (by simp [names.name, names.ns]), if_neg (by rw [grouped]; decide), Option.all_eq_true]
    intro k is
    simp [names.kind k is]

theorem kindAllowed_iff {ar : Option AllowedRoutes} {kind : RouteKind} :
    kindAllowed ar kind = true ↔ ∀ allowed, ar = some allowed → allowed.kinds = [] ∨
      ∃ k ∈ allowed.kinds, k.kind = kind.text ∧ ∀ g, k.group = some g → g = groupName := by
  cases ar with
  | none => simp [kindAllowed]
  | some allowed =>
    simp only [kindAllowed, Bool.or_eq_true, List.isEmpty_iff, List.any_eq_true, Bool.and_eq_true,
      Option.all_eq_true, decide_eq_true_eq, Option.some.injEq, forall_eq']
    -- The code looks at the group first.
    exact or_congr_right (exists_congr fun k => and_congr_right fun _ => and_comm)

theorem attachFromNamespace_attached :
    (attachFromNamespace gw l.allowedRoutes rr env).attached = true ↔
      l.AdmitsNamespace env gw rr.ns := by
  have text : ((l.allowedRoutes.bind AllowedRoutes.namespaces).bind RouteNamespaces.fromText).getD "Same" =
      l.fromText := rfl
  unfold attachFromNamespace
  dsimp only
  rw [text]
  constructor
  · intro attached
    -- One case for each text the listener may have, in the order of the code.
    split at attached
    · rename_i choice
      split at attached
      · cases attached
      · rename_i own
        exact .same choice (not_not.mp own)
    · rename_i choice
      exact .all choice
    · rename_i choice
      split at attached
      · cases attached
      · rename_i selector given
        split at attached
        · cases attached
        · rename_i sel read
          split at attached
          · rename_i chosen
            obtain ⟨labels, known, chosen⟩ := (Option.any_eq_true _ _).mp chosen
            exact .selector choice selector given sel read labels known chosen
          · cases attached
    · cases attached
  · intro admits
    cases admits with
    | same choice own => simp [choice, own]
    | all choice => simp [choice]
    | selector choice selector given sel read labels known chosen =>
      have given : (l.allowedRoutes.bind AllowedRoutes.namespaces).bind RouteNamespaces.selector =
        some selector := given
      simp [choice, given, read, known, chosen]

/-- A route attaches to a listener through a parent reference. -/
structure AttachesThrough (env : Env) (gw : GatewayRef) (l : GatewayListener) (rr : RouteRef)
    (pr : ParentRef) : Prop where
  names : pr.Names rr gw
  selects : pr.Selects l
  kind : l.AdmitsKind rr.kind
  ns : l.AdmitsNamespace env gw rr.ns

theorem attachToListener_attached :
    (attachToListener gw l rr pr env).attached = true ↔ AttachesThrough env gw l rr pr := by
  unfold attachToListener
  constructor
  · intro attached
    -- The route passes the checks in turn; every refusal is unattached.
    split at attached
    · cases attached
    · rename_i names
      split at attached
      · cases attached
      · rename_i selects
        split at attached
        · cases attached
        · rename_i served serves
          split at attached
          · cases attached
          · rename_i kind
            split at attached
            · cases attached
            · rename_i allowed
              rw [not_not] at kind
              rw [Bool.not_eq_true, Option.any_eq_false] at selects
              exact
                { names := namesGateway_iff.mp (by simpa using names)
                  selects := fun section_ is => by simpa using selects section_ is
                  kind := ⟨kind ▸ serves, kindAllowed_iff.mp (by simpa using allowed)⟩
                  ns := attachFromNamespace_attached.mp attached }
  · intro attaches
    have selects : pr.sectionName.any (· ≠ l.name) = false :=
      (Option.any_eq_false _ _).mpr fun section_ is => by simp [attaches.selects section_ is]
    rw [if_neg (by simp [namesGateway_iff.mpr attaches.names]), if_neg (by rw [selects]; decide)]
    simp only [attaches.kind.protocol, ne_eq, not_true_eq_false, if_false,
      kindAllowed_iff.mpr attaches.kind.kinds, Bool.true_eq_false]
    exact attachFromNamespace_attached.mpr attaches.ns

theorem allows_iff {g : ReferenceGrant} {svc : String} :
    g.allows rr svc = true ↔ g.Permits rr.kind rr.ns svc := by
  unfold ReferenceGrant.allows
  simp only [Bool.and_eq_true, List.any_eq_true, decide_eq_true_eq, Option.all_eq_true]
  constructor
  · rintro ⟨⟨⟨group, kind, ns⟩, listed, ⟨rfl, rfl⟩, rfl⟩, ⟨group', kind', name⟩, opened, ⟨rfl, rfl⟩, fits⟩
    exact ⟨listed, name, opened, fits⟩
  · rintro ⟨listed, name, opened, fits⟩
    exact ⟨⟨_, listed, ⟨rfl, rfl⟩, rfl⟩, _, opened, ⟨rfl, rfl⟩, fits⟩

theorem checkBackendRef_resolved (resolved : (checkBackendRef rr br env).resolved = true) :
    (namespaceOr br.ns rr.ns = rr.ns ∨
      ∃ g ∈ env.grants (namespaceOr br.ns rr.ns), g.Permits rr.kind rr.ns br.name) ∧
    env.serviceExists (namespaceOr br.ns rr.ns) br.name = true := by
  unfold checkBackendRef at resolved
  dsimp only at resolved
  split at resolved
  · cases resolved
  · split at resolved
    · cases resolved
    · rename_i granted
      split at resolved
      · cases resolved
      · rename_i exists_
        refine ⟨?_, by simpa using exists_⟩
        by_cases own : namespaceOr br.ns rr.ns = rr.ns
        · exact .inl own
        · -- A reference into another namespace was let through by some grant there.
          have allowed : grantAllows (env.grants (namespaceOr br.ns rr.ns)) rr br.name = true := by
            simpa [own] using granted
          obtain ⟨g, there, allows⟩ := List.any_eq_true.mp allowed
          exact .inr ⟨g, there, allows_iff.mp allows⟩

end Rivora.GatewayApi

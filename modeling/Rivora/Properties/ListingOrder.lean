import Mathlib.Data.List.Forall2
import Mathlib.Data.List.ProdSigma
import Rivora.GatewayApi.AttachLaws
import Rivora.GatewayApi.Offers

/-! What is wanted for a Service or a Gateway, and the order in which its objects are listed. -/

namespace Rivora

open FirstSeen

section Lists

variable {α β : Type} {P : β → β → Prop} {l : List α}

/-- Lists made of the same items correspond exactly if what is made of each item does. -/
theorem forall₂_filterMap_iff {f g : α → Option β} (present : ∀ x ∈ l, (f x).isSome = (g x).isSome) :
    List.Forall₂ P (l.filterMap f) (l.filterMap g) ↔ ∀ x ∈ l, Option.Rel P (f x) (g x) := by
  induction l with
  | nil => simp
  | cons x rest ih =>
    have here := present x List.mem_cons_self
    have ih := ih fun y mem => present y (List.mem_cons_of_mem x mem)
    rw [List.forall_mem_cons, ← ih]
    -- An item makes something in both lists or in none.
    rcases made : f x with _ | a <;> rcases made' : g x with _ | b
    · rw [List.filterMap_cons_none made, List.filterMap_cons_none made']
      exact ⟨fun rel => ⟨.none, rel⟩, And.right⟩
    · rw [made, made'] at here
      cases here
    · rw [made, made'] at here
      cases here
    · rw [List.filterMap_cons_some made, List.filterMap_cons_some made', List.forall₂_cons]
      exact and_congr_left fun _ => ⟨.some, fun rel => by cases rel; assumption⟩

theorem flatMap_filterMap {γ : Type} (l : List α) (m : List γ) (f : α → γ → Option β) :
    (l.flatMap fun a => m.filterMap (f a)) = (l.product m).filterMap fun at' => f at'.1 at'.2 := by
  rw [List.product, List.filterMap_flatMap]
  simp only [List.filterMap_map]
  rfl

end Lists

namespace Reconciler

/-- Whether a backend is of the address family of a VIP. -/
def ofFamily (vip : String) (b : Backend) : Bool :=
  match parseIP vip, parseIP b.address with
  | some v, some ip => ip.to4.isSome = v.to4.isSome
  | _, _ => false

theorem sameFamily_eq (backends : List Backend) (vip : String) :
    sameFamily backends vip = backends.filter (ofFamily vip) := by
  unfold sameFamily
  cases parsed : parseIP vip with
  | none => simp [ofFamily, parsed]
  | some v =>
    refine List.filter_congr fun b _ => ?_
    cases parsed' : parseIP b.address <;> simp [ofFamily, parsed, parsed']

theorem ofFamily_congr {vip : String} {b b' : Backend} (same : backendName b = backendName b') :
    ofFamily vip b = ofFamily vip b' := by
  rw [ofFamily, ofFamily, (backendName_inj same).1]

/-- Two wanted VIPs are the same up to the order of their backends. -/
structure SameVIP (d d' : DesiredVIP) : Prop where
  vip : d'.vip = { d.vip with backends := d'.vip.backends }
  backends : d.vip.backends.Perm d'.vip.backends
  draining : ∀ b, b ∈ d.drainingBackends ↔ b ∈ d'.drainingBackends

/-- A VIP with its backends, if it has any. -/
def wanted (vip : VIP) (backends draining : List Backend) : Option DesiredVIP :=
  if backends = [] then none else some ⟨{ vip with backends := backends }, draining⟩

theorem rel_wanted_iff {vip : VIP} {backends backends' draining draining' : List Backend}
    (empty : backends = [] ↔ backends' = []) (rest : backends = [] → draining = [])
    (rest' : backends' = [] → draining' = []) :
    Option.Rel SameVIP (wanted vip backends draining) (wanted vip backends' draining') ↔
      backends.Perm backends' ∧ ∀ b, b ∈ draining ↔ b ∈ draining' := by
  unfold wanted
  by_cases without : backends = []
  · simp [without, empty.mp without, rest without, rest' (empty.mp without)]
  · rw [if_neg without, if_neg (mt empty.mpr without)]
    refine ⟨fun rel => ?_, fun ⟨perm, drain⟩ => .some ⟨rfl, perm, drain⟩⟩
    cases rel with
    | some same => exact ⟨same.backends, same.draining⟩

section Services

variable (svc : Service) (opts : BuildOptions) (slices : List EndpointSlice)

/-- The node whose endpoints alone count for a Service, if there is one. -/
def onlyNode : String := if opts.localNode ≠ "" ∧ svc.externalTrafficLocal then opts.localNode else ""

/-- What a slice says first about each address and port, under a port of a Service. -/
def sliceOffers (p : ServicePort) (slice : EndpointSlice) : List (Backend × Bool) :=
  firsts candidateName (slice.candidates p.name (onlyNode svc opts) (ServicePolicy.weightFor opts.policy))

/-- What is kept of all that the slices say under a port of a Service. -/
def keptOffers (p : ServicePort) : List (Backend × Bool) :=
  firsts candidateName (candidates slices p.name (onlyNode svc opts) (ServicePolicy.weightFor opts.policy))

/--
No two slices of a Service say different things about one address and port, where it matters.

It matters for the families of the assigned addresses and the ports that are served.
-/
def SlicesAgree : Prop :=
  ∀ addr ∈ ingressIPs svc, ∀ p ∈ svc.ports, (protocolFor p.protocol).isSome →
    ∀ slice ∈ slices, ∀ slice' ∈ slices, ∀ x ∈ sliceOffers svc opts p slice,
      ∀ y ∈ sliceOffers svc opts p slice', candidateName x = candidateName y → ofFamily addr x.1 → x = y

/-- The VIP wanted for an address and a port of a Service, from what is kept of its slices. -/
def portVIP (addr : String) (p : ServicePort) : Option DesiredVIP :=
  (protocolFor p.protocol).bind fun protocol => wanted
    { address := addr
      port := p.port.toUInt16
      portEnd := 0
      protocol := protocol
      mode := .nat
      backends := []
      sessionAffinity := if svc.clientIPAffinity then .clientIP else .unset
      healthCheck := (opts.policy.map ServicePolicy.probe).getD default
      rateLimit := (opts.policy.map ServicePolicy.rateLimit).getD default
      bgpCommunities := opts.policy.bind ServicePolicy.communities
      bgpPeers := opts.policy.bind ServicePolicy.bgpPeers }
    (((keptOffers svc opts slices p).map Prod.fst).filter (ofFamily addr))
    ((((keptOffers svc opts slices p).filter fun x => !x.2).map Prod.fst).filter (ofFamily addr))

/-- The VIPs of a Service, one for each address and port. -/
theorem buildDesiredVIPs_eq :
    buildDesiredVIPs svc slices opts =
      ((ingressIPs svc).product svc.ports).filterMap fun at' => portVIP svc opts slices at'.1 at'.2 := by
  rw [← flatMap_filterMap, buildDesiredVIPs]
  dsimp only
  congr 1
  funext addr
  congr 1
  funext p
  unfold portVIP
  cases protocolFor p.protocol with
  | none => rfl
  | some protocol =>
    dsimp only [Option.bind_some]
    rw [endpointsForPort_eq, sameFamily_eq, sameFamily_eq]
    rfl

variable {svc opts slices}

theorem mem_of_shown {l l' : List (Backend × Bool)} (distinct : (l.map candidateName).Nodup)
    (distinct' : (l'.map candidateName).Nodup) {P : Backend → Bool}
    (backends : ∀ b, b ∈ (l.map Prod.fst).filter P → b ∈ (l'.map Prod.fst).filter P)
    (draining : ∀ b, b ∈ ((l.filter fun x => !x.2).map Prod.fst).filter P ↔
      b ∈ ((l'.filter fun x => !x.2).map Prod.fst).filter P) {x : Backend × Bool} (holds : P x.1)
    (mem : x ∈ l) : x ∈ l' := by
  simp only [List.mem_filter, List.mem_map, and_imp] at backends draining
  obtain ⟨⟨z, mem', same⟩, -⟩ := backends x.1 ⟨x, mem, rfl⟩ holds
  -- The one of the other list has the same backend; it is ready if this one is.
  suffices ready : z.2 = x.2 by
    rwa [← Prod.ext same ready]
  have drains := draining x.1
  simp only [holds, and_true] at drains
  cases unready : x.2 with
  | false =>
    obtain ⟨w, ⟨kept, unready'⟩, is⟩ := drains.mp ⟨x, ⟨mem, by simp [unready]⟩, rfl⟩
    have named : candidateName w = candidateName z := congrArg backendName (is.trans same.symm)
    rw [← List.inj_on_of_nodup_map distinct' kept mem' named]
    simpa using unready'
  | true =>
    by_contra notReady
    obtain ⟨w, ⟨kept, unready'⟩, is⟩ := drains.mpr ⟨z, ⟨mem', by simpa using notReady⟩, same⟩
    have named : candidateName w = candidateName x := congrArg backendName is
    rw [List.inj_on_of_nodup_map distinct kept mem named, unready] at unready'
    cases unready'

/-- Two lists show the same backends if they have the same members. -/
theorem shown_iff {l l' : List (Backend × Bool)} (distinct : (l.map candidateName).Nodup)
    (distinct' : (l'.map candidateName).Nodup) {P : Backend → Bool} :
    (((l.map Prod.fst).filter P).Perm ((l'.map Prod.fst).filter P) ∧
      ∀ b, b ∈ ((l.filter fun x => !x.2).map Prod.fst).filter P ↔
        b ∈ ((l'.filter fun x => !x.2).map Prod.fst).filter P) ↔
      ∀ x : Backend × Bool, P x.1 → (x ∈ l ↔ x ∈ l') := by
  constructor
  · rintro ⟨perm, draining⟩ x holds
    exact ⟨mem_of_shown distinct distinct' (fun b => perm.mem_iff.mp) draining holds,
      mem_of_shown distinct' distinct (fun b => perm.mem_iff.mpr) (fun b => (draining b).symm) holds⟩
  · intro same
    have single : ∀ {l : List (Backend × Bool)}, (l.map candidateName).Nodup → (l.map Prod.fst).Nodup := by
      intro l distinct
      refine List.Nodup.of_map backendName ?_
      rwa [List.map_map]
    -- A backend is shown for a member that passes the test, and such members are the same in both lists.
    have shows : ∀ (Q : Backend × Bool → Bool) (b : Backend), b ∈ ((l.filter Q).map Prod.fst).filter P ↔
        b ∈ ((l'.filter Q).map Prod.fst).filter P := by
      intro Q b
      simp only [List.mem_filter, List.mem_map]
      refine and_congr_left fun holds => exists_congr fun x => and_congr_left fun here => and_congr_left fun _ => ?_
      exact same x (here ▸ holds)
    refine ⟨(List.perm_ext_iff_of_nodup ((single distinct).filter _) ((single distinct').filter _)).mpr fun b => ?_,
      shows _⟩
    simpa only [List.filter_true] using shows (fun _ => true) b

theorem shown_empty_iff {addr : String} {l : List (Backend × Bool)} :
    ((firsts candidateName l).map Prod.fst).filter (ofFamily addr) = [] ↔
      ∀ x ∈ l, ofFamily addr x.1 = false := by
  simp only [List.filter_eq_nil_iff, List.mem_map, Bool.not_eq_true]
  constructor
  · intro none x mem
    obtain ⟨y, kept, same⟩ := exists_first candidateName mem
    rw [ofFamily_congr same.symm]
    exact none y.1 ⟨y, kept, rfl⟩
  · rintro none _ ⟨x, kept, rfl⟩
    exact none x (mem_of_mem_firsts kept)

/-- Two listings give the same VIP for an address and a port exactly if the same is kept of them. -/
theorem rel_portVIP_iff {slices' : List EndpointSlice} (perm : slices.Perm slices') (addr : String)
    (p : ServicePort) :
    (portVIP svc opts slices addr p).isSome = (portVIP svc opts slices' addr p).isSome ∧
      (Option.Rel SameVIP (portVIP svc opts slices addr p) (portVIP svc opts slices' addr p) ↔
        ((protocolFor p.protocol).isSome → ∀ x : Backend × Bool, ofFamily addr x.1 →
          (x ∈ keptOffers svc opts slices p ↔ x ∈ keptOffers svc opts slices' p))) := by
  have empty : ((keptOffers svc opts slices p).map Prod.fst).filter (ofFamily addr) = [] ↔
      ((keptOffers svc opts slices' p).map Prod.fst).filter (ofFamily addr) = [] := by
    rw [keptOffers, keptOffers, shown_empty_iff, shown_empty_iff]
    simp only [candidates, (perm.flatMap_right _).mem_iff]
  have rest : ∀ l : List (Backend × Bool), (l.map Prod.fst).filter (ofFamily addr) = [] →
      ((l.filter fun x => !x.2).map Prod.fst).filter (ofFamily addr) = [] := by
    intro l none
    exact List.sublist_nil.mp (none ▸ (List.filter_sublist.map _).filter _)
  unfold portVIP
  cases protocolFor p.protocol with
  | none => exact ⟨rfl, by simp⟩
  | some protocol =>
    dsimp only [Option.bind_some]
    refine ⟨?_, ?_⟩
    · unfold wanted
      by_cases without : ((keptOffers svc opts slices p).map Prod.fst).filter (ofFamily addr) = []
      · rw [if_pos without, if_pos (empty.mp without)]
      · rw [if_neg without, if_neg (mt empty.mpr without)]
        rfl
    · rw [rel_wanted_iff empty (rest _) (rest _)]
      exact (shown_iff (keys_firsts_nodup _) (keys_firsts_nodup _)).trans
        ⟨fun same _ => same, fun same => same rfl⟩

/-- What is kept of one listing is kept of every other, as long as the slices agree. -/
theorem SlicesAgree.kept (agree : SlicesAgree svc opts slices) {slices' : List EndpointSlice}
    (perm : slices.Perm slices') {addr : String} (assigned : addr ∈ ingressIPs svc) {p : ServicePort}
    (port : p ∈ svc.ports) (served : (protocolFor p.protocol).isSome) {x : Backend × Bool}
    (family : ofFamily addr x.1) (kept : x ∈ keptOffers svc opts slices p) :
    x ∈ keptOffers svc opts slices' p := by
  obtain ⟨slice, listed, stated⟩ := exists_block kept
  -- Something is kept under its name of the other listing too, and it is what another slice says.
  have offered := (perm.flatMap_right _).mem_iff.mp (mem_of_mem_firsts kept)
  obtain ⟨y, kept', same⟩ := exists_first candidateName offered
  obtain ⟨slice', listed', stated'⟩ := exists_block kept'
  rw [agree addr assigned p port served slice listed slice' (perm.mem_iff.mpr listed') x stated y stated' same.symm
    family]
  exact kept'

/-- The VIPs of a Service are the same in every listing of its slices exactly if the slices agree. -/
theorem services_iff :
    (∀ slices', slices.Perm slices' →
      List.Forall₂ SameVIP (buildDesiredVIPs svc slices opts) (buildDesiredVIPs svc slices' opts)) ↔
      SlicesAgree svc opts slices := by
  have each : ∀ {slices'}, slices.Perm slices' →
      (List.Forall₂ SameVIP (buildDesiredVIPs svc slices opts) (buildDesiredVIPs svc slices' opts) ↔
        ∀ addr ∈ ingressIPs svc, ∀ p ∈ svc.ports, (protocolFor p.protocol).isSome →
          ∀ x : Backend × Bool, ofFamily addr x.1 →
            (x ∈ keptOffers svc opts slices p ↔ x ∈ keptOffers svc opts slices' p)) := by
    intro slices' perm
    rw [buildDesiredVIPs_eq, buildDesiredVIPs_eq,
      forall₂_filterMap_iff fun at' _ => (rel_portVIP_iff perm at'.1 at'.2).1]
    simp only [(rel_portVIP_iff perm _ _).2, Prod.forall, List.pair_mem_product, and_imp]
    exact ⟨fun all addr assigned p port => all addr p assigned port,
      fun all addr p assigned port => all addr assigned p port⟩
  constructor
  · intro same addr assigned p port served slice listed slice' listed' x stated y stated' named family
    -- Each slice can be listed first, and what it says is then kept.
    have front : ∀ slice ∈ slices, ∀ z ∈ sliceOffers svc opts p slice, ofFamily addr z.1 →
        z ∈ keptOffers svc opts slices p := fun slice listed z stated family =>
      ((each (List.perm_cons_erase listed)).mp (same _ (List.perm_cons_erase listed)) addr assigned p port served
        z family).mpr (mem_firsts_front stated)
    have family' : ofFamily addr y.1 := by rwa [← ofFamily_congr named]
    exact unique_of_mem_firsts (front slice listed x stated family) (front slice' listed' y stated' family') named
  · intro agree slices' perm
    refine (each perm).mpr fun addr assigned p port served x family =>
      ⟨agree.kept perm assigned port served family,
      SlicesAgree.kept ?_ perm.symm assigned port served family⟩
    exact fun addr assigned p port served slice listed slice' listed' =>
      agree addr assigned p port served slice (perm.mem_iff.mpr listed) slice' (perm.mem_iff.mpr listed')

end Services

end Reconciler

namespace GatewayApi

open Reconciler (endpointsForPort candidates candidateName SameVIP ofFamily EndpointSlice Endpoint)

/-- Two clusters with the same objects, of which slices and routes may be listed in different orders. -/
structure Relisted (c c' : Cluster) : Prop where
  slices : c.slices.entries.Perm c'.slices.entries
  routes : c.routes.entries.Perm c'.routes.entries
  rest : c' = { c with slices := c'.slices, routes := c'.routes }

/-- What a route offers a listener first under each name. -/
def routeOffers (c : Cluster) (env : Env) (rr : RouteRef) : List Backend :=
  firsts backendName (rr.backendRefs.flatMap fun source => (contribution c env source).1)

/-- The routes that attach to a listener of a Gateway. -/
def attachedTo (c : Cluster) (env : Env) (gw : GatewayRef) (l : GatewayListener) : List RouteRef :=
  (attachedRoutes c gw).filter (attaches env gw l)

/-- The ports of Services that a route may use and leads to. -/
def RouteRef.targets (c : Cluster) (env : Env) (rr : RouteRef) : List Target :=
  rr.backendRefs.filterMap fun source =>
    if (checkBackendRef source.1 source.2 env).resolved = false then none else refTarget c source.1.ns source.2

/-- What a slice says first about each address and port, under a port of a Service. -/
def Target.sliceOffers (target : Target) (slice : EndpointSlice) : List (Backend × Bool) :=
  firsts candidateName (slice.candidates target.portName "" fun _ => 0)

/-- What a Service's slices say of a name, each of them. -/
def Target.Reports (c : Cluster) (target : Target) (name : String) (ready : Bool) : Prop :=
  ∃ slice ∈ c.slicesOf target.ns target.service, ∃ x ∈ target.sliceOffers slice,
    candidateName x = name ∧ x.2 = ready

/--
Nothing that a listener's routes lead to depends on which of two is listed first, in one family.

Two routes give a backend the same weight. A backend that some slice reports as draining is so in all
slices of some Service that a route leads to.
-/
structure ListenerAgrees (c : Cluster) (env : Env) (gw : GatewayRef) (addr : String) (l : GatewayListener) :
    Prop where
  weights : ∀ rr ∈ attachedTo c env gw l, ∀ rr' ∈ attachedTo c env gw l, ∀ x ∈ routeOffers c env rr,
    ∀ y ∈ routeOffers c env rr', backendName x = backendName y → ofFamily addr x → x = y
  drains : ∀ rr ∈ attachedTo c env gw l, ∀ target ∈ rr.targets c env, ∀ b : Backend, ofFamily addr b →
    target.Reports c (backendName b) false → ∃ rr' ∈ attachedTo c env gw l, ∃ target' ∈ rr'.targets c env,
      target'.Reports c (backendName b) false ∧ ¬ target'.Reports c (backendName b) true

/-- Nothing a Gateway's routes lead to depends on the listing, for its addresses and served listeners. -/
def ReferencesAgree (c : Cluster) (env : Env) (gw : GatewayRef) (addresses : List String) : Prop :=
  ∀ addr ∈ gatewayIPs addresses, ∀ l ∈ gw.listeners, (listenerProtocol l.protocol).isSome →
    ListenerAgrees c env gw addr l

namespace Relisted

variable {c c' : Cluster} (relisted : Relisted c c')

include relisted

theorem slicesOf (ns name : String) : (c.slicesOf ns name).Perm (c'.slicesOf ns name) :=
  (relisted.slices.filter _).map _

theorem attachedRoutes (gw : GatewayRef) : (attachedRoutes c gw).Perm (attachedRoutes c' gw) :=
  List.Perm.flatMap_left _ fun _ _ => ((relisted.routes.filter _).map _).filter _

theorem env (asSelector : SelectorReader) : c'.env asSelector = c.env asSelector := by
  rw [relisted.rest]
  rfl

theorem refTarget (routeNs : String) (br : BackendRef) : refTarget c' routeNs br = refTarget c routeNs br := by
  rw [relisted.rest]
  rfl

theorem symm : Relisted c' c :=
  ⟨relisted.slices.symm, relisted.routes.symm, by rw [relisted.rest]⟩

theorem attachedTo (env : Env) (gw : GatewayRef) (l : GatewayListener) :
    (attachedTo c env gw l).Perm (attachedTo c' env gw l) :=
  (relisted.attachedRoutes gw).filter _

theorem targets (env : Env) (rr : RouteRef) : rr.targets c' env = rr.targets c env := by
  unfold RouteRef.targets
  simp only [relisted.refTarget]

theorem contribution (env : Env) (source : RouteRef × BackendRef) :
    (contribution c env source).1.Perm (contribution c' env source).1 := by
  unfold GatewayApi.contribution
  rw [relisted.refTarget]
  split
  · exact .nil
  · cases GatewayApi.refTarget c source.1.ns source.2 with
    | none => exact .nil
    | some target =>
      -- The share of each backend depends on their number alone.
      have ready := @endpointsForPort_perm _ _ target.portName 0 (relisted.slicesOf target.ns target.service)
      simp only [Option.map_some, Option.getD_some, Target.backends]
      rw [ready.length_eq]
      exact ready.map _

theorem mem_routeOffers (env : Env) (rr : RouteRef) {b : Backend} :
    b ∈ routeOffers c' env rr ↔ b ∈ routeOffers c env rr := by
  unfold routeOffers
  induction rr.backendRefs with
  | nil => rw [List.flatMap_nil, List.flatMap_nil]
  | cons source rest ih =>
    have agree : Agree backendName (GatewayApi.contribution c env source).1 := fun x mem y mem' =>
      List.inj_on_of_nodup_map (contribution_spec c env source).1 mem mem'
    have first := relisted.contribution env source
    rw [List.flatMap_cons, List.flatMap_cons, mem_firsts_append, mem_firsts_append, ih,
      (first.map backendName).mem_iff, (firsts_perm agree first).mem_iff]

theorem reports {target : Target} {name : String} {ready : Bool} (stated : target.Reports c name ready) :
    target.Reports c' name ready := by
  obtain ⟨slice, listed, rest⟩ := stated
  exact ⟨slice, (relisted.slicesOf target.ns target.service).mem_iff.mp listed, rest⟩

/-- What agrees in one listing agrees in the other. -/
theorem agrees {env : Env} {gw : GatewayRef} {addr : String} {l : GatewayListener}
    (agree : ListenerAgrees c env gw addr l) : ListenerAgrees c' env gw addr l := by
  have routes : ∀ {rr}, rr ∈ GatewayApi.attachedTo c' env gw l ↔ rr ∈ GatewayApi.attachedTo c env gw l :=
    (relisted.attachedTo env gw l).symm.mem_iff
  constructor
  · simp only [routes, relisted.mem_routeOffers]
    exact agree.weights
  · simp only [routes, relisted.targets]
    intro rr attached target leads b family stated
    obtain ⟨rr', attached', target', leads', unready, unsaid⟩ :=
      agree.drains rr attached target leads b family (relisted.symm.reports stated)
    exact ⟨rr', attached', target', leads', relisted.reports unready,
      fun ready => unsaid (relisted.symm.reports ready)⟩

end Relisted

section Listeners

variable {c c' : Cluster} {env : Env} {gw : GatewayRef} {addr : String} {l : GatewayListener} {b : Backend}

/-- The backends that are gathered for a listener. -/
def gathered (c : Cluster) (env : Env) (gw : GatewayRef) (l : GatewayListener) : List Backend :=
  firsts backendName ((attachedTo c env gw l).flatMap fun rr =>
    rr.backendRefs.flatMap fun source => (contribution c env source).1)

/-- What is kept of all that the slices of a Service say under a port. -/
def Target.keptOffers (c : Cluster) (target : Target) : List (Backend × Bool) :=
  firsts candidateName (candidates (c.slicesOf target.ns target.service) target.portName "" fun _ => 0)

/-- Some route of a listener leads to a backend as a draining one. -/
def Drains (c : Cluster) (env : Env) (gw : GatewayRef) (l : GatewayListener) (b : Backend) : Prop :=
  ∃ rr ∈ attachedTo c env gw l, ∃ target ∈ rr.targets c env, (b, false) ∈ target.keptOffers c

theorem contribution_of_target {rr : RouteRef} {target : Target} (leads : target ∈ rr.targets c env) :
    ∃ source ∈ rr.backendRefs, contribution c env source = target.backends c source.2.weight := by
  obtain ⟨source, refers, found⟩ := List.mem_filterMap.mp leads
  refine ⟨source, refers, ?_⟩
  split at found
  · cases found
  · next resolved =>
    rw [contribution, if_neg resolved, found]
    rfl

/-- A backend drains if some route leads to it as a draining one. -/
theorem mem_draining : b ∈ (listenerBackends c env gw l (attachedRoutes c gw)).draining ↔ Drains c env gw l b := by
  have drained : ∀ target : Target, ∀ weight,
      b ∈ (target.backends c weight).2 ↔ (b, false) ∈ target.keptOffers c := by
    intro target weight
    simp only [Target.backends, Reconciler.endpointsForPort_eq, Target.keptOffers, List.mem_map, List.mem_filter]
    constructor
    · rintro ⟨⟨b', ready⟩, ⟨kept, unready⟩, rfl⟩
      cases ready with
      | false => exact kept
      | true => cases unready
    · exact fun kept => ⟨(b, false), ⟨kept, rfl⟩, rfl⟩
  rw [(listenerBackends_eq c env gw l _).2, listenerRefs, List.flatMap_assoc, List.mem_flatMap]
  refine exists_congr fun rr => and_congr_right fun _ => ?_
  rw [List.mem_flatMap]
  constructor
  · rintro ⟨source, refers, drains⟩
    unfold contribution at drains
    split at drains
    · cases drains
    · next resolved =>
      cases leads : refTarget c source.1.ns source.2 with
      | none =>
        rw [leads] at drains
        cases drains
      | some target =>
        rw [leads] at drains
        exact ⟨target, List.mem_filterMap.mpr ⟨source, refers, by rw [if_neg resolved, leads]⟩,
          (drained target _).mp drains⟩
  · rintro ⟨target, leads, drains⟩
    obtain ⟨source, refers, is⟩ := contribution_of_target leads
    exact ⟨source, refers, by rw [is]; exact (drained target _).mpr drains⟩

/-- The backends are the first ones of each name. -/
theorem gathered_eq : (listenerBackends c env gw l (attachedRoutes c gw)).backends = gathered c env gw l := by
  rw [(listenerBackends_eq c env gw l _).1, listenerRefs, List.flatMap_assoc]
  rfl

/-- A backend that is draining is gathered under its name. -/
theorem Drains.gathered (drains : Drains c env gw l b) :
    ∃ b' ∈ gathered c env gw l, backendName b' = backendName b := by
  obtain ⟨rr, attached, target, leads, kept⟩ := drains
  obtain ⟨source, refers, is⟩ := contribution_of_target leads
  have ready := mem_endpointsForPort.mpr ⟨_, mem_of_mem_firsts kept, rfl⟩
  have given : { b with weight := perBackend source.2.weight (endpointsForPort
      (c.slicesOf target.ns target.service) target.portName "" fun _ => 0).1.length } ∈
      (contribution c env source).1 := by
    rw [is]
    exact List.mem_map_of_mem ready
  have all : _ ∈ (attachedTo c env gw l).flatMap fun rr =>
      rr.backendRefs.flatMap fun source => (contribution c env source).1 :=
    List.mem_flatMap.mpr ⟨rr, attached, List.mem_flatMap.mpr ⟨source, refers, given⟩⟩
  obtain ⟨b', first, same⟩ := exists_first backendName all
  exact ⟨b', first, same⟩

/-- A listener has a backend of a family or has none, whatever the listing. -/
theorem gathered_empty_iff (relisted : Relisted c c') :
    (gathered c env gw l).filter (ofFamily addr) = [] ↔ (gathered c' env gw l).filter (ofFamily addr) = [] := by
  have empty : ∀ c : Cluster, (gathered c env gw l).filter (ofFamily addr) = [] ↔
      ∀ b ∈ (attachedTo c env gw l).flatMap fun rr =>
        rr.backendRefs.flatMap fun source => (contribution c env source).1, ofFamily addr b = false := by
    intro c
    simp only [List.filter_eq_nil_iff, Bool.not_eq_true]
    constructor
    · intro none b given
      obtain ⟨b', first, same⟩ := exists_first backendName given
      rw [Reconciler.ofFamily_congr same.symm]
      exact none b' first
    · exact fun none b first => none b (mem_of_mem_firsts first)
  have all := (relisted.attachedTo env gw l).flatMap fun rr _ =>
    List.Perm.flatMap_left rr.backendRefs fun source _ => relisted.contribution env source
  rw [empty, empty]
  simp only [all.mem_iff]

/-- Two listings give the same VIP for an address and a listener exactly if they gather and drain the same. -/
theorem rel_listenerVIP_iff (relisted : Relisted c c') :
    (listenerVIP c env gw (attachedRoutes c gw) addr l).isSome =
        (listenerVIP c' env gw (attachedRoutes c' gw) addr l).isSome ∧
      (Option.Rel SameVIP (listenerVIP c env gw (attachedRoutes c gw) addr l)
          (listenerVIP c' env gw (attachedRoutes c' gw) addr l) ↔
        ((listenerProtocol l.protocol).isSome → ∀ b, ofFamily addr b →
          (b ∈ gathered c env gw l ↔ b ∈ gathered c' env gw l) ∧
            (Drains c env gw l b ↔ Drains c' env gw l b))) := by
  -- Both listings want a VIP or neither does; what is left are its two lists of backends.
  have empty := @gathered_empty_iff c c' env gw addr l relisted
  have rest : ∀ c : Cluster, (gathered c env gw l).filter (ofFamily addr) = [] →
      (listenerBackends c env gw l (attachedRoutes c gw)).draining.filter (ofFamily addr) = [] := by
    intro c none
    refine List.filter_eq_nil_iff.mpr fun b drains family => ?_
    obtain ⟨b', first, same⟩ := (mem_draining.mp drains).gathered
    exact List.filter_eq_nil_iff.mp none b' first (by rwa [Reconciler.ofFamily_congr same])
  unfold listenerVIP
  cases listenerProtocol l.protocol with
  | none => exact ⟨rfl, by simp⟩
  | some protocol =>
    dsimp only
    rw [Reconciler.sameFamily_eq, Reconciler.sameFamily_eq, Reconciler.sameFamily_eq, Reconciler.sameFamily_eq,
      gathered_eq, gathered_eq]
    refine ⟨?_, ?_⟩
    · by_cases without : (gathered c env gw l).filter (ofFamily addr) = []
      · rw [if_pos without, if_pos (empty.mp without)]
      · rw [if_neg without, if_neg (mt empty.mpr without), Option.isSome_some, Option.isSome_some]
    · refine (@Reconciler.rel_wanted_iff
        { address := addr, port := l.port.toUInt16, portEnd := 0, protocol := protocol, mode := .nat
          backends := [], sessionAffinity := .unset, healthCheck := default, rateLimit := default
          bgpCommunities := none, bgpPeers := none }
        _ _ _ _ empty (rest c) (rest c')).trans ?_
      have distinct : ∀ c, ((gathered c env gw l).filter (ofFamily addr)).Nodup :=
        fun c => (firsts_nodup _).filter _
      rw [List.perm_ext_iff_of_nodup (distinct c) (distinct c')]
      simp only [List.mem_filter, mem_draining, Option.isSome_some, forall_const]
      constructor
      · rintro ⟨backends, draining⟩ b family
        exact ⟨by simpa [family] using backends b, by simpa [family] using draining b⟩
      · intro same
        exact ⟨fun b => and_congr_left fun family => (same b family).1,
          fun b => and_congr_left fun family => (same b family).2⟩

theorem ListenerAgrees.gathered (agree : ListenerAgrees c env gw addr l) (relisted : Relisted c c')
    (family : ofFamily addr b) (first : b ∈ gathered c env gw l) : b ∈ gathered c' env gw l := by
  have all := (relisted.attachedTo env gw l).flatMap fun rr _ =>
    List.Perm.flatMap_left rr.backendRefs fun source _ => relisted.contribution env source
  -- Under its name the other listing gathers what another route offers first, and that is the same.
  obtain ⟨rr, attached, offered⟩ := exists_block first
  obtain ⟨b', first', same⟩ := exists_first backendName (all.mem_iff.mp (mem_of_mem_firsts first))
  obtain ⟨rr', attached', offered'⟩ := exists_block first'
  rw [agree.weights rr attached rr' ((relisted.attachedTo env gw l).mem_iff.mpr attached') b offered b'
    ((relisted.mem_routeOffers env rr').mp offered') same.symm family]
  exact first'

theorem ListenerAgrees.drained (agree : ListenerAgrees c env gw addr l) (relisted : Relisted c c')
    (family : ofFamily addr b) (drains : Drains c env gw l b) : Drains c' env gw l b := by
  obtain ⟨rr, attached, target, leads, kept⟩ := drains
  obtain ⟨slice, listed, stated⟩ := exists_block kept
  obtain ⟨rr', attached', target', leads', ⟨slice', listed', x, stated', same, -⟩, always⟩ :=
    agree.drains rr attached target leads b family ⟨slice, listed, _, stated, rfl, rfl⟩
  refine ⟨rr', (relisted.attachedTo env gw l).mem_iff.mp attached', target', relisted.targets env rr' ▸ leads', ?_⟩
  -- Whichever slice of that Service is listed first, it reports the backend as draining.
  have offered : x ∈ candidates (c'.slicesOf target'.ns target'.service) target'.portName "" fun _ => 0 :=
    List.mem_flatMap.mpr ⟨slice', (relisted.slicesOf _ _).mem_iff.mp listed', mem_of_mem_firsts stated'⟩
  obtain ⟨⟨b', ready⟩, kept', same'⟩ := exists_first candidateName offered
  obtain ⟨slice₂, listed₂, stated₂⟩ := exists_block kept'
  cases ready with
  | true => exact absurd (relisted.symm.reports ⟨slice₂, listed₂, _, stated₂, same'.trans same, rfl⟩) always
  | false =>
    have is : b' = b := eq_of_candidateName (mem_of_mem_firsts kept') (mem_of_mem_firsts kept) (same'.trans same)
    exact is ▸ kept'

/-- Each route that attaches to a listener can be listed before all others that do. -/
theorem attachedTo_front {rr : RouteRef} (attached : rr ∈ attachedTo c env gw l) :
    ∃ c' rest, Relisted c c' ∧ attachedTo c' env gw l = rr :: rest := by
  obtain ⟨listed, attaches⟩ := List.mem_filter.mp attached
  obtain ⟨kind, -, naming⟩ := List.mem_flatMap.mp listed
  obtain ⟨ofKind, named⟩ := List.mem_filter.mp naming
  obtain ⟨entry, chosen, rfl⟩ := List.mem_map.mp ofKind
  obtain ⟨stored, isKind⟩ := List.mem_filter.mp chosen
  have perm := List.perm_cons_erase stored
  have first : ∀ rest : List (RouteKey × RouteObject), ∃ rest',
      ((((entry :: rest).filter fun e => e.1.kind = kind).map fun e => e.2.ref e.1).filter fun rr =>
        rr.spec.parentRefs.any fun pr => namesGateway rr pr gw).filter (GatewayApi.attaches env gw l) =
          entry.2.ref entry.1 :: rest' := by
    intro rest
    simp only [List.filter_cons, isKind, if_true, List.map_cons, named, attaches]
    exact ⟨_, rfl⟩
  obtain ⟨rest, is⟩ := first (c.routes.entries.erase entry)
  refine ⟨{ c with routes := ⟨_, (perm.map Prod.fst).nodup_iff.mp c.routes.nodup⟩ }, ?_⟩
  simp only [attachedTo, attachedRoutes, Cluster.routesOf, List.flatMap_cons, List.flatMap_nil, List.append_nil,
    List.filter_append]
  cases kind with
  | tcpRoute =>
    rw [is]
    exact ⟨_, ⟨.refl _, perm, rfl⟩, rfl⟩
  | udpRoute =>
    -- The listener takes no routes of the other kind.
    have none : ∀ routes : List RouteRef, (∀ r ∈ routes, r.kind = .tcpRoute) →
        routes.filter (GatewayApi.attaches env gw l) = [] := by
      intro routes tcp
      refine List.filter_eq_nil_iff.mpr fun r mem attaches' => ?_
      obtain ⟨pr, -, through⟩ := List.any_eq_true.mp attaches
      obtain ⟨pr', -, through'⟩ := List.any_eq_true.mp attaches'
      have serves := (attachToListener_attached.mp through).kind.protocol
      rw [(attachToListener_attached.mp through').kind.protocol, tcp r mem] at serves
      have udp : entry.1.kind = .udpRoute := of_decide_eq_true isKind
      cases udp.symm.trans (Option.some.inj serves).symm
    rw [is, none, List.nil_append]
    · exact ⟨_, ⟨.refl _, perm, rfl⟩, rfl⟩
    · intro r mem
      obtain ⟨e, chosen, rfl⟩ := List.mem_map.mp (List.mem_of_mem_filter mem)
      exact of_decide_eq_true (List.mem_filter.mp chosen).2

/-- Slices that pass a test can be listed before those that do not. -/
theorem slicesOf_sorted (test : EndpointSlice → Bool) :
    ∃ c', Relisted c c' ∧ ∀ ns name, c'.slicesOf ns name =
      (c.slicesOf ns name).filter test ++ (c.slicesOf ns name).filter fun slice => !test slice := by
  have perm := (List.filter_append_perm (fun e => test e.2.slice) c.slices.entries).symm
  refine ⟨{ c with slices := ⟨_, (perm.map Prod.fst).nodup_iff.mp c.slices.nodup⟩ },
    ⟨perm, .refl _, rfl⟩, fun ns name => ?_⟩
  simp only [Cluster.slicesOf, List.filter_append, List.map_append, List.filter_map, List.filter_filter,
    Function.comp_def, Bool.and_comm]

/-- What is kept under a name that a slice in front offers is offered by a slice in front. -/
theorem kept_of_sorted {test : EndpointSlice → Bool} {target : Target} {slice : EndpointSlice}
    (sorted : c'.slicesOf target.ns target.service = (c.slicesOf target.ns target.service).filter test ++
      (c.slicesOf target.ns target.service).filter fun slice => !test slice)
    (listed : slice ∈ c.slicesOf target.ns target.service) (passes : test slice) {x w : Backend × Bool}
    (stated : x ∈ target.sliceOffers slice) (kept : w ∈ target.keptOffers c')
    (same : candidateName w = candidateName x) :
    ∃ slice' ∈ c.slicesOf target.ns target.service, test slice' ∧ w ∈ target.sliceOffers slice' := by
  rw [Target.keptOffers, sorted, candidates, List.flatMap_append] at kept
  rcases mem_firsts_append.mp kept with first | ⟨unseen, -⟩
  · obtain ⟨slice', chosen, offers⟩ := exists_block first
    obtain ⟨listed', passes'⟩ := List.mem_filter.mp chosen
    exact ⟨slice', listed', passes', offers⟩
  · refine absurd ?_ unseen
    rw [same]
    exact List.mem_map_of_mem (List.mem_flatMap.mpr
      ⟨slice, List.mem_filter.mpr ⟨listed, passes⟩, mem_of_mem_firsts stated⟩)

/-- No listing matters to a listener exactly if nothing its routes lead to depends on the listing. -/
theorem listener_iff :
    (∀ c', Relisted c c' → ∀ b, ofFamily addr b → (b ∈ gathered c env gw l ↔ b ∈ gathered c' env gw l) ∧
      (Drains c env gw l b ↔ Drains c' env gw l b)) ↔ ListenerAgrees c env gw addr l := by
  constructor
  · intro same
    constructor
    · intro rr attached rr' attached' x offered y offered' named family
      -- Each of the two routes can be listed first, and what it offers is then gathered.
      have front : ∀ rr ∈ attachedTo c env gw l, ∀ b ∈ routeOffers c env rr, ofFamily addr b →
          b ∈ gathered c env gw l := by
        intro rr attached b offered family
        obtain ⟨c', rest, relisted, is⟩ := attachedTo_front attached
        refine ((same c' relisted b family).1).mpr ?_
        rw [gathered, is, List.flatMap_cons]
        exact mem_firsts_append.mpr (.inl ((relisted.mem_routeOffers env rr).mpr offered))
      have family' : ofFamily addr y := by rwa [← Reconciler.ofFamily_congr named]
      exact unique_of_mem_firsts (front rr attached x offered family)
        (front rr' attached' y offered' family') named
    · rintro rr attached target leads b family ⟨slice, listed, x, stated, named, unready⟩
      by_contra never
      simp only [not_exists, not_and, not_not] at never
      have family : ofFamily addr x.1 := by rwa [Reconciler.ofFamily_congr named]
      -- With this slice in front, the backend is draining.
      obtain ⟨c₁, relisted₁, sorted₁⟩ := @slicesOf_sorted c fun s => s = slice
      have drains₁ : Drains c₁ env gw l x.1 := by
        have offered : x ∈ candidates (c₁.slicesOf target.ns target.service) target.portName "" fun _ => 0 :=
          List.mem_flatMap.mpr ⟨slice, (relisted₁.slicesOf _ _).mem_iff.mp listed, mem_of_mem_firsts stated⟩
        obtain ⟨w, kept, same'⟩ := exists_first candidateName offered
        obtain ⟨slice', -, passes, stated'⟩ := kept_of_sorted (sorted₁ _ _) listed (by simp) stated kept same'
        obtain rfl : slice' = slice := of_decide_eq_true passes
        obtain rfl := unique_of_mem_firsts stated' stated same'
        refine ⟨rr, (relisted₁.attachedTo env gw l).mem_iff.mp attached, target,
          relisted₁.targets env rr ▸ leads, ?_⟩
        rwa [← unready]
      -- With the slices that report it as ready in front, it is not.
      obtain ⟨c₂, relisted₂, sorted₂⟩ := @slicesOf_sorted c fun s =>
        (firsts candidateName (s.endpoints.flatMap (Endpoint.candidates "" (fun _ => 0) x.1.port))).any fun z =>
          candidateName z = candidateName x && z.2
      have drains₂ : ¬ Drains c₂ env gw l x.1 := by
        rintro ⟨rr', attached', target', leads', kept⟩
        have attached' := (relisted₂.attachedTo env gw l).mem_iff.mpr attached'
        rw [relisted₂.targets] at leads'
        obtain ⟨slice₂, listed₂, stated₂⟩ := exists_block kept
        obtain ⟨slice', listed', y, stated', same', ready⟩ := never rr' attached' target' leads'
          ⟨slice₂, (relisted₂.slicesOf _ _).mem_iff.mpr listed₂, _, stated₂, named, rfl⟩
        have same' : candidateName y = candidateName x := same'.trans named.symm
        have all := (mem_sliceCandidates (mem_of_mem_firsts stated')).1
        rw [(backendName_inj same').2] at all
        have passes : (firsts candidateName (slice'.endpoints.flatMap
            (Endpoint.candidates "" (fun _ => 0) x.1.port))).any
              (fun z => candidateName z = candidateName x && z.2) = true := by
          rw [← all]
          exact List.any_eq_true.mpr ⟨y, stated', by simp [same', ready]⟩
        obtain ⟨slice₃, -, passes₃, stated₃⟩ := kept_of_sorted (sorted₂ _ _) listed' passes stated' kept same'.symm
        rw [← (mem_sliceCandidates (mem_of_mem_firsts stated₃)).1] at passes₃
        obtain ⟨z, stated₄, is⟩ := List.any_eq_true.mp passes₃
        simp only [Bool.and_eq_true, decide_eq_true_eq] at is
        rw [unique_of_mem_firsts stated₄ stated₃ is.1] at is
        cases is.2
      exact drains₂ ((same c₂ relisted₂ x.1 family).2.mp ((same c₁ relisted₁ x.1 family).2.mpr drains₁))
  · intro agree c' relisted b family
    have agree' := relisted.agrees agree
    exact ⟨⟨agree.gathered relisted family, agree'.gathered relisted.symm family⟩,
      ⟨agree.drained relisted family, agree'.drained relisted.symm family⟩⟩

end Listeners

/-- The VIPs of a Gateway are the same in every listing exactly if nothing it reads depends on the listing. -/
theorem gateways_iff {asSelector : SelectorReader} {c : Cluster} {key : ObjectKey} :
    (∀ c', Relisted c c' →
      List.Forall₂ SameVIP (desiredVIPs asSelector c key) (desiredVIPs asSelector c' key)) ↔
      ∀ gw, c.gateways.get? key = some gw → c.managed gw.gatewayClassName = true →
        ReferencesAgree c (c.env asSelector) (gw.ref key) gw.addresses := by
  -- For one other listing, compare listener by listener.
  have each : ∀ {gw}, c.gateways.get? key = some gw → c.managed gw.gatewayClassName = true →
      ∀ {c'}, Relisted c c' →
      (List.Forall₂ SameVIP (desiredVIPs asSelector c key) (desiredVIPs asSelector c' key) ↔
        ∀ addr ∈ gatewayIPs gw.addresses, ∀ l ∈ gw.listeners, (listenerProtocol l.protocol).isSome →
          ∀ b, ofFamily addr b →
            (b ∈ gathered c (c.env asSelector) (gw.ref key) l ↔
              b ∈ gathered c' (c.env asSelector) (gw.ref key) l) ∧
            (Drains c (c.env asSelector) (gw.ref key) l b ↔ Drains c' (c.env asSelector) (gw.ref key) l b)) := by
    intro gw stored served c' relisted
    have gateways : c'.gateways = c.gateways := by rw [relisted.rest]
    have managed : c'.managed = c.managed := by rw [relisted.rest]; rfl
    unfold desiredVIPs
    rw [gateways, managed, relisted.env, stored]
    dsimp only
    rw [if_neg (by simp [served]), if_neg (by simp [served])]
    unfold buildDesiredVIPs
    rw [flatMap_filterMap, flatMap_filterMap,
      forall₂_filterMap_iff fun at' _ => (rel_listenerVIP_iff relisted).1]
    simp only [(rel_listenerVIP_iff relisted).2, Prod.forall, List.pair_mem_product, and_imp]
    exact ⟨fun all addr assigned l listed => all addr l assigned listed,
      fun all addr l assigned listed => all addr assigned l listed⟩
  constructor
  · intro same gw stored served addr assigned l listed supported
    exact listener_iff.mp fun c' relisted =>
      (each stored served relisted).mp (same c' relisted) addr assigned l listed supported
  · intro agree c' relisted
    have none : ∀ c : Cluster, (∀ gw, c.gateways.get? key = some gw → c.managed gw.gatewayClassName = false) →
        desiredVIPs asSelector c key = [] := by
      intro c unserved
      unfold desiredVIPs
      cases stored : c.gateways.get? key with
      | none => rfl
      | some gw => exact if_pos (unserved gw stored)
    by_cases served : ∃ gw, c.gateways.get? key = some gw ∧ c.managed gw.gatewayClassName = true
    · obtain ⟨gw, stored, served⟩ := served
      exact (each stored served relisted).mpr fun addr assigned l listed supported =>
        listener_iff.mpr (agree gw stored served addr assigned l listed supported) c' relisted
    · have unserved : ∀ gw, c.gateways.get? key = some gw → c.managed gw.gatewayClassName = false := by
        simpa using served
      rw [none c unserved, none c' (by rw [relisted.rest]; exact unserved)]
      exact .nil

end GatewayApi

/--
The VIPs wanted for a Service or a Gateway do not depend on the order in which slices and routes are listed,
exactly if nothing that is said about one address and port depends on which of two is listed first.
-/
theorem desired_vips_ignore_listing_order (svc : Reconciler.Service)
    (slices : List Reconciler.EndpointSlice) (opts : Reconciler.BuildOptions)
    (asSelector : GatewayApi.SelectorReader) (c : Cluster) (key : ObjectKey) :
    ((∀ slices', slices.Perm slices' → List.Forall₂ Reconciler.SameVIP
        (Reconciler.buildDesiredVIPs svc slices opts) (Reconciler.buildDesiredVIPs svc slices' opts)) ↔
      Reconciler.SlicesAgree svc opts slices) ∧
    ((∀ c', GatewayApi.Relisted c c' → List.Forall₂ Reconciler.SameVIP
        (GatewayApi.desiredVIPs asSelector c key) (GatewayApi.desiredVIPs asSelector c' key)) ↔
      ∀ gw, c.gateways.get? key = some gw → c.managed gw.gatewayClassName = true →
        GatewayApi.ReferencesAgree c (c.env asSelector) (gw.ref key) gw.addresses) :=
  ⟨Reconciler.services_iff, GatewayApi.gateways_iff⟩

/-- A Service with one address and one port. -/
def listedService : Reconciler.Service := ⟨true, ["10.0.0.5"], [⟨"web", .tcp, 80⟩], false, false⟩

/-- A slice with one endpoint that serves, ready or not. -/
def listedSlice (address : String) (ready : Bool) : Reconciler.EndpointSlice :=
  ⟨[⟨some "web", some 8080⟩], [⟨[address], ⟨some ready, some true⟩, none⟩]⟩

/-- Different endpoints give the same VIP whichever slice is listed first. -/
theorem distinct_endpoints_in_any_order :
    List.Forall₂ Reconciler.SameVIP
      (Reconciler.buildDesiredVIPs listedService [listedSlice "10.1.0.2" true, listedSlice "10.1.0.3" false]
        ⟨"", none⟩)
      (Reconciler.buildDesiredVIPs listedService [listedSlice "10.1.0.3" false, listedSlice "10.1.0.2" true]
        ⟨"", none⟩) := by
  have agree : Reconciler.SlicesAgree listedService ⟨"", none⟩
      [listedSlice "10.1.0.2" true, listedSlice "10.1.0.3" false] := by
    unfold Reconciler.SlicesAgree
    decide +kernel
  exact (desired_vips_ignore_listing_order listedService _ ⟨"", none⟩ (fun _ => .error "unsupported") .empty
    ⟨"", ""⟩).1.mpr agree _ (List.Perm.swap ..)

/--
An endpoint that is ready in one slice and not in another is draining or not by the order of the slices.

The slice that is listed first decides.
-/
theorem first_slice_decides :
    ((Reconciler.buildDesiredVIPs listedService [listedSlice "10.1.0.2" true, listedSlice "10.1.0.2" false]
        ⟨"", none⟩).map fun d => (d.vip.backends, d.drainingBackends)) =
          [([⟨"10.1.0.2", 8080, "", 0⟩], [])] ∧
      ((Reconciler.buildDesiredVIPs listedService [listedSlice "10.1.0.2" false, listedSlice "10.1.0.2" true]
        ⟨"", none⟩).map fun d => (d.vip.backends, d.drainingBackends)) =
          [([⟨"10.1.0.2", 8080, "", 0⟩], [⟨"10.1.0.2", 8080, "", 0⟩])] := by
  decide +kernel

end Rivora

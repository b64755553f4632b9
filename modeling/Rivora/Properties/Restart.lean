import Rivora.Properties.SharedNames

/-! Addresses that are recorded when the controller starts. -/

namespace Rivora.Ipam

variable {ip : String} {done : Owner → Prop} {σ : Type} {managed : Bool} {turn : Turn}

open Interaction Run

/-- Managed and not being deleted. -/
def View.live (v : View) : Bool := v.managed && !v.deleting

/-- The addresses in the status of an object. -/
def View.recorded (v : View) : List String := v.status.filter (· ≠ "")

/-- The object a turn gives an address to, and the address. -/
def Controller.allocated (s : Controller) : Turn → Option (Owner × String)
  | .advance t outcome =>
    match s.left t with
    | some (.call (.allocate o preferredPool pinnedIP) _) =>
      match (s.allocator.allocate outcome.chance o.key preferredPool pinnedIP).1 with
      | .ok ip => some (o, ip)
      | .error _ => none
    | _ => none
  | _ => none

section Conditions

variable (lbClass : String) (api : Bool)

/-- A managed object has an address recorded. -/
def Cluster.Claims (c : Cluster) (o : Owner) (ip : String) : Prop :=
  ∃ v, c.view lbClass api o = some v ∧ v.managed = true ∧ ip ∈ v.recorded

/-- The addresses recorded for managed objects are pairwise different. -/
def Cluster.Distinct (c : Cluster) : Prop :=
  ∀ o o' ip ip', c.Claims lbClass api o ip → c.Claims lbClass api o' ip' → o ≠ o' → ¬ SameAddress ip ip'

/-- A managed object has at most one address recorded. -/
def Cluster.OneAddress (c : Cluster) : Prop :=
  ∀ o ip ip', c.Claims lbClass api o ip → c.Claims lbClass api o ip' → ip = ip'

/-- An object that is managed and not being deleted. -/
def Cluster.Live (c : Cluster) (o : Owner) : Prop := ∃ v, c.view lbClass api o = some v ∧ v.live = true

end Conditions

/-- Nobody else changes the cluster, and no object is taken up before the start-up is done. -/
def Turn.Waits (names : String → Kind) (s : Controller) : Turn → Prop
  | .begin o => s.left .main = none ∧ names o.key = o.kind
  | .change _ => False
  | _ => True

/-- The allocator's two tables of assignments. -/
structure Assignments where
  addrOwner : FMap String String
  ownerAddr : FMap String String

section Rebuild

variable {lbClass : String} {api : Bool} {c : Cluster} {names : String → Kind} {a : Assignments}

/-- The assignments of an allocator. -/
def Allocator.assignments (a : Allocator) : Assignments := ⟨a.addrOwner, a.ownerAddr⟩

/-- The calls of the start-up program on a cluster, and what they do to the assignments. -/
def rebuild (lbClass : String) (api : Bool) (c : Cluster) : Interaction.Spec Request.Reply Assignments where
  may _ r := match r with
    | .reserve o ip => c.Claims lbClass api o ip
    | .listServices | .listGateways | .managedGatewayClass _ | .reconcilePools | .startWorkers _ => True
    | _ => False
  answers a r reply a' := match r, reply with
    | .reserve o ip, _ => ∃ (allocator : Allocator) (chance : Chance), a = allocator.assignments ∧
      a' = (allocator.reserve chance ip o.key).2.assignments
    | .listServices, reply => reply = c.services.entries ∧ a' = a
    | .listGateways, reply => reply = c.gateways.entries ∧ a' = a
    | .managedGatewayClass className, reply => reply = c.managedGatewayClass className ∧ a' = a
    | _, _ => a' = a

/-- Only recorded addresses are assigned, and some objects have theirs. -/
structure Rebuilt (lbClass : String) (api : Bool) (c : Cluster) (done : Owner → Prop) (a : Assignments) :
    Prop where
  claimed : ∀ ip key, a.addrOwner.get? ip = some key → ∃ o, c.Claims lbClass api o ip ∧ o.key = key
  has : ∀ o ip, c.Claims lbClass api o ip → done o → a.ownerAddr.get? o.key = some ip

/-- What makes the recorded addresses fit together. -/
structure Cluster.Consistent (lbClass : String) (api : Bool) (names : String → Kind) (c : Cluster) : Prop where
  tidied : c.Tidy names
  distinct : c.Distinct lbClass api
  one : c.OneAddress lbClass api

theorem Cluster.Consistent.named (consistent : c.Consistent lbClass api names) {o : Owner}
    (claims : c.Claims lbClass api o ip) : names o.key = o.kind := by
  obtain ⟨v, seen, _⟩ := claims
  exact consistent.tidied.named seen

/-- A reservation is entered for its object. -/
theorem Rebuilt.reserve (consistent : c.Consistent lbClass api names) {a : Allocator}
    (rebuilt : Rebuilt lbClass api c done a.assignments) {o : Owner}
    (claims : c.Claims lbClass api o ip) (chance : Chance) :
    Rebuilt lbClass api c (fun o' => done o' ∨ o' = o) (a.reserve chance ip o.key).2.assignments := by
  rcases a.reserves chance ip o.key with ⟨e, owner, taken, other, _⟩ | ⟨a', ok, assigned⟩
  · -- The address is taken by an object it is recorded for, which is this one.
    obtain ⟨o', claims', named⟩ := rebuilt.claimed ip owner taken
    by_cases same : o' = o
    · exact absurd (same ▸ named).symm other
    · exact absurd (Or.inl rfl) (consistent.distinct o' o ip ip claims' claims same)
  · rw [ok]
    refine ⟨fun ip' key owned => ?_, fun o' ip' claims' finished => ?_⟩
    · rw [Allocator.assignments, assigned.addrOwner, FMap.get?_insert] at owned
      split at owned
      · rename_i same
        cases owned
        exact ⟨o, same ▸ claims, rfl⟩
      · exact rebuilt.claimed ip' key owned
    · rw [Allocator.assignments, assigned.ownerAddr, FMap.get?_insert]
      by_cases same : o' = o
      · subst same
        rw [if_pos rfl, consistent.one o' ip ip' claims claims']
      · have apart : o'.key ≠ o.key := fun keys =>
          same (owner_of_key (consistent.named claims') (consistent.named claims) keys)
        rw [if_neg apart]
        exact rebuilt.has o' ip' claims' (finished.resolve_right same)

theorem Rebuilt.mono {done' : Owner → Prop} (rebuilt : Rebuilt lbClass api c done a)
    (more : ∀ o ip, c.Claims lbClass api o ip → done' o → done o) : Rebuilt lbClass api c done' a :=
  ⟨rebuilt.claimed, fun o ip claims finished => rebuilt.has o ip claims (more o ip claims finished)⟩

/-- An object that is seen through the start-up program's list. -/
structure Listed {σ : Type} (lbClass : String) (api : Bool) (c : Cluster) (o : Owner) (obj : Object σ)
    (managed : Bool) : Prop where
  view : ∃ v, c.view lbClass api o = some v ∧ v.managed = managed ∧ v.status = obj.status

theorem Listed.claims {o : Owner} {obj : Object σ} (listed : Listed lbClass api c o obj true)
    (recorded : obj.assignedIP ≠ "") : c.Claims lbClass api o obj.assignedIP := by
  obtain ⟨v, seen, managed, status⟩ := listed.view
  refine ⟨v, seen, managed, ?_⟩
  rcases obj.assignedIP_cases with ⟨none, _⟩ | ⟨nonempty, member⟩
  · exact absurd none recorded
  · rw [View.recorded, status, List.mem_filter]
    exact ⟨member, by simpa using nonempty⟩

theorem Listed.skipped {o : Owner} {obj : Object σ}
    (listed : Listed lbClass api c o obj managed) (skipped : !managed || obj.assignedIP = "") :
    ¬ c.Claims lbClass api o ip := by
  rintro ⟨v, seen, isManaged, member⟩
  obtain ⟨v', seen', managed', status⟩ := listed.view
  cases seen.symm.trans seen'
  have unrecorded : obj.assignedIP = "" := by simpa [← managed', isManaged] using skipped
  rw [View.recorded, status, List.mem_filter] at member
  rcases obj.assignedIP_cases with ⟨_, empty⟩ | ⟨nonempty, _⟩
  · simp [empty ip member.1] at member
  · exact nonempty unrecorded

theorem reserveAssigned_rebuilds (consistent : c.Consistent lbClass api names)
    (rebuilt : Rebuilt lbClass api c done a) {o : Owner}
    {obj : Object σ} (listed : Listed lbClass api c o obj managed) :
    (reserveAssigned o obj managed).Meets (rebuild lbClass api c)
      (fun _ a' => Rebuilt lbClass api c (fun o' => done o' ∨ o' = o) a') a := by
  unfold reserveAssigned
  split
  · rename_i skipped
    refine rebuilt.mono fun o' ip claims finished => finished.resolve_right ?_
    rintro rfl
    exact listed.skipped skipped claims
  · rename_i taken
    simp only [Bool.or_eq_true, decide_eq_true_eq, not_or, Bool.not_eq_true, Bool.not_eq_false'] at taken
    obtain ⟨rfl, recorded⟩ := taken
    have claims := listed.claims recorded
    refine .bind (.ask claims fun _ a' answered => ?_)
    obtain ⟨allocator, chance, rfl, rfl⟩ := answered
    exact rebuilt.reserve consistent claims chance

theorem Rebuilt.cons {kind : Kind} {key : String} {keys : List String}
    (rebuilt : Rebuilt lbClass api c
      (fun o => (done o ∨ o = ⟨kind, key⟩) ∨ o.kind = kind ∧ o.key ∈ keys) a) :
    Rebuilt lbClass api c (fun o => done o ∨ o.kind = kind ∧ o.key ∈ key :: keys) a := by
  refine rebuilt.mono ?_
  rintro ⟨kind', key'⟩ _ _ finished
  simp only [List.mem_cons, Owner.mk.injEq] at finished ⊢
  tauto

/-- The Services' addresses are reserved. -/
theorem reserveServices_rebuilds (consistent : c.Consistent lbClass api names)
    (rebuilt : Rebuilt lbClass api c done a) {listed : List (String × Service)}
    (known : ∀ entry ∈ listed, entry ∈ c.services.entries) :
    (reserveServices lbClass listed).Meets (rebuild lbClass api c)
      (fun _ a' => Rebuilt lbClass api c
        (fun o => done o ∨ o.kind = .service ∧ o.key ∈ listed.map Prod.fst) a') a := by
  induction listed generalizing done a with
  | nil => exact rebuilt.mono fun o _ _ finished => by simpa using finished
  | cons entry rest ih =>
    have found := FMap.get?_eq_some.mpr (known entry List.mem_cons_self)
    have seen : Listed lbClass api c ⟨.service, entry.1⟩ entry.2 (entry.2.spec.managed lbClass) :=
      ⟨⟨entry.2.serviceView lbClass, by simp [Cluster.view, found], rfl, rfl⟩⟩
    refine .bind ((reserveAssigned_rebuilds consistent rebuilt seen).mono fun _ a' rebuilt' => ?_)
    exact (ih rebuilt' fun entry member => known entry (List.mem_cons_of_mem _ member)).mono
      fun _ a'' rebuilt'' => rebuilt''.cons

/-- The Gateways' addresses are reserved. -/
theorem reserveGateways_rebuilds (consistent : c.Consistent lbClass true names)
    (rebuilt : Rebuilt lbClass true c done a) {listed : List (String × Gateway)}
    (known : ∀ entry ∈ listed, entry ∈ c.gateways.entries) :
    (reserveGateways listed).Meets (rebuild lbClass true c)
      (fun _ a' => Rebuilt lbClass true c
        (fun o => done o ∨ o.kind = .gateway ∧ o.key ∈ listed.map Prod.fst) a') a := by
  induction listed generalizing done a with
  | nil => exact rebuilt.mono fun o _ _ finished => by simpa using finished
  | cons entry rest ih =>
    refine .bind (.ask trivial fun (managed : Bool) a₁ answered => ?_)
    obtain ⟨rfl, rfl⟩ := answered
    have found := FMap.get?_eq_some.mpr (known entry List.mem_cons_self)
    have seen : Listed lbClass true c ⟨.gateway, entry.1⟩ entry.2
        (c.managedGatewayClass entry.2.spec.gatewayClassName) :=
      ⟨⟨entry.2.gatewayView (c.managedGatewayClass entry.2.spec.gatewayClassName),
        by simp [Cluster.view, found], rfl, rfl⟩⟩
    refine .bind ((reserveAssigned_rebuilds consistent rebuilt seen).mono fun _ a' rebuilt' => ?_)
    exact (ih rebuilt' fun entry member => known entry (List.mem_cons_of_mem _ member)).mono
      fun _ a'' rebuilt'' => rebuilt''.cons

theorem Cluster.Claims.listed {o : Owner} (claims : c.Claims lbClass api o ip) :
    (o.kind = .service ∧ o.key ∈ c.services.entries.map Prod.fst) ∨
      (o.kind = .gateway ∧ api = true ∧ o.key ∈ c.gateways.entries.map Prod.fst) := by
  obtain ⟨v, seen, managed, _⟩ := claims
  obtain ⟨kind, key⟩ := o
  cases kind with
  | service =>
    obtain ⟨svc, found, _⟩ := Option.map_eq_some_iff.mp seen
    exact Or.inl ⟨rfl, List.mem_map.mpr ⟨_, FMap.get?_eq_some.mp found, rfl⟩⟩
  | gateway =>
    obtain ⟨gw, found, rfl⟩ := Option.map_eq_some_iff.mp seen
    simp only [Object.gatewayView, Bool.and_eq_true] at managed
    exact Or.inr ⟨rfl, managed.1, List.mem_map.mpr ⟨_, FMap.get?_eq_some.mp found, rfl⟩⟩

/-- After the start-up every recorded address is reserved. -/
theorem startUp_rebuilds (consistent : c.Consistent lbClass api names) :
    (startUp lbClass api).Meets (rebuild lbClass api c)
      (fun _ a => Rebuilt lbClass api c (fun _ => True) a) Allocator.new.assignments := by
  refine .bind (.ask trivial fun _ a₁ answered => ?_)
  have pooled : Rebuilt lbClass api c (fun _ => False) a₁ := by
    refine ⟨fun ip key owned => ?_, fun _ _ _ never => never.elim⟩
    rw [show a₁ = Allocator.new.assignments from answered] at owned
    cases owned
  refine .bind (.ask trivial fun (services : List (String × Service)) a₂ answered => ?_)
  obtain ⟨rfl, rfl⟩ := answered
  refine .bind ((reserveServices_rebuilds consistent pooled fun _ member => member).mono ?_)
  intro _ a₃ rebuilt
  refine .bind (.ask trivial fun _ a₄ answered => ?_)
  cases (answered : a₄ = a₃)
  cases api with
  | false =>
    -- Without the Gateway API only Services have addresses recorded.
    refine rebuilt.mono fun o ip claims _ => Or.inr ?_
    cases claims.listed with
    | inl service => exact service
    | inr gateway => exact absurd gateway.2.1 (by decide)
  | true =>
    refine .bind (.ask trivial fun (gateways : List (String × Gateway)) a₅ answered => ?_)
    obtain ⟨rfl, rfl⟩ := answered
    refine .bind ((reserveGateways_rebuilds consistent rebuilt fun _ member => member).mono ?_)
    intro _ a₆ rebuilt'
    refine .bind (.ask trivial fun _ a₇ answered => ?_)
    cases (answered : a₇ = a₆)
    refine rebuilt'.mono fun o ip claims _ => ?_
    cases claims.listed with
    | inl service => exact Or.inl (Or.inr service)
    | inr gateway => exact Or.inr ⟨gateway.1, gateway.2.2⟩

end Rebuild

section Workers

/--
The calls of the reconcile of one object, with the address the object has.

An address is released only if the object is not live, and recorded only if the object has it.
-/
def careful (o : Owner) (live : Prop) (lbClass : String) (managedClass : String → Bool) :
    Interaction.Spec Request.Reply (Option String) where
  may has r := match r with
    | .getService key => o = ⟨.service, key⟩
    | .getGateway key => o = ⟨.gateway, key⟩
    | .managedGatewayClass _ => True
    | .patchFinalizers _ _ => True
    | .patchStatus o' ip => o' = o ∧ has = some ip
    | .allocate o' _ _ => o' = o
    | .release o' => o' = o ∧ ¬ live
    | _ => False
  answers has r reply has' := match r, reply with
    | .getService _, reply => has' = has ∧ (reply = .notFound → ¬ live) ∧
      ∀ svc, reply = .found svc → live → svc.spec.managed lbClass = true ∧ svc.deleting = false
    | .getGateway _, reply => has' = has ∧ (reply = .notFound → ¬ live) ∧
      ∀ gw, reply = .found gw → live → managedClass gw.spec.gatewayClassName = true ∧ gw.deleting = false
    | .managedGatewayClass className, reply => has' = has ∧ reply = managedClass className
    | .allocate _ _ _, reply => (∀ ip, reply = .ok ip → has' = some ip) ∧ ∀ e, reply = .error e → has' = has
    | .release _, _ => has' = none
    | _, _ => has' = has

variable {o : Owner} {live : Prop} {lbClass : String} {managedClass : String → Bool} {has : Option String}

/-- A live object's address is not released. -/
theorem reconcileFound_careful {obj : Object σ} (pinnedIP : String)
    (seen : live → managed = true ∧ obj.deleting = false) :
    (reconcileFound o obj managed pinnedIP).Meets (careful o live lbClass managedClass)
      (fun _ _ => True) has := by
  unfold reconcileFound
  split
  · rename_i given_up
    -- A live object is managed and not being deleted.
    have dead : ¬ live := by
      intro alive
      obtain ⟨managed, deleting⟩ := seen alive
      simp [managed, deleting] at given_up
    split
    · exact .bind (.ask ⟨rfl, dead⟩ fun _ _ _ => .ask trivial fun _ _ _ => trivial)
    · trivial
  · split
    · exact .ask trivial fun _ _ _ => trivial
    · refine .bind (.ask rfl fun (r : Except String String) _ answered => ?_)
      cases r with
      | error e => trivial
      | ok ip =>
        show Prog.Meets _ _ (if _ then _ else _) _
        split
        · trivial
        · exact .ask ⟨rfl, answered.1 ip rfl⟩ fun _ _ _ => trivial

theorem reconcile_careful :
    (reconcile lbClass o).Meets (careful o live lbClass managedClass) (fun _ _ => True) has := by
  obtain ⟨kind, key⟩ := o
  cases kind with
  | service =>
    refine .bind (.ask rfl fun (r : Fetched Service) _ answered => ?_)
    obtain ⟨_, missing, found⟩ := answered
    cases r with
    | notFound => exact .bind (.ask ⟨rfl, missing rfl⟩ fun _ _ _ => trivial)
    | failed e => trivial
    | found svc => exact reconcileFound_careful _ (found svc rfl)
  | gateway =>
    refine .bind (.ask rfl fun (r : Fetched Gateway) _ answered => ?_)
    obtain ⟨_, missing, found⟩ := answered
    cases r with
    | notFound => exact .bind (.ask ⟨rfl, missing rfl⟩ fun _ _ _ => trivial)
    | failed e => trivial
    | found gw =>
      refine .bind (.ask trivial fun (managed : Bool) _ answered => ?_)
      obtain ⟨_, rfl⟩ := answered
      exact reconcileFound_careful _ (found gw rfl)

end Workers

section Runs

variable {names : String → Kind} {lbClass : String} {api : Bool} {c : Cluster} {s : Controller}

/-- The live objects and the classes are those the cluster started with. -/
structure Cluster.SameObjects (lbClass : String) (api : Bool) (c c' : Cluster) : Prop where
  classes : c'.classes = c.classes
  live : ∀ o, c'.Live lbClass api o ↔ c.Live lbClass api o

/-- Every live object has the addresses recorded for it. -/
def Controller.Keeps (s : Controller) (lbClass : String) (api : Bool) : Prop :=
  ∀ o v, s.cluster.view lbClass api o = some v → v.live = true →
    ∀ ip ∈ v.recorded, s.allocator.ownerAddr.get? o.key = some ip

/-- The reconciles in progress are careful. -/
def Controller.Careful (s : Controller) (names : String → Kind) (lbClass : String) (api : Bool) (c : Cluster) :
    Prop :=
  ∀ o p, s.left (.worker o) = some p → names o.key = o.kind ∧
    p.Meets (careful o (c.Live lbClass api o) lbClass c.managedGatewayClass) (fun _ _ => True)
      (s.allocator.ownerAddr.get? o.key)

/-- The start-up is in progress and nothing else, or it is done and all live objects have their addresses. -/
inductive Controller.Phase (names : String → Kind) (lbClass : String) (api : Bool) (c : Cluster) (s : Controller) :
    Prop where
  | starting (p : Program (Except String Unit)) (left : s.left .main = some p) (unchanged : s.cluster = c)
      (idle : ∀ o, s.left (.worker o) = none)
      (rebuilds : p.Meets (rebuild lbClass api c) (fun _ a => Rebuilt lbClass api c (fun _ => True) a)
        s.allocator.assignments)
  | started (done : s.left .main = none) (same : Cluster.SameObjects lbClass api c s.cluster)
      (keeps : s.Keeps lbClass api) (careful : s.Careful names lbClass api c)

/-- What holds of the controller from the start on. -/
structure Controller.Restarted (names : String → Kind) (lbClass : String) (api : Bool) (c : Cluster)
    (s : Controller) : Prop where
  sound : s.Sound names
  disciplined : s.Disciplined names
  lbClass_eq : s.lbClass = lbClass
  phase : s.Phase names lbClass api c

theorem Controller.answer_rebuilds (outcome : Outcome) {r : Request}
    (permitted : (rebuild lbClass api s.cluster).may s.allocator.assignments r) :
    (Controller.answer outcome r s).2.cluster = s.cluster ∧
      (rebuild lbClass api s.cluster).answers s.allocator.assignments r (Controller.answer outcome r s).1
        (Controller.answer outcome r s).2.allocator.assignments := by
  cases r with
  | reserve o ip => exact ⟨rfl, s.allocator, outcome.chance, rfl, rfl⟩
  | listServices => exact ⟨rfl, rfl, rfl⟩
  | listGateways => exact ⟨rfl, rfl, rfl⟩
  | managedGatewayClass className => exact ⟨rfl, rfl, rfl⟩
  | reconcilePools => exact ⟨rfl, rfl⟩
  | startWorkers kind => exact ⟨rfl, rfl⟩
  | _ => exact permitted.elim

theorem Controller.Phase.finish (unchanged : s.cluster = c) (idle : ∀ o, s.left (.worker o) = none)
    (rebuilt : Rebuilt lbClass api c (fun _ => True) s.allocator.assignments) :
    (s.setLeft .main none).Phase names lbClass api c := by
  refine .started (by simp [setLeft]) ⟨congrArg _ unchanged, fun o => by simp [setLeft, unchanged]⟩ ?_ ?_
  · intro o v seen alive ip member
    rw [setLeft, unchanged] at seen
    simp only [View.live, Bool.and_eq_true] at alive
    exact rebuilt.has o ip ⟨v, seen, alive.1, member⟩ trivial
  · intro o p left
    simp [setLeft, idle o] at left

/-- A turn of the start-up. -/
theorem Controller.Phase.step_starting {p : Program (Except String Unit)} (left : s.left .main = some p)
    (unchanged : s.cluster = c) (idle : ∀ o, s.left (.worker o) = none)
    (rebuilds : p.Meets (rebuild lbClass api c) (fun _ a => Rebuilt lbClass api c (fun _ => True) a)
      s.allocator.assignments) (waits : turn.Waits names s) :
    (s.step turn).Phase names lbClass api c := by
  cases turn with
  | begin o => exact absurd waits.1 (by simp [left])
  | change change => exact waits.elim
  | syncPools =>
    simp only [Controller.step]
    split
    · exact .starting p left unchanged idle rebuilds
    · exact .starting p left unchanged idle rebuilds
  | advance t outcome =>
    cases t with
    | worker o =>
      simp only [Controller.step, idle o]
      exact .starting p left unchanged idle rebuilds
    | main =>
      simp only [Controller.step, left]
      cases p with
      | done r => exact Controller.Phase.finish unchanged idle rebuilds
      | call r next =>
        subst unchanged
        obtain ⟨permitted, goesOn⟩ := rebuilds
        obtain ⟨same, answered⟩ := Controller.answer_rebuilds outcome permitted
        refine .starting (next _) (by simp [setLeft]) same (fun o => ?_) (goesOn _ _ answered)
        simp [setLeft, (Controller.answer_keeps _ _ _).1, idle o]

theorem Cluster.sameObjects_setFinalizers (o : Owner) (finalizers : List String) :
    Cluster.SameObjects lbClass api c (c.setFinalizers o finalizers) := by
  refine ⟨by unfold Cluster.setFinalizers; split <;> rfl, fun o' => ?_⟩
  unfold Live
  rw [view_setFinalizers]
  split
  · rename_i same
    subst same
    constructor
    · rintro ⟨v, seen, alive⟩
      exact ⟨v, (Option.filter_eq_some_iff.mp seen).1, alive⟩
    · -- An object that is gone was being deleted.
      rintro ⟨v, seen, alive⟩
      have undeleted : v.deleting = false := by
        simp only [View.live, Bool.and_eq_true, Bool.not_eq_true'] at alive
        exact alive.2
      exact ⟨v, Option.filter_eq_some_iff.mpr ⟨seen, by simp [undeleted]⟩, alive⟩
  · exact Iff.rfl

theorem Cluster.sameObjects_setStatus (o : Owner) (ip : String) :
    Cluster.SameObjects lbClass api c (c.setStatus o ip) := by
  refine ⟨by unfold Cluster.setStatus; split <;> rfl, fun o' => ?_⟩
  unfold Live
  rw [view_setStatus]
  split
  · rename_i same
    subst same
    constructor
    · rintro ⟨v, seen, alive⟩
      obtain ⟨v', seen', rfl⟩ := Option.map_eq_some_iff.mp seen
      exact ⟨v', seen', alive⟩
    · rintro ⟨v, seen, alive⟩
      exact ⟨{ v with status := [ip] }, by simp [seen], alive⟩
  · exact Iff.rfl

/-- The tables and the cluster after a careful call. -/
structure Controller.Follows (lbClass : String) (api : Bool) (s : Controller) (o : Owner) (s' : Controller) :
    Prop where
  /-- The addresses of the other objects stay. -/
  others : ∀ key, key ≠ o.key → s'.allocator.ownerAddr.get? key = s.allocator.ownerAddr.get? key
  same : Cluster.SameObjects lbClass api s.cluster s'.cluster
  keeps : s'.Keeps lbClass api

theorem Controller.Keeps.patch (keeps : s.Keeps lbClass api) {c' : Cluster}
    (same : Cluster.SameObjects lbClass api s.cluster c')
    (kept : Controller.Keeps { s with cluster := c' } lbClass api) (o o' : Owner) (outcome : Outcome) :
    (s.patch o' outcome c').2.allocator = s.allocator ∧ s.Follows lbClass api o (s.patch o' outcome c').2 := by
  rcases s.patch_cases o' outcome c' with unwritten | written
  · rw [unwritten]
    exact ⟨rfl, fun _ _ => rfl, ⟨rfl, fun _ => Iff.rfl⟩, keeps⟩
  · rw [written]
    exact ⟨rfl, fun _ _ => rfl, same, kept⟩

theorem Controller.Keeps.setFinalizers (keeps : s.Keeps lbClass api) (o : Owner) (finalizers : List String) :
    Controller.Keeps { s with cluster := s.cluster.setFinalizers o finalizers } lbClass api := by
  intro o' v seen alive ip member
  refine keeps o' v ?_ alive ip member
  rw [view_setFinalizers] at seen
  split at seen
  · rename_i same
    exact same ▸ (Option.filter_eq_some_iff.mp seen).1
  · exact seen

/-- A new status holds the address the object has. -/
theorem Controller.Keeps.setStatus (keeps : s.Keeps lbClass api) {o : Owner}
    (has : s.allocator.ownerAddr.get? o.key = some ip) :
    Controller.Keeps { s with cluster := s.cluster.setStatus o ip } lbClass api := by
  intro o' v seen alive ip' member
  rw [view_setStatus] at seen
  split at seen
  · rename_i same
    subst same
    obtain ⟨v', _, rfl⟩ := Option.map_eq_some_iff.mp seen
    simp only [View.recorded, List.mem_filter, List.mem_singleton] at member
    rw [member.1]
    exact has
  · exact keeps o' v seen alive ip' member

/-- An address given to an object is nobody else's. -/
theorem Controller.Keeps.reassign (keeps : s.Keeps lbClass api) (sound : s.Sound names) {o : Owner}
    (named : names o.key = o.kind) {s' : Controller} (cluster : s'.cluster = s.cluster)
    (others : ∀ key, key ≠ o.key → s'.allocator.ownerAddr.get? key = s.allocator.ownerAddr.get? key)
    (mine : ∀ v, s.cluster.view lbClass api o = some v → v.live = true → ∀ ip ∈ v.recorded,
      s'.allocator.ownerAddr.get? o.key = some ip) : s.Follows lbClass api o s' := by
  refine ⟨others, ⟨by rw [cluster], fun _ => by rw [cluster]⟩, fun o' v seen alive ip member => ?_⟩
  rw [cluster] at seen
  by_cases same : o' = o
  · subst same
    exact mine v seen alive ip member
  · have apart : o'.key ≠ o.key := fun keys => same (owner_of_key (sound.cluster.named seen) named keys)
    rw [others _ apart]
    exact keeps o' v seen alive ip member

section Fetch

variable {ν : Type} {m : FMap String ν} {key : String} {outcome : Outcome} {view : ν → View}

theorem fetch_missing (missing : fetch m key outcome = .notFound) :
    ¬ ∃ v, (m.get? key).map view = some v ∧ v.live = true := by
  rintro ⟨v, seen, _⟩
  obtain ⟨obj, stored, _⟩ := Option.map_eq_some_iff.mp seen
  simp only [fetch, stored] at missing
  split at missing <;> simp_all

theorem fetch_live {obj : ν} (found : fetch m key outcome = .found obj)
    (alive : ∃ v, (m.get? key).map view = some v ∧ v.live = true) : (view obj).live = true := by
  obtain ⟨v, seen, live⟩ := alive
  rw [fetch_found found] at seen
  cases seen
  exact live

end Fetch

theorem Controller.answer_careful (sound : s.Sound names) (same : Cluster.SameObjects lbClass api c s.cluster)
    (keeps : s.Keeps lbClass api) {o : Owner} (named : names o.key = o.kind) (outcome : Outcome) {r : Request}
    (permitted : (careful o (c.Live lbClass api o) lbClass c.managedGatewayClass).may
      (s.allocator.ownerAddr.get? o.key) r) :
    (careful o (c.Live lbClass api o) lbClass c.managedGatewayClass).answers
        (s.allocator.ownerAddr.get? o.key) r (Controller.answer outcome r s).1
        ((Controller.answer outcome r s).2.allocator.ownerAddr.get? o.key) ∧
      s.Follows lbClass api o (Controller.answer outcome r s).2 := by
  have unchanged : s.Follows lbClass api o s := ⟨fun _ _ => rfl, ⟨rfl, fun _ => Iff.rfl⟩, keeps⟩
  have classes : s.cluster.managedGatewayClass = c.managedGatewayClass := by
    funext className
    rw [Cluster.managedGatewayClass, Cluster.managedGatewayClass, same.classes]
  cases r with
  | getService key =>
    obtain rfl : o = ⟨.service, key⟩ := permitted
    refine ⟨⟨rfl, fun missing alive => fetch_missing missing ((same.live _).mpr alive),
      fun svc found alive => ?_⟩, unchanged⟩
    simpa [View.live, Object.serviceView] using fetch_live found ((same.live _).mpr alive)
  | getGateway key =>
    obtain rfl : o = ⟨.gateway, key⟩ := permitted
    refine ⟨⟨rfl, fun missing alive => fetch_missing missing ((same.live _).mpr alive),
      fun gw found alive => ?_⟩, unchanged⟩
    have live := fetch_live found ((same.live _).mpr alive)
    simp only [View.live, Object.gatewayView, Bool.and_eq_true, Bool.not_eq_true', classes] at live
    exact ⟨live.1.2, live.2⟩
  | managedGatewayClass className => exact ⟨⟨rfl, congrFun classes className⟩, unchanged⟩
  | patchFinalizers o' finalizers =>
    obtain ⟨allocator, follows⟩ := keeps.patch (s.cluster.sameObjects_setFinalizers o' finalizers)
      (keeps.setFinalizers o' finalizers) o o' outcome
    exact ⟨congrArg (fun a : Allocator => a.ownerAddr.get? o.key) allocator, follows⟩
  | patchStatus o' ip =>
    obtain ⟨rfl, has⟩ := permitted
    obtain ⟨allocator, follows⟩ := keeps.patch (s.cluster.sameObjects_setStatus o' ip)
      (keeps.setStatus has) o' o' outcome
    exact ⟨congrArg (fun a : Allocator => a.ownerAddr.get? o'.key) allocator, follows⟩
  | allocate o' preferredPool pinnedIP =>
    obtain rfl : o' = o := permitted
    simp only [Controller.answer, careful]
    have outcomes := s.allocator.allocates outcome.chance o'.key preferredPool pinnedIP
    generalize s.allocator.allocate outcome.chance o'.key preferredPool pinnedIP = result at outcomes
    cases outcomes with
    | held ip has =>
      refine ⟨⟨fun ip' told => ?_, fun e told => by cases told⟩, keeps.reassign sound named rfl (fun _ _ => rfl) (keeps o')⟩
      cases told
      exact has
    | refused e lacks =>
      exact ⟨⟨(fun ip told => by cases told), fun _ _ => rfl⟩, keeps.reassign sound named rfl (fun _ _ => rfl) (keeps o')⟩
    | assigned ip a' lacks assigned offered =>
      refine ⟨⟨fun ip' told => ?_, fun e told => by cases told⟩, keeps.reassign sound named rfl (fun key apart => ?_) ?_⟩
      · cases told
        simp [assigned.ownerAddr]
      · simp [assigned.ownerAddr, FMap.get?_insert, apart]
      · -- An object without an address has none recorded.
        intro v seen alive ip' member
        have has := keeps o' v seen alive ip' member
        rw [lacks] at has
        cases has
  | release o' =>
    obtain ⟨rfl, dead⟩ := permitted
    refine ⟨?_, keeps.reassign sound named rfl (fun key apart => ?_) ?_⟩
    · show (s.allocator.release o'.key).ownerAddr.get? o'.key = none
      rw [Allocator.release_ownerAddr, if_pos rfl]
    · show (s.allocator.release o'.key).ownerAddr.get? key = _
      rw [Allocator.release_ownerAddr, if_neg apart]
    · intro v seen alive
      exact absurd ((same.live o').mp ⟨v, seen, alive⟩) dead
  | _ => exact permitted.elim

theorem Cluster.SameObjects.trans {c' c'' : Cluster} (first : Cluster.SameObjects lbClass api c c')
    (second : Cluster.SameObjects lbClass api c' c'') : Cluster.SameObjects lbClass api c c'' :=
  ⟨second.classes.trans first.classes, fun o => (second.live o).trans (first.live o)⟩

theorem Controller.Phase.setLeft {o : Owner} (done : s.left .main = none)
    (same : Cluster.SameObjects lbClass api c s.cluster) (keeps : s.Keeps lbClass api)
    (careful : ∀ o' p, o' ≠ o → s.left (.worker o') = some p → names o'.key = o'.kind ∧
      p.Meets (careful o' (c.Live lbClass api o') lbClass c.managedGatewayClass) (fun _ _ => True)
        (s.allocator.ownerAddr.get? o'.key))
    {left : Option (Program (Except String Unit))}
    (mine : ∀ p, left = some p → names o.key = o.kind ∧
      p.Meets (Ipam.careful o (c.Live lbClass api o) lbClass c.managedGatewayClass) (fun _ _ => True)
        (s.allocator.ownerAddr.get? o.key)) :
    (s.setLeft (.worker o) left).Phase names lbClass api c := by
  refine .started (by simpa [Controller.setLeft] using done) same keeps fun o' p isLeft => ?_
  by_cases this : o' = o
  · subst this
    exact mine p (by simpa [Controller.setLeft] using isLeft)
  · have apart : Thread.worker o' ≠ .worker o := fun threads => this (Thread.worker.inj threads)
    exact careful o' p this (by simpa [Controller.setLeft, apart] using isLeft)

/-- A turn after it. -/
theorem Controller.Phase.step_started (sound : s.Sound names) (lbClass_eq : s.lbClass = lbClass)
    (done : s.left .main = none) (same : Cluster.SameObjects lbClass api c s.cluster)
    (keeps : s.Keeps lbClass api) (isCareful : s.Careful names lbClass api c)
    (waits : turn.Waits names s) : (s.step turn).Phase names lbClass api c := by
  have unchanged : s.Phase names lbClass api c := .started done same keeps isCareful
  cases turn with
  | change change => exact waits.elim
  | syncPools =>
    simp only [Controller.step]
    split
    · exact .started done same keeps isCareful
    · exact unchanged
  | begin o =>
    simp only [Controller.step]
    split
    · refine .setLeft done same keeps (fun o' p _ left => isCareful o' p left) fun p begun => ?_
      cases begun
      rw [lbClass_eq]
      exact ⟨waits.2, reconcile_careful⟩
    · exact unchanged
  | advance t outcome =>
    simp only [Controller.step]
    cases left : s.left t with
    | none => exact unchanged
    | some p =>
      cases t with
      | main => exact absurd left (by simp [done])
      | worker o =>
        obtain ⟨named, meets⟩ := isCareful o p left
        cases p with
        | done r =>
          refine .setLeft done same keeps (fun o' p _ left => isCareful o' p left) ?_
          intro p never
          cases never
        | call r next =>
          obtain ⟨permitted, goesOn⟩ := meets
          obtain ⟨answered, follows⟩ := Controller.answer_careful sound same keeps named outcome permitted
          refine .setLeft ?_ (same.trans follows.same) follows.keeps (fun o' p other left' => ?_) ?_
          · rw [(Controller.answer_keeps _ _ _).1]
            exact done
          · -- The address another object has is not touched by this call.
            rw [(Controller.answer_keeps _ _ _).1] at left'
            obtain ⟨named', meets'⟩ := isCareful o' p left'
            have apart : o'.key ≠ o.key := fun keys => other (owner_of_key named' named keys)
            rw [follows.others _ apart]
            exact ⟨named', meets'⟩
          · rintro p ⟨⟩
            exact ⟨named, goesOn _ _ answered⟩

theorem Controller.step_lbClass (s : Controller) (turn : Turn) : (s.step turn).lbClass = s.lbClass := by
  cases turn with
  | begin o =>
    simp only [Controller.step]
    split <;> rfl
  | advance t outcome =>
    simp only [Controller.step]
    split
    · rfl
    · rfl
    · exact (Controller.answer_keeps _ _ _).2
  | syncPools =>
    simp only [Controller.step]
    split <;> rfl
  | change c => rfl

theorem Turn.Waits.tidy (waits : turn.Waits names s) : turn.Tidy names := by
  cases turn with
  | begin o => exact waits.2
  | change change => exact waits.elim
  | advance t outcome => trivial
  | syncPools => trivial

/-- One turn keeps what has been reserved. -/
theorem Controller.Restarted.step (restarted : s.Restarted names lbClass api c)
    (waits : turn.Waits names s) : (s.step turn).Restarted names lbClass api c := by
  obtain ⟨sound', disciplined'⟩ := restarted.sound.step restarted.disciplined waits.tidy
  refine ⟨sound', disciplined', (s.step_lbClass turn).trans restarted.lbClass_eq, ?_⟩
  cases restarted.phase with
  | starting p left unchanged idle rebuilds =>
    exact Controller.Phase.step_starting left unchanged idle rebuilds waits
  | started done same keeps isCareful =>
    exact Controller.Phase.step_started restarted.sound restarted.lbClass_eq done same keeps isCareful waits

/-- What is given out then is recorded for nobody else. -/
theorem Controller.Restarted.allocated (restarted : s.Restarted names lbClass api c) {o : Owner}
    (given : s.allocated turn = some (o, ip)) {o' : Owner} {v : View} (other : o' ≠ o)
    (seen : s.cluster.view lbClass api o' = some v) (alive : v.live = true) {ip' : String}
    (member : ip' ∈ v.recorded) : ¬ SameAddress ip ip' := by
  cases turn with
  | advance t outcome =>
    simp only [Controller.allocated] at given
    split at given
    · rename_i owner preferredPool pinnedIP next left
      split at given
      · rename_i ip₁ got
        cases given
        obtain ⟨permitted, _⟩ := restarted.disciplined t _ left
        obtain ⟨sound', _⟩ := restarted.sound.answer outcome permitted
        cases restarted.phase with
        | starting p left' unchanged idle rebuilds =>
          -- The start-up program allocates nothing, and nobody else is at work.
          cases t with
          | worker w => exact absurd left (by simp [idle w])
          | main =>
            cases left'.symm.trans left
            exact rebuilds.1.elim
        | started done same keeps isCareful =>
          cases t with
          | main => exact absurd left (by simp [done])
          | worker w =>
            obtain ⟨named, mayAllocate, _⟩ := isCareful w _ left
            have own : o = w := mayAllocate
            subst own
            obtain ⟨answered, follows⟩ :=
              Controller.answer_careful restarted.sound same keeps named outcome mayAllocate
            have apart : o'.key ≠ o.key := fun keys =>
              other (owner_of_key (restarted.sound.cluster.named seen) named keys)
            -- After the call both objects have their addresses, so these differ.
            have has := answered.1 ip got
            have has' := keeps o' v seen alive ip' member
            rw [← follows.others _ apart] at has'
            exact not_sameAddress sound'.backed sound'.spelled has has' (Ne.symm apart)
      · cases given
    · cases given
  | begin o => cases given
  | syncPools => cases given
  | change change => cases given

end Runs

/-- If reconciles wait for the start-up, no address that a live object has recorded is given to another. -/
theorem recorded_addresses_stay (names : String → Kind) (lbClass : String) (api : Bool) (cluster : Cluster)
    (tidied : cluster.Tidy names) (distinct : cluster.Distinct lbClass api)
    (one : cluster.OneAddress lbClass api) (turns : List Turn)
    (waits : Along Controller.step (fun s turn => turn.Waits names s) (.start lbClass api cluster) turns) :
    Along Controller.step (fun s turn => ∀ o ip, s.allocated turn = some (o, ip) →
      ∀ o' v, o' ≠ o → s.cluster.view lbClass api o' = some v → v.live = true →
        ∀ ip' ∈ v.recorded, ¬ SameAddress ip ip') (.start lbClass api cluster) turns := by
  -- The start-up program rebuilds the assignments, and everything else keeps them.
  have consistent : cluster.Consistent lbClass api names := ⟨tidied, distinct, one⟩
  obtain ⟨sound, disciplined⟩ := Controller.sound_start lbClass api tidied
  have start : (Controller.start lbClass api cluster).Restarted names lbClass api cluster := by
    refine ⟨sound, disciplined, rfl, .starting _ rfl rfl (fun o => rfl) ?_⟩
    exact startUp_rebuilds consistent
  refine Run.along_of_invariant (P := fun s => s.Restarted names lbClass api cluster)
    (fun restarted waits => restarted.step waits) ?_ start waits
  intro s turn restarted _ o ip given o' v other seen alive ip' member
  exact restarted.allocated given other seen alive member

section Example

/-- A Gateway with an address in its status. -/
def servedGateway : Gateway := { waitingGateway with status := ["10.0.0.1"] }

/-- A Service without and a Gateway with an address, and a pool of two addresses. -/
def restartCluster : Cluster :=
  { pairCluster "default/web" "default/edge" with gateways := FMap.ofList [("default/edge", servedGateway)] }

/-- Wait for the start-up, and then reconcile the Service. -/
def waitAndReconcile : List Turn :=
  List.replicate 8 (.advance .main .plain) ++ [.begin ⟨.service, "default/web"⟩] ++
    List.replicate 2 (.advance (.worker ⟨.service, "default/web"⟩) .plain)

theorem view_restartCluster {o : Owner} {v : View} {lbClass : String} {api : Bool}
    (seen : restartCluster.view lbClass api o = some v) :
    (o = ⟨.service, "default/web"⟩ ∧ v.pinnedIP = "" ∧ v.status = []) ∨
      (o = ⟨.gateway, "default/edge"⟩ ∧ v.pinnedIP = "" ∧ v.status = ["10.0.0.1"]) := by
  obtain ⟨kind, key⟩ := o
  cases kind with
  | service =>
    obtain ⟨svc, found, rfl⟩ := Option.map_eq_some_iff.mp seen
    have member := FMap.mem_of_get?_ofList found
    simp only [List.mem_singleton, Prod.mk.injEq] at member
    obtain ⟨rfl, rfl⟩ := member
    exact Or.inl ⟨rfl, rfl, rfl⟩
  | gateway =>
    obtain ⟨gw, found, rfl⟩ := Option.map_eq_some_iff.mp seen
    have member := FMap.mem_of_get?_ofList found
    simp only [List.mem_singleton, Prod.mk.injEq] at member
    obtain ⟨rfl, rfl⟩ := member
    exact Or.inr ⟨rfl, rfl, rfl⟩

theorem claims_restartCluster {o : Owner} (claims : restartCluster.Claims "rivora" true o ip) :
    o = ⟨.gateway, "default/edge"⟩ ∧ ip = "10.0.0.1" := by
  obtain ⟨v, seen, _, member⟩ := claims
  rcases view_restartCluster seen with ⟨_, _, status⟩ | ⟨rfl, _, status⟩
  · simp [View.recorded, status] at member
  · exact ⟨rfl, by simpa [View.recorded, status] using member⟩

theorem tidy_restartCluster : restartCluster.Tidy (oneGateway "default/edge") := by
  intro o v seen
  rcases view_restartCluster seen with ⟨rfl, pinned, status⟩ | ⟨rfl, pinned, status⟩
  · refine ⟨by decide, by rw [pinned]; exact canonical_empty, ?_⟩
    simp [status]
  · refine ⟨by decide, by rw [pinned]; exact canonical_empty, ?_⟩
    rw [status]
    simp only [List.mem_singleton, forall_eq]
    decide +kernel

/-- A Service that waits for the start-up is given the address that the Gateway does not have. -/
theorem recorded_addresses_stay_after_wait :
    let s := run Controller.step (.start "rivora" true restartCluster) (waitAndReconcile.take 10)
    s.allocated (.advance (.worker ⟨.service, "default/web"⟩) .plain) =
      some (⟨.service, "default/web"⟩, "10.0.0.2") ∧ ¬ SameAddress "10.0.0.2" "10.0.0.1" := by
  intro s
  have given : s.allocated (.advance (.worker ⟨.service, "default/web"⟩) .plain) =
      some (⟨.service, "default/web"⟩, "10.0.0.2") := by decide +kernel
  have waits : Along Controller.step (fun s turn => turn.Waits (oneGateway "default/edge") s)
      (.start "rivora" true restartCluster) waitAndReconcile := by
    refine ⟨trivial, trivial, trivial, trivial, trivial, trivial, trivial, trivial, ⟨?_, by decide⟩, trivial,
      trivial, trivial⟩
    exact Option.isNone_iff_eq_none.mp (by decide +kernel)
  have kept := recorded_addresses_stay (oneGateway "default/edge") "rivora" true restartCluster
    tidy_restartCluster
    (fun o o' ip ip' claims claims' other => absurd
      ((claims_restartCluster claims).1.trans (claims_restartCluster claims').1.symm) other)
    (fun o ip ip' claims claims' =>
      (claims_restartCluster claims).2.trans (claims_restartCluster claims').2.symm)
    waitAndReconcile waits
  -- The allocation is the last turn of this run.
  have split : waitAndReconcile = waitAndReconcile.take 10 ++
      [.advance (.worker ⟨.service, "default/web"⟩) .plain] := rfl
  rw [split, along_append] at kept
  have seen : s.cluster.view "rivora" true ⟨.gateway, "default/edge"⟩ =
      some ⟨true, false, "", ["10.0.0.1"]⟩ := by decide +kernel
  exact ⟨given, kept.2.1 _ _ given _ _ (by decide) seen rfl _ (by decide)⟩

/-- A Service that does not wait for the Gateways to be reserved is given the Gateway's address. -/
theorem early_service_takes_recorded_address :
    let s := run Controller.step (.start "rivora" true restartCluster)
      (List.replicate 3 (.advance .main .plain) ++ [.begin ⟨.service, "default/web"⟩,
        .advance (.worker ⟨.service, "default/web"⟩) .plain])
    s.allocated (.advance (.worker ⟨.service, "default/web"⟩) .plain) =
        some (⟨.service, "default/web"⟩, "10.0.0.1") ∧
      (s.cluster.view "rivora" true ⟨.gateway, "default/edge"⟩).any
        (fun v => v.live && v.recorded.contains "10.0.0.1") = true := by
  decide +kernel

end Example

end Rivora.Ipam

import Rivora.Ipam.AllocatorLaws
import Rivora.Ipam.Controller
import Rivora.Lib.Run

/-! What the address controller keeps, whatever the order of turns. -/

namespace Rivora.Ipam

variable {ν σ : Type} {key ip : String} {o : Owner}

open Interaction

section Views

/-- What matters here about an object of either kind. -/
structure View where
  managed : Bool
  deleting : Bool
  pinnedIP : String
  status : List String
  deriving DecidableEq

/-- A Service as this controller sees it. -/
def Object.serviceView (lbClass : String) (svc : Service) : View :=
  ⟨svc.spec.managed lbClass, svc.deleting, svc.spec.loadBalancerIP, svc.status⟩

/-- A Gateway as this controller sees it. -/
def Object.gatewayView (managed : Bool) (gw : Gateway) : View :=
  ⟨managed, gw.deleting, gw.spec.pinnedIP, gw.status⟩

/-- An object as this controller sees it; without the Gateway API no Gateway is managed. -/
def Cluster.view (lbClass : String) (api : Bool) (c : Cluster) (o : Owner) : Option View :=
  match o.kind with
  | .service => (c.services.get? o.key).map (Object.serviceView lbClass)
  | .gateway => (c.gateways.get? o.key).map fun gw =>
    gw.gatewayView (api && c.managedGatewayClass gw.spec.gatewayClassName)

variable {lbClass : String} {api : Bool} {c : Cluster}

theorem get?_updateKey (m : FMap String ν) (key key' : String) (f : ν → Option ν) :
    (updateKey m key f).get? key' = if key' = key then (m.get? key).bind f else m.get? key' := by
  unfold updateKey
  split
  · rename_i missing
    by_cases same : key' = key
    · simp [same, missing]
    · simp [same]
  · rename_i v found
    split
    · rename_i gone
      simp [FMap.get?_erase, found, gone]
    · rename_i v' kept
      simp [FMap.get?_insert, found, kept]

theorem managedGatewayClass_setStatus (o : Owner) (ip className : String) :
    (c.setStatus o ip).managedGatewayClass className = c.managedGatewayClass className := by
  unfold Cluster.setStatus
  split <;> rfl

theorem managedGatewayClass_setFinalizers (o : Owner) (finalizers : List String) (className : String) :
    (c.setFinalizers o finalizers).managedGatewayClass className = c.managedGatewayClass className := by
  unfold Cluster.setFinalizers
  split <;> rfl

/-- A new status is seen in its object alone. -/
theorem view_setStatus (o o' : Owner) (ip : String) :
    (c.setStatus o ip).view lbClass api o' =
      if o' = o then (c.view lbClass api o).map fun v => { v with status := [ip] }
      else c.view lbClass api o' := by
  obtain ⟨kind, key⟩ := o
  obtain ⟨kind', key'⟩ := o'
  simp only [Cluster.view, managedGatewayClass_setStatus]
  by_cases same : key' = key
  · subst same
    cases kind <;> cases kind'
    · cases found : c.services.get? key' <;>
        simp [Cluster.setStatus, get?_updateKey, found, Object.serviceView]
    · rfl
    · rfl
    · cases found : c.gateways.get? key' <;>
        simp [Cluster.setStatus, get?_updateKey, found, Object.gatewayView]
  · -- An object under another key is read from an entry that did not change.
    cases kind <;> cases kind' <;> simp [Cluster.setStatus, get?_updateKey, same]

/-- So are new finalizers. -/
theorem view_setFinalizers (o o' : Owner) (finalizers : List String) :
    (c.setFinalizers o finalizers).view lbClass api o' =
      if o' = o then
        (c.view lbClass api o).filter fun v => !(v.deleting && finalizers.isEmpty)
      else c.view lbClass api o' := by
  obtain ⟨kind, key⟩ := o
  obtain ⟨kind', key'⟩ := o'
  simp only [Cluster.view, managedGatewayClass_setFinalizers]
  by_cases same : key' = key
  · subst same
    cases kind <;> cases kind'
    · cases found : c.services.get? key' with
      | none => simp [Cluster.setFinalizers, get?_updateKey, found]
      | some svc =>
        cases deleting : svc.deleting <;> cases finalizers <;>
          simp [Cluster.setFinalizers, get?_updateKey, found, Object.serviceView, Object.withFinalizers,
            deleting, Option.filter]
    · rfl
    · rfl
    · cases found : c.gateways.get? key' with
      | none => simp [Cluster.setFinalizers, get?_updateKey, found]
      | some gw =>
        cases deleting : gw.deleting <;> cases finalizers <;>
          simp [Cluster.setFinalizers, get?_updateKey, found, Object.gatewayView, Object.withFinalizers,
            deleting, Option.filter]
  · cases kind <;> cases kind' <;> simp [Cluster.setFinalizers, get?_updateKey, same]

end Views

section Discipline

/-- Two texts are the same, or are texts of one address. -/
def SameAddress (ip ip' : String) : Prop :=
  ip = ip' ∨ ∃ addr, Netip.parseAddr ip = some addr ∧ Netip.parseAddr ip' = some addr

/-- Two objects are never given one address in two spellings. -/
theorem not_sameAddress {a : Allocator} (backed : a.Backed) (spelled : a.Spelled) {key' ip' : String}
    (has : a.ownerAddr.get? key = some ip) (has' : a.ownerAddr.get? key' = some ip') (other : key ≠ key') :
    ¬ SameAddress ip ip' := by
  intro same
  have equal : ip = ip' := by
    cases same with
    | inl text => exact text
    | inr denoted =>
      obtain ⟨addr, left, right⟩ := denoted
      exact (spelled.owned ip key (backed key ip has)).unique
        (spelled.owned ip' key' (backed key' ip' has')) left right
  subst equal
  exact other (backed.owner_unique has has')

theorem canonical_empty : Canonical "" := by
  intro a read
  cases read

/-- The texts of an object are canonical. -/
def View.Written (v : View) : Prop := Canonical v.pinnedIP ∧ ∀ ip ∈ v.status, Canonical ip

/-- The assigned address is the first in the status that is not empty. -/
theorem Object.assignedIP_cases (obj : Object σ) :
    (obj.assignedIP = "" ∧ ∀ ip ∈ obj.status, ip = "") ∨ (obj.assignedIP ≠ "" ∧ obj.assignedIP ∈ obj.status) := by
  unfold assignedIP
  cases found : obj.status.find? (· ≠ "") with
  | none =>
    refine Or.inl ⟨rfl, fun ip member => ?_⟩
    simpa using List.find?_eq_none.mp found ip member
  | some ip =>
    refine Or.inr ⟨?_, List.mem_of_find?_eq_some found⟩
    simpa using List.find?_some found

theorem Object.canonical_assignedIP {obj : Object σ} (written : ∀ ip ∈ obj.status, Canonical ip) :
    Canonical obj.assignedIP := by
  rcases obj.assignedIP_cases with ⟨unrecorded, _⟩ | ⟨_, member⟩
  · rw [unrecorded]
    exact canonical_empty
  · exact written _ member

/-- Services whose names are those of Services and whose texts are canonical. -/
def TidyServices (names : String → Kind) (listed : List (String × Service)) : Prop :=
  ∀ entry ∈ listed, names entry.1 = .service ∧ (entry.2.serviceView "").Written

/-- Gateways whose names are those of Gateways and whose texts are canonical. -/
def TidyGateways (names : String → Kind) (listed : List (String × Gateway)) : Prop :=
  ∀ entry ∈ listed, names entry.1 = .gateway ∧ (entry.2.gatewayView false).Written

/--
Calls about objects whose names are of one kind, with canonical texts.

What the cluster answers about such objects is canonical as well.
-/
def tidy (names : String → Kind) : Spec Request.Reply Unit where
  may _ r := match r with
    | .reserve o ip => names o.key = o.kind ∧ Canonical ip
    | .allocate o _ pinnedIP => names o.key = o.kind ∧ Canonical pinnedIP
    | .release o => names o.key = o.kind
    | .patchStatus _ ip => Canonical ip
    | _ => True
  answers _ r reply _ := match r, reply with
    | .getService _, reply => ∀ svc, reply = .found svc → (svc.serviceView "").Written
    | .getGateway _, reply => ∀ gw, reply = .found gw → (gw.gatewayView false).Written
    | .listServices, reply => TidyServices names reply
    | .listGateways, reply => TidyGateways names reply
    | .allocate _ _ _, reply => ∀ ip, reply = .ok ip → Canonical ip
    | _, _ => True

variable {names : String → Kind}

/-- A reconcile asks for canonical addresses only. -/
theorem reconcileFound_tidy (obj : Object σ) (managed : Bool) {pinnedIP : String}
    (named : names o.key = o.kind) (canonical : Canonical pinnedIP) :
    (reconcileFound o obj managed pinnedIP).Meets (tidy names) (fun _ _ => True) () := by
  unfold reconcileFound
  split
  · split
    · exact .bind (.ask named fun _ _ _ => .ask trivial fun _ _ _ => trivial)
    · trivial
  · split
    · exact .ask trivial fun _ _ _ => trivial
    · -- The address that is recorded is the one the allocator answered.
      refine .bind (.ask ⟨named, canonical⟩ fun (r : Except String String) _ answered => ?_)
      cases r with
      | error e => trivial
      | ok ip =>
        show Prog.Meets _ _ (if _ then _ else _) _
        split
        · trivial
        · exact .ask (answered ip rfl) fun _ _ _ => trivial

theorem reconcile_tidy (lbClass : String) (named : names o.key = o.kind) :
    (reconcile lbClass o).Meets (tidy names) (fun _ _ => True) () := by
  obtain ⟨kind, key⟩ := o
  cases kind with
  | service =>
    refine .bind (.ask trivial fun (r : Fetched Service) _ answered => ?_)
    cases r with
    | notFound => exact .bind (.ask named fun _ _ _ => trivial)
    | failed e => trivial
    | found svc => exact reconcileFound_tidy svc _ named (answered svc rfl).1
  | gateway =>
    refine .bind (.ask trivial fun (r : Fetched Gateway) _ answered => ?_)
    cases r with
    | notFound => exact .bind (.ask named fun _ _ _ => trivial)
    | failed e => trivial
    | found gw =>
      refine .bind (.ask trivial fun (managed : Bool) _ _ => ?_)
      exact reconcileFound_tidy gw managed named (answered gw rfl).1

theorem reserveAssigned_tidy {obj : Object σ} (managed : Bool)
    (named : names o.key = o.kind) (written : ∀ ip ∈ obj.status, Canonical ip) :
    (reserveAssigned o obj managed).Meets (tidy names) (fun _ _ => True) () := by
  unfold reserveAssigned
  split
  · trivial
  · exact .bind (.ask ⟨named, Object.canonical_assignedIP written⟩ fun _ _ _ => trivial)

theorem reserveServices_tidy (lbClass : String) {listed : List (String × Service)}
    (tidied : TidyServices names listed) :
    (reserveServices lbClass listed).Meets (tidy names) (fun _ _ => True) () := by
  induction listed with
  | nil => trivial
  | cons entry rest ih =>
    obtain ⟨named, written⟩ := tidied entry List.mem_cons_self
    have later := ih fun entry member => tidied entry (List.mem_cons_of_mem _ member)
    exact .bind ((reserveAssigned_tidy _ named written.2).mono fun _ _ _ => later)

theorem reserveGateways_tidy {listed : List (String × Gateway)} (tidied : TidyGateways names listed) :
    (reserveGateways listed).Meets (tidy names) (fun _ _ => True) () := by
  induction listed with
  | nil => trivial
  | cons entry rest ih =>
    obtain ⟨named, written⟩ := tidied entry List.mem_cons_self
    have later := ih fun entry member => tidied entry (List.mem_cons_of_mem _ member)
    refine .bind (.ask trivial fun (managed : Bool) _ _ => ?_)
    exact .bind ((reserveAssigned_tidy managed named written.2).mono fun _ _ _ => later)

/-- So does the start-up. -/
theorem startUp_tidy (lbClass : String) (api : Bool) :
    (startUp lbClass api).Meets (tidy names) (fun _ _ => True) () := by
  refine .bind (.ask trivial fun _ _ _ => .bind ?_)
  refine .ask trivial fun (services : List (String × Service)) _ answered => .bind ?_
  refine (reserveServices_tidy lbClass answered).mono fun _ _ _ => .bind (.ask trivial fun _ _ _ => ?_)
  cases api with
  | false => trivial
  | true =>
    refine .bind (.ask trivial fun (gateways : List (String × Gateway)) _ answered => .bind ?_)
    exact (reserveGateways_tidy answered).mono fun _ _ _ => .bind (.ask trivial fun _ _ _ => trivial)

/-- The objects of a cluster have names of their kind and canonical texts. -/
def Cluster.Tidy (names : String → Kind) (c : Cluster) : Prop :=
  ∀ o v, c.view "" false o = some v → names o.key = o.kind ∧ v.Written

/-- What holds of the controller, given that names are of one kind and texts canonical. -/
structure Controller.Sound (names : String → Kind) (s : Controller) : Prop where
  cluster : s.cluster.Tidy names
  backed : s.allocator.Backed
  spelled : s.allocator.Spelled
  /-- What an object was given is still assigned to it. -/
  given : ∀ o ip, s.holds.get? o = some ip →
    names o.key = o.kind ∧ s.allocator.ownerAddr.get? o.key = some ip

section Answers

variable {c : Cluster} {s : Controller}

theorem Cluster.Tidy.setStatus (tidied : c.Tidy names) (o : Owner) (canonical : Canonical ip) :
    (c.setStatus o ip).Tidy names := by
  intro o' v seen
  rw [view_setStatus] at seen
  split at seen
  · rename_i same
    subst same
    obtain ⟨v', seen', rfl⟩ := Option.map_eq_some_iff.mp seen
    obtain ⟨named, pinned, _⟩ := tidied o' v' seen'
    exact ⟨named, pinned, by simpa using canonical⟩
  · exact tidied o' v seen

theorem Cluster.Tidy.setFinalizers (tidied : c.Tidy names) (o : Owner) (finalizers : List String) :
    (c.setFinalizers o finalizers).Tidy names := by
  intro o' v seen
  rw [view_setFinalizers] at seen
  split at seen
  · rename_i same
    subst same
    exact tidied o' v (Option.filter_eq_some_iff.mp seen).1
  · exact tidied o' v seen

theorem Cluster.Tidy.service (tidied : c.Tidy names) {svc : Service}
    (found : c.services.get? key = some svc) :
    names key = .service ∧ (svc.serviceView "").Written :=
  tidied ⟨.service, key⟩ _ (by simp [Cluster.view, found])

theorem Cluster.Tidy.gateway (tidied : c.Tidy names) {gw : Gateway}
    (found : c.gateways.get? key = some gw) :
    names key = .gateway ∧ (gw.gatewayView false).Written :=
  tidied ⟨.gateway, key⟩ _ (by simp [Cluster.view, found])

theorem Cluster.Tidy.named (tidied : c.Tidy names) {lbClass : String} {api : Bool} {v : View}
    (seen : c.view lbClass api o = some v) : names o.key = o.kind := by
  obtain ⟨kind, key⟩ := o
  cases kind with
  | service =>
    obtain ⟨svc, found, _⟩ := Option.map_eq_some_iff.mp seen
    exact (tidied.service found).1
  | gateway =>
    obtain ⟨gw, found, _⟩ := Option.map_eq_some_iff.mp seen
    exact (tidied.gateway found).1

theorem fetch_found {m : FMap String ν} {outcome : Outcome} {v : ν}
    (found : fetch m key outcome = .found v) : m.get? key = some v := by
  unfold fetch at found
  split at found
  · cases found
  · cases found
  · rename_i stored
    cases found
    exact stored

theorem owner_of_key {o' : Owner} (named : names o.key = o.kind) (named' : names o'.key = o'.kind)
    (same : o.key = o'.key) : o = o' := by
  have kinds : o.kind = o'.kind := by rw [← named, ← named', same]
  cases o
  cases o'
  simp_all

/-- An address given to an object keeps the books sound. -/
theorem Controller.Sound.give (sound : s.Sound names) (named : names o.key = o.kind)
    {a' : Allocator} (assigned : s.allocator.Assigned o.key ip a') (canonical : Canonical ip) :
    ({ s with allocator := a', holds := s.holds.insert o ip } : Controller).Sound names := by
  refine ⟨sound.cluster, sound.backed.assigned assigned, sound.spelled.assigned assigned canonical, ?_⟩
  intro o' ip' held
  rw [FMap.get?_insert] at held
  rw [assigned.ownerAddr, FMap.get?_insert]
  split at held
  · rename_i same
    subst same
    exact ⟨named, by simpa using held⟩
  · rename_i other
    obtain ⟨named', has⟩ := sound.given o' ip' held
    have apart : o'.key ≠ o.key := fun same => other (owner_of_key named' named same)
    exact ⟨named', by rw [if_neg apart]; exact has⟩

/-- A patch takes effect or does nothing. -/
theorem Controller.patch_cases (s : Controller) (o : Owner) (outcome : Outcome) (c : Cluster) :
    (s.patch o outcome c).2 = s ∨ (s.patch o outcome c).2 = { s with cluster := c } := by
  unfold Controller.patch
  split
  · exact .inl rfl
  · split
    · exact .inr rfl
    · dsimp only
      split
      · exact .inr rfl
      · exact .inl rfl

theorem Controller.Sound.patch (sound : s.Sound names) {outcome : Outcome} {c : Cluster}
    (tidied : c.Tidy names) : (s.patch o outcome c).2.Sound names := by
  rcases s.patch_cases o outcome c with same | written
  · rw [same]
    exact sound
  · rw [written]
    exact ⟨tidied, sound.backed, sound.spelled, sound.given⟩

theorem parsedPools_poolsOf (pools : List AddressPool) : Allocator.ParsedPools (poolsOf pools) := by
  -- Each pool that is added is parsed, in front of those that were added before.
  refine List.foldlRecOn pools _ (fun _ _ found => by cases found) ?_
  intro known parsed pool _
  split
  · exact parsed
  · rename_i expanded expansion
    intro name spec found
    rw [FMap.get?_insert] at found
    split at found
    · cases found
      exact ⟨_, _, expanded, expansion, rfl, rfl⟩
    · exact parsed name spec found

/-- The answer to a permitted request keeps the books sound. -/
theorem Controller.Sound.answer (sound : s.Sound names) (outcome : Outcome) {r : Request}
    (permitted : (tidy names).may () r) :
    (Controller.answer outcome r s).2.Sound names ∧
      (tidy names).answers () r (Controller.answer outcome r s).1 () := by
  cases r with
  | getService key => exact ⟨sound, fun svc found => (sound.cluster.service (fetch_found found)).2⟩
  | getGateway key => exact ⟨sound, fun gw found => (sound.cluster.gateway (fetch_found found)).2⟩
  | listServices =>
    refine ⟨sound, fun entry member => ?_⟩
    exact sound.cluster.service (FMap.get?_eq_some.mpr member)
  | listGateways =>
    refine ⟨sound, fun entry member => ?_⟩
    exact sound.cluster.gateway (FMap.get?_eq_some.mpr member)
  | managedGatewayClass className => exact ⟨sound, trivial⟩
  | patchFinalizers o finalizers => exact ⟨sound.patch (sound.cluster.setFinalizers o finalizers), trivial⟩
  | patchStatus o ip => exact ⟨sound.patch (sound.cluster.setStatus o permitted), trivial⟩
  | reserve o ip =>
    refine ⟨?_, trivial⟩
    simp only [Controller.answer]
    rcases s.allocator.reserves outcome.chance ip o.key with ⟨e, owner, _, _, refused⟩ | ⟨a', ok, assigned⟩
    · rw [refused]
      exact sound
    · rw [ok]
      exact sound.give permitted.1 assigned permitted.2
  | allocate o preferredPool pinnedIP =>
    simp only [Controller.answer]
    have outcomes := s.allocator.allocates outcome.chance o.key preferredPool pinnedIP
    generalize s.allocator.allocate outcome.chance o.key preferredPool pinnedIP = result at outcomes
    cases outcomes with
    | held ip has =>
      have canonical := sound.spelled.owned ip o.key (sound.backed o.key ip has)
      refine ⟨⟨sound.cluster, sound.backed, sound.spelled, fun o' ip' held => ?_⟩, ?_⟩
      · -- The object is told the address it has.
        rw [FMap.get?_insert] at held
        split at held
        · rename_i same
          cases held
          exact ⟨same ▸ permitted.1, same ▸ has⟩
        · exact sound.given o' ip' held
      · rintro ip' ⟨⟩
        exact canonical
    | refused e lacks => exact ⟨sound, fun ip told => by cases told⟩
    | assigned ip a' lacks assigned offered =>
      have canonical := sound.spelled.offered permitted.2 offered
      refine ⟨sound.give permitted.1 assigned canonical, ?_⟩
      rintro ip' ⟨⟩
      exact canonical
  | release o =>
    refine ⟨⟨sound.cluster, sound.backed.release o.key, sound.spelled.release o.key, ?_⟩, trivial⟩
    intro o' ip' held
    simp only [Controller.answer] at held ⊢
    rw [FMap.get?_erase] at held
    split at held
    · cases held
    · rename_i other
      obtain ⟨named', has⟩ := sound.given o' ip' held
      have apart : o'.key ≠ o.key := fun same => other (owner_of_key named' permitted same)
      refine ⟨named', ?_⟩
      rw [Allocator.release_ownerAddr, if_neg apart]
      exact has
  | reconcilePools =>
    refine ⟨⟨sound.cluster, sound.backed, ?_, sound.given⟩, trivial⟩
    exact ⟨parsedPools_poolsOf _, sound.spelled.owned⟩
  | startWorkers kind => exact ⟨⟨sound.cluster, sound.backed, sound.spelled, sound.given⟩, trivial⟩

end Answers

/-- Others keep to the discipline as well, and no object of another kind is taken up under a name. -/
def Turn.Tidy (names : String → Kind) : Turn → Prop
  | .begin o => names o.key = o.kind
  | .change (.service key (some svc)) => names key = .service ∧ (svc.serviceView "").Written
  | .change (.gateway key (some gw)) => names key = .gateway ∧ (gw.gatewayView false).Written
  | _ => True

/-- The programs in progress keep to the discipline. -/
def Controller.Disciplined (names : String → Kind) (s : Controller) : Prop :=
  ∀ t p, s.left t = some p → p.Meets (tidy names) (fun _ _ => True) ()

section Runs

variable {s : Controller}

theorem Controller.Sound.setLeft (sound : s.Sound names) (t : Thread)
    (left : Option (Program (Except String Unit))) : (s.setLeft t left).Sound names :=
  ⟨sound.cluster, sound.backed, sound.spelled, sound.given⟩

/-- An answer leaves the programs as they are. -/
theorem Controller.answer_keeps (outcome : Outcome) (r : Request) (s : Controller) :
    (Controller.answer outcome r s).2.left = s.left ∧ (Controller.answer outcome r s).2.lbClass = s.lbClass := by
  have patched : ∀ o c, (s.patch o outcome c).2.left = s.left ∧ (s.patch o outcome c).2.lbClass = s.lbClass := by
    intro o c
    rcases s.patch_cases o outcome c with same | written
    · rw [same]
      exact ⟨rfl, rfl⟩
    · rw [written]
      exact ⟨rfl, rfl⟩
  cases r with
  | patchFinalizers o finalizers => exact patched _ _
  | patchStatus o ip => exact patched _ _
  | _ => exact ⟨rfl, rfl⟩

theorem Controller.Disciplined.setLeft (disciplined : s.Disciplined names) {s' : Controller}
    (same : s'.left = s.left) {t : Thread} {left : Option (Program (Except String Unit))}
    (mine : ∀ p, left = some p → p.Meets (tidy names) (fun _ _ => True) ()) :
    (s'.setLeft t left).Disciplined names := by
  intro t' p isLeft
  by_cases this : t' = t
  · subst this
    exact mine p (by simpa [Controller.setLeft] using isLeft)
  · refine disciplined t' p ?_
    simpa [Controller.setLeft, this, same] using isLeft

theorem get?_setKey (m : FMap String ν) (key key' : String) (v : Option ν) :
    (setKey m key v).get? key' = if key' = key then v else m.get? key' := by
  cases v <;> simp [setKey, FMap.get?_insert, FMap.get?_erase]

theorem Cluster.Tidy.change {c : Cluster} (tidied : c.Tidy names) {change : Change}
    (kept : (Turn.change change).Tidy names) : (c.change change).Tidy names := by
  rintro ⟨kind, key⟩ v seen
  have old := tidied ⟨kind, key⟩ v
  cases change with
  | service key' svc =>
    cases kind with
    | gateway => exact old seen
    | service =>
      simp only [Cluster.change, Cluster.view, get?_setKey] at seen old
      split at seen
      · obtain ⟨svc, rfl, rfl⟩ := Option.map_eq_some_iff.mp seen
        subst key
        exact kept
      · exact old seen
  | gateway key' gw =>
    cases kind with
    | service => exact old seen
    | gateway =>
      simp only [Cluster.change, Cluster.view, get?_setKey, Bool.false_and] at seen old
      split at seen
      · obtain ⟨gw, rfl, rfl⟩ := Option.map_eq_some_iff.mp seen
        subst key
        exact kept
      · exact old seen
  | classes classes =>
    refine old ?_
    cases kind <;> simpa [Cluster.change, Cluster.view] using seen
  | pools pools => exact old seen

/-- One turn keeps the books sound and the programs disciplined. -/
theorem Controller.Sound.step (sound : s.Sound names) (disciplined : s.Disciplined names) {turn : Turn}
    (kept : turn.Tidy names) : (s.step turn).Sound names ∧ (s.step turn).Disciplined names := by
  cases turn with
  | begin o =>
    simp only [Controller.step]
    split
    · refine ⟨sound.setLeft _ _, disciplined.setLeft rfl ?_⟩
      rintro p ⟨⟩
      exact reconcile_tidy _ kept
    · exact ⟨sound, disciplined⟩
  | advance t outcome =>
    simp only [Controller.step]
    cases left : s.left t with
    | none => exact ⟨sound, disciplined⟩
    | some p =>
      cases p with
      | done r => exact ⟨sound.setLeft _ _, disciplined.setLeft rfl nofun⟩
      | call r next =>
        -- The call is permitted, and the program goes on with an answer of the expected kind.
        obtain ⟨permitted, goesOn⟩ := disciplined t _ left
        obtain ⟨sound', answered⟩ := sound.answer outcome permitted
        refine ⟨sound'.setLeft _ _, disciplined.setLeft (answer_keeps outcome r s).1 ?_⟩
        rintro p ⟨⟩
        exact goesOn _ _ answered
  | syncPools =>
    simp only [Controller.step]
    split
    · refine ⟨⟨sound.cluster, sound.backed, ?_, sound.given⟩, disciplined⟩
      exact ⟨parsedPools_poolsOf _, sound.spelled.owned⟩
    · exact ⟨sound, disciplined⟩
  | change c => exact ⟨⟨sound.cluster.change kept, sound.backed, sound.spelled, sound.given⟩, disciplined⟩

/-- The controller starts with sound books. -/
theorem Controller.sound_start (lbClass : String) (api : Bool) {cluster : Cluster}
    (tidied : cluster.Tidy names) :
    (Controller.start lbClass api cluster).Sound names ∧
      (Controller.start lbClass api cluster).Disciplined names := by
  refine ⟨⟨tidied, Allocator.backed_new, Allocator.spelled_new, ?_⟩, ?_⟩
  · intro o ip held
    cases held
  · intro t p left
    simp only [Controller.start] at left
    split at left
    · cases left
      exact startUp_tidy lbClass api
    · cases left

end Runs

end Discipline

end Rivora.Ipam

import Rivora.Dataplane.Adopt
import Rivora.Proofs.Progress
import Rivora.Proofs.Recorded

/-! Runs computed on the control state alone. -/

namespace Rivora

variable {op : Op} {env : Env} {q : Dataplane} {n : Node}

/-- An environment in which no write fails and a map is walked in the order of its entries. -/
def calm : Env := ⟨fun _ _ => none, fun _ keys => keys, fun _ _ => List.Perm.refl _⟩

theorem calm_reliable : calm.Reliable := fun _ ⟨_, fails⟩ => fails rfl

instance (v w : VIP) : Decidable (v.Compatible w) :=
  decidable_of_iff
    ((parseAddr v.address = parseAddr w.address → protoByte v.protocol = protoByte w.protocol →
        v.address = w.address ∧ v.protocol = w.protocol) ∧
      (v.address = w.address → v.protocol = w.protocol → v.isRange = true → w.isRange = true →
        (v.port = w.port ∧ v.portEnd = w.portEnd) ∨ v.portEnd < w.port ∨ w.portEnd < v.port))
    ⟨fun ⟨spelling, apart⟩ => ⟨spelling, apart⟩, fun ⟨spelling, apart⟩ => ⟨spelling, apart⟩⟩

/-- The control state after an operation, where it can be told without a table that nothing fails. -/
def Op.rehearse (p : Dataplane) : Op → Option Dataplane
  | .upsertVIP spec =>
    if Fits p spec ∧ ∀ entry ∈ p.services.entries, entry.2.vip.Compatible spec then
      some (p.upserted calm spec)
    else none
  -- These program several VIPs, each of which would have to fit in turn.
  | .reloadVIPs _ | .setBackendWeight _ _ _ => none
  | op =>
    match op.outcome calm p with
    | (.ok _, s) => some s.plane
    | (.error _, _) => none

/-- The control state after several operations. -/
def rehearse : Dataplane → List Op → Option Dataplane
  | p, [] => some p
  | p, op :: rest => (op.rehearse p).bind fun q => rehearse q rest

/-- Operations in an environment in which nothing fails. -/
def calmly (ops : List Op) : List Event := ops.map fun op => .op op calm

theorem Node.run_calmly_snoc (n : Node) (ops : List Op) (op : Op) :
    n.run (calmly (ops ++ [op])) = (n.run (calmly ops)).step (.op op calm) := by
  unfold Node.run calmly
  rw [List.map_append, Run.run_append]
  rfl

theorem Op.Begins.single {p : Dataplane} {part only : Part}
    (single : ∀ parts, op.Consists p parts → parts = [only]) (begins : op.Begins env p q part) :
    part = only ∧ q = p := by
  obtain ⟨ran, rest, s, consists, rans, rfl⟩ := begins
  have parts := single _ consists
  -- Nothing can have run before the only part there is.
  cases ran with
  | nil =>
    cases rans with
    | done same => exact ⟨(List.cons.inj parts).1, same.plane⟩
  | cons first later =>
    have length := congrArg List.length parts
    simp only [List.map_cons, List.cons_append, List.length_cons, List.length_append,
      List.length_nil] at length
    omega

theorem Clean.of_no_upsert (reliable : env.Reliable)
    (succeeds : op.Succeeds env n.plane)
    (none : ∀ parts, op.Consists n.plane parts → ∀ spec, .upsert spec ∉ parts) :
    Clean n (.op op env) := by
  refine ⟨reliable, succeeds, ?_⟩
  rintro q spec ⟨ran, rest, s, consists, _⟩
  exact absurd (List.mem_append_right _ List.mem_cons_self) (none _ consists spec)

theorem Node.upsert_fits {leak : String → Nat} (owned : Owned leak n.plane) {spec : VIP}
    (fits : Fits n.plane spec) (reliable : env.Reliable) :
    (Op.upsertVIP spec).Succeeds env n.plane ∧
      Owned leak (n.step (.op (.upsertVIP spec) env)).plane ∧
      (n.step (.op (.upsertVIP spec) env)).plane = n.plane.upserted env spec := by
  obtain ⟨s', run⟩ := upsertVIP_of_fits (s := ⟨n.plane, [], 0⟩) owned fits reliable
  have outcome : (Op.upsertVIP spec).outcome env n.plane = (.ok (), s') := run
  have plane : (n.step (.op (.upsertVIP spec) env)).plane = s'.plane := by
    rw [Node.step, Node.after, outcome]
  obtain ⟨f, ip, ws, ws', up, _⟩ := upsertVIP_ok owned run
  refine ⟨by rw [Op.Succeeds, outcome], plane ▸ up.owned, ?_⟩
  rw [plane]
  exact upsertVIP_plane owned run

theorem Op.rehearse_clean (sound : n.Sound)
    (rehearsed : op.rehearse n.plane = some q) :
    Clean n (.op op calm) ∧ (n.step (.op op calm)).plane = q := by
  have owned := sound.imaged.owned
  -- The operations about one backend, and a removal, are computed as they are.
  have direct : (∀ parts, op.Consists n.plane parts → ∀ spec, .upsert spec ∉ parts) →
      (match op.outcome calm n.plane with
        | (.ok _, s) => some s.plane
        | (.error _, _) => none) = some q →
      Clean n (.op op calm) ∧ (n.step (.op op calm)).plane = q := by
    intro none outcome
    cases run : op.outcome calm n.plane with
    | mk result s =>
      rw [run] at outcome
      cases result with
      | error e => cases outcome
      | ok _ =>
        cases outcome
        refine ⟨Clean.of_no_upsert calm_reliable (by rw [Op.Succeeds, run]) none, ?_⟩
        rw [Node.step, Node.after, run]
  cases op with
  | upsertVIP spec =>
    simp only [Op.rehearse] at rehearsed
    split at rehearsed
    · rename_i able
      obtain ⟨fits, beside⟩ := able
      cases rehearsed
      obtain ⟨succeeds, _, plane⟩ := Node.upsert_fits owned fits calm_reliable
      refine ⟨⟨calm_reliable, succeeds, ?_⟩, plane⟩
      intro q spec' begins k e found
      have sole : ∀ parts, (Op.upsertVIP spec).Consists n.plane parts → parts = [.upsert spec] :=
        fun _ consists => consists
      obtain ⟨same, rfl⟩ := begins.single sole
      cases same
      exact beside (k, e) (FMap.get?_eq_some.mp found)
    · cases rehearsed
  | removeVIP key =>
    refine direct ?_ rehearsed
    rintro _ rfl spec member
    cases List.mem_singleton.mp member
  | reloadVIPs desired => cases rehearsed
  | setBackendWeight id vipKey weight => cases rehearsed
  | setBackendHealth id healthy =>
    refine direct ?_ rehearsed
    rintro _ rfl spec member
    cases List.mem_singleton.mp member
  | setBackendDraining id draining =>
    refine direct ?_ rehearsed
    rintro _ rfl spec member
    cases List.mem_singleton.mp member
  | setBackendDrainingByKey vipKey backendKey draining =>
    refine direct ?_ rehearsed
    rintro _ (rfl | ⟨id, _, rfl⟩) spec member
    · cases member
    · cases List.mem_singleton.mp member
  | setBackendAdminDraining id draining =>
    refine direct ?_ rehearsed
    rintro _ rfl spec member
    cases List.mem_singleton.mp member

theorem rehearse_run (sound : n.Sound) {ops : List Op}
    (rehearsed : rehearse n.plane ops = some q) :
    Run.Along Node.step Clean n (calmly ops) ∧ (n.run (calmly ops)).Sound ∧
      (n.run (calmly ops)).plane = q := by
  induction ops generalizing n with
  | nil =>
    cases rehearsed
    exact ⟨trivial, sound, rfl⟩
  | cons op rest ih =>
    obtain ⟨q₁, first, later⟩ := Option.bind_eq_some_iff.mp rehearsed
    obtain ⟨clean, plane⟩ := Op.rehearse_clean sound first
    obtain ⟨along, sound', last⟩ := ih (sound.step clean) (plane ▸ later)
    exact ⟨⟨clean, along⟩, sound', last⟩

section Inputs

/-- A node with every optional map and one CPU. -/
def plainNode : NodeConfig := ⟨"eth0", 1, ⟨true, true, true, true, true⟩, none, none⟩

/-- Start-up maps of a node without a node-wide limit. -/
def plainMaps : StartMaps := ⟨.zero, ⟨0, Vector.replicate 16 0⟩, FMap.empty⟩

/-- A backend that is given by its address alone. -/
def plainBackend (address : String) : Backend := ⟨address, 8080, "", 0⟩

/-- A TCP VIP on port 80 in NAT mode, given by its address and its backends' addresses. -/
def plainVIP (address : String) (backends : List String) : VIP where
  address := address
  port := 80
  portEnd := 0
  protocol := .tcp
  mode := .nat
  backends := backends.map plainBackend
  sessionAffinity := .unset
  healthCheck := default
  rateLimit := default
  bgpCommunities := none
  bgpPeers := none

/-- Maps that hold one VIP with one backend, in a range of some size. -/
def leftBehind (size : Nat) : Maps :=
  { Maps.empty .zero plainMaps.tunnelConfig FMap.empty with
    vip := FMap.ofList [(⟨.v4 0x6400000a, htons 80, 6⟩, 0)]
    serviceConfig := fun _ => ⟨1, 0, size, .nat, .none, false⟩
    backend := FMap.ofList [(⟨true, 0⟩, ⟨.v4 0x0200010a, htons 8080, .zero⟩)] }

/-- The walk of these maps in the order of their entries. -/
def leftBehindScan (size : Nat) : Scan (leftBehind size) :=
  ⟨_, List.Perm.refl _, _, List.Perm.refl _⟩

/-- The VIP these maps hold, as it is asked for. -/
def leftBehindVIP : VIP := plainVIP "10.0.0.100" ["10.1.0.2"]

/-- A place and time where nothing is in the way of a packet. -/
def quietContext : Context := ⟨1, 0, 0, true, true, .found⟩

end Inputs

end Rivora

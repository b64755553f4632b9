import Rivora.Proofs.Filed
import Rivora.Proofs.Rehearsal

/-! What an operation does beside the VIP it is about, whether it succeeds or fails. -/

namespace Rivora

variable {k key : String} {e entry : ServiceEntry} {w : MapWrite} {m : Maps} {leak : String → Nat} {spec : VIP}
  {p q : Dataplane} {ws : List MapWrite} {env : Env} {s s' : World} {r : Except GoError Unit}

/-- A write to what a VIP has for itself: the range its table goes to, its parameters, limit, keys and counters. -/
inductive OwnWrite (key : String) (entry : ServiceEntry) (q : Dataplane) : MapWrite → Prop
  | slot {target : Extent} {i id : Nat} (aim : RebuildTarget q entry target) (inside : i ∈ target.slots) :
    OwnWrite key entry q (.setMaglev i id)
  | service {w : MapWrite} (cell : w.cell = .config entry.serviceID ∨ w.cell = .limit entry.serviceID ∨
    w.cell = .drops entry.serviceID) : OwnWrite key entry q w
  | key {w : MapWrite} {vip : VIP} {ip : IP} (named : vipKeyString vip = key)
    (parsed : parseIP vip.address = some ip) (listed : w.cell ∈ vipCells vip ip) : OwnWrite key entry q w

theorem OwnWrite.cell_ne (own : OwnWrite key entry q w) (b : BackendKey) : w.cell ≠ .backend b := by
  intro cell
  cases own with
  | slot => cases cell
  | service this => rcases this with this | this | this <;> cases this.symm.trans cell
  | key _ _ listed => rcases vipCells_kind listed with ⟨_, this⟩ | ⟨_, this⟩ <;> cases this.symm.trans cell

/-- What a VIP has for itself is nobody else's. -/
theorem OwnWrite.apart (own : OwnWrite key entry q w) (owned : Owned leak q)
    (stored : q.services.get? key = some entry) (differ : k ≠ key) (found : q.services.get? k = some e)
    (mine : vipKeyString e.vip = k) (compatible : ∀ v, vipKeyString v = key → e.vip.Compatible v) :
    ¬ e.Owns w.cell := by
  intro owns
  cases own with
  | @slot target i _ aim inside =>
    by_cases grown : entry.Outgrown
    · exact aim.moved grown k e found i owns inside
    · rw [aim.inPlace grown] at inside
      exact owned.tiled.disjoint found stored differ owns inside
  | service cell =>
    have sid : entry.serviceID ≠ e.serviceID := fun same =>
      differ (owned.services.key_unique found stored same.symm)
    rcases cell with cell | cell | cell <;> rw [cell] at owns
    · exact sid owns
    · exact sid owns
    · exact owns
  | key named parsed listed =>
    obtain ⟨ip, parsed', listed'⟩ := owns.key listed
    exact vipCells_disjoint (compatible _ named) (by rw [mine, named]; exact differ) parsed' parsed listed' listed

/-- The writes about backends are in no VIP's own entries. -/
theorem Touch.apart {desired : FMap String Backend} (touch : Touch key desired p q w) : ¬ e.Owns w.cell := by
  intro owns
  rcases touch.cell with ⟨_, cell⟩ | ⟨_, cell⟩ <;> (rw [cell] at owns; exact owns)

theorem Described.frame (described : Described p m)
    (lists : ∀ {k name id}, Lists q k name id → Lists p k name id)
    (elsewhere : ∀ w ∈ ws, ∀ b, w.cell ≠ .backend b) : Described q (replay ws m) := by
  intro k name id listed
  obtain ⟨info, stored, denotes⟩ := described (lists listed)
  have same : (replay ws m).backend.get? ⟨info.addr.isV4, id⟩ = m.backend.get? ⟨info.addr.isV4, id⟩ :=
    replay_agree (c := .backend _) (fun w member => elsewhere w member _) m
  exact ⟨info, same.trans stored, denotes⟩

/-- What a change of one VIP leaves alone: the entries of the others, and that listed backends have theirs. -/
structure Aside (key : String) (p q : Dataplane) (ws : List MapWrite) : Prop where
  dp : q.dp = p.dp
  cpus : q.numCPU = p.numCPU
  others : ∀ k, k ≠ key → q.services.get? k = p.services.get? k
  described : ∀ m, Described p m → Described q (replay ws m)
  apart : ∀ {k e}, k ≠ key → p.services.get? k = some e → vipKeyString e.vip = k →
    (∀ v, vipKeyString v = key → e.vip.Compatible v) → ∀ w ∈ ws, ¬ e.Owns w.cell

theorem Arranged.aside (arranged : Arranged leak spec p q entry ws) : Aside (vipKeyString spec) p q ws where
  dp := by rw [arranged.rest]
  cpus := by rw [arranged.rest]
  others := arranged.others
  described := arranged.described
  apart _ _ _ _ w member owns := by
    rcases arranged.writes w member with ⟨rfl, _⟩ | touch
    · exact owns
    · exact touch.apart owns

/-- After the backends, everything is about the VIP itself. -/
theorem Aside.own {q' : Dataplane} {ws' : List MapWrite} (aside : Aside key p q ws) (owned : Owned leak q)
    (stored : q.services.get? key = some entry) (own : ∀ w ∈ ws', OwnWrite key entry q w)
    (dp : q'.dp = q.dp) (cpus : q'.numCPU = q.numCPU)
    (others : ∀ k, k ≠ key → q'.services.get? k = q.services.get? k)
    (lists : ∀ {k name id}, Lists q' k name id → Lists q k name id) : Aside key p q' (ws ++ ws') where
  dp := dp.trans aside.dp
  cpus := cpus.trans aside.cpus
  others k differ := (others k differ).trans (aside.others k differ)
  described m described := by
    rw [replay_append]
    exact (aside.described m described).frame lists fun w member => (own w member).cell_ne
  apart differ found mine compatible w member := by
    rcases List.mem_append.mp member with early | late
    · exact aside.apart differ found mine compatible w early
    · exact (own w late).apart owned stored differ ((aside.others _ differ).trans found) mine compatible

theorem Built.aside {t u : World} {entry' : ServiceEntry} {ws' : List MapWrite}
    (built : Built spec s.plane t u entry entry' ws')
    (settled : SettledFully leak env spec s.plane t.plane entry ws) :
    Aside (vipKeyString spec) s.plane u.plane (ws ++ ws') := by
  obtain ⟨rest, others, shape⟩ := built.rest
  refine settled.toArranged.aside.own settled.owned settled.entry ?_ (by rw [rest]) (by rw [rest]) others ?_
  · intro w member
    cases built with
    | rebuilt aim table rebuilt moved =>
      obtain ⟨slot, id, name, rfl, inside, _⟩ := mem_tableWrites aim table member
      exact .slot aim inside
    | kept => cases member
  · -- The VIP's entry may have moved to another range, and lists the same backends.
    rintro k name id ⟨e, stored, lists⟩
    by_cases here : k = vipKeyString spec
    · subst here
      cases (built.entry settled).symm.trans stored
      rw [shape] at lists
      exact ⟨entry, settled.entry, lists⟩
    · exact ⟨e, (others k here).symm.trans stored, lists⟩

theorem RebuildStopped.own {desired : FMap String Backend} {t : World}
    (stop : RebuildStopped env desired entry t s') :
    ∃ ws, Logged t s' ws ∧ ∀ w ∈ ws, OwnWrite key entry t.plane w := by
  cases stop with
  | refused logged => exact ⟨[], logged, fun w member => by cases member⟩
  | failed logged aim built before =>
    refine ⟨_, logged, fun w member => ?_⟩
    obtain ⟨slot, id, name, rfl, inside, _⟩ := mem_tableWrites aim built (before.subset member)
    exact .slot aim inside

theorem ProgramStopped.own {vip : VIP} {u : World} (stop : ProgramStopped env entry vip u s') :
    ∃ ws, Logged u s' ws ∧ ∀ w ∈ ws, OwnWrite (vipKeyString vip) entry u.plane w := by
  cases stop with
  | config logged => exact ⟨[], logged, fun w member => by cases member⟩
  | keys logged kinds =>
    refine ⟨_, logged, fun w member => ?_⟩
    rcases List.mem_cons.mp member with rfl | later
    · exact .service (Or.inl rfl)
    · rcases kinds w later with limit | ⟨ip, parsed, written | deleted⟩
      · exact .service (Or.inr (Or.inl (limitWrites_cell limit).1))
      · exact .key rfl parsed (vipWrites_cells vip ip entry.serviceID ▸ List.mem_map_of_mem written)
      · exact .key rfl parsed (vipDeletes_cells vip ip ▸ List.mem_map_of_mem deleted)

/-- An attempt to program a VIP, wherever it stops. -/
theorem upsertVIP_aside (owned : Owned leak s.plane) (run : upsertVIP spec env s = (r, s')) :
    ∃ ws, Logged s s' ws ∧ Aside (vipKeyString spec) s.plane s'.plane ws := by
  have ends := upsertVIP_run spec env owned
  rw [run] at ends
  cases ends with
  | refused reason =>
    exact ⟨[], by simp [Logged], rfl, rfl, fun _ _ => rfl, fun _ described => described,
      fun _ _ _ _ w member => by cases member⟩
  | unsettled arranged logged reason => exact ⟨_, logged, arranged.aside⟩
  | unbuilt settled logged rest tiled stop =>
    obtain ⟨ws', logged', own⟩ := stop.own
    refine ⟨_, logged.trans logged', settled.toArranged.aside.own settled.owned settled.entry own
      (by rw [rest]) (by rw [rest]) (fun _ _ => by rw [rest]) fun listed => ?_⟩
    rw [rest] at listed
    exact listed
  | unprogrammed settled logged built logged' plane stop =>
    obtain ⟨ws', logged'', own⟩ := stop.own
    refine ⟨_, (logged.trans logged').trans logged'', (built.aside settled).own (built.owned settled)
      (built.entry settled) own ?_ ?_ ?_ ?_⟩
    all_goals rw [plane]
    · exact fun _ _ => rfl
    · exact fun listed => listed
  | done =>
    obtain ⟨f, ip, ws, ws', up, logged⟩ := upsertVIP_ok owned run
    refine ⟨_, logged, by rw [up.rest], by rw [up.rest], up.others, fun m described => ?_, ?_⟩
    · rw [upsertWrites, replay_append]
      exact (up.described m described).frame (fun listed => listed) fun w member => (up.later member).1
    · exact fun differ found mine compatible w member =>
        up.apart differ found mine (compatible spec rfl) member

/-- A removal stays aside of other VIPs. -/
theorem Removed.aside {ws₁ ws₂ : List MapWrite} (removed : Removed leak env key entry p q ws₁ ws₂)
    (owned : Owned leak p) (filed : Filed p) (stored : p.services.get? key = some entry) :
    Aside key p q (ws₁ ++ ws₂) where
  dp := by rw [removed.rest]
  cpus := by rw [removed.rest]
  others := removed.others
  described := removed.described
  apart differ found mine compatible w member := by
    rcases List.mem_append.mp member with first | second
    · exact (removed.released w first).apart
    · refine OwnWrite.apart ?_ owned stored differ found mine compatible
      rcases (removed.kinds w second).cell with ⟨ip, parsed, listed⟩ | service
      · -- An entry with an address has been programmed, and so stands under its own key.
        rcases filed key entry stored with unset | named
        · cases unset.symm.trans parsed
        · exact .key named parsed listed
      · exact .service service

/-- A mark writes a health entry at most, and changes backends' states alone. -/
theorem setMark_logged {kind : Mark} {id : Nat} {value : Bool} (owned : BackendsOwned leak s.plane)
    (run : setMark kind id value env s = (r, s')) :
    ∃ ws, Logged s s' ws ∧ s'.plane = { s.plane with backendStates := s'.plane.backendStates } ∧
      ∀ w ∈ ws, w.cell = .health id := by
  rcases setMark_run kind id value env owned with
    ⟨_, same⟩ | ⟨st, t, _, plane, ⟨done, logged⟩ | ⟨⟨_, failed⟩, logged, _⟩⟩
  · cases run.symm.trans same
    exact ⟨[], by simp [Logged], rfl, fun w member => by cases member⟩
  · cases run.symm.trans done
    refine ⟨_, logged, by rw [plane, modifyBackend_rest], fun w member => ?_⟩
    rw [List.mem_singleton.mp member]
    rfl
  · cases run.symm.trans failed
    exact ⟨_, logged, by rw [plane, modifyBackend_rest], fun w member => by cases member⟩

theorem Lists.of_reweighed {name name' : String} {weight id : Nat}
    (lists : Lists (p.reweighed key name weight) k name' id) : Lists p k name' id := by
  by_cases here : k = key
  · subst here
    cases found : p.services.get? k with
    | none =>
      rw [Dataplane.reweighed, Dataplane.modifyEntry, found] at lists
      exact lists
    | some e => exact ⟨e, found, (lists_modifyEntry_self found _).mp lists⟩
  · exact (lists_modifyEntry_of_ne _ here).mp lists

/-- What holds after any operations, whatever failed: who owns what, and an entry for each listed backend. -/
structure Sustained (m : Maps) (s : World) : Prop where
  owned : ∃ leak, Owned leak s.plane
  filed : Filed s.plane
  described : Described s.plane (replay s.writes m)

theorem Sustained.alike (same : s.Alike s') (sustained : Sustained m s) : Sustained m s' := by
  obtain ⟨owned, filed, described⟩ := sustained
  rw [← same.plane] at owned filed
  rw [← same.plane, ← same.writes] at described
  exact ⟨owned, filed, described⟩

/-- Every part of an operation sustains the maps. -/
theorem Sustained.part {part : Part} (sustained : Sustained m s) (run : part.run env s = (r, s')) :
    Sustained m s' := by
  obtain ⟨owned', filed'⟩ := Part.filed sustained.owned sustained.filed run
  obtain ⟨⟨leak, owned⟩, filed, described⟩ := sustained
  refine ⟨owned', filed', ?_⟩
  cases part with
  | upsert spec =>
    obtain ⟨ws, logged, aside⟩ := upsertVIP_aside owned run
    rw [logged, replay_append]
    exact aside.described _ described
  | remove key =>
    have ran : removeVIP key env s = (r, s') := run
    rcases removeVIP_run key env owned with ⟨_, nothing⟩ | ⟨entry, _, ws₁, ws₂, _, done, logged, removed⟩
    · cases ran.symm.trans nothing
      exact described
    · cases ran.symm.trans done
      rw [logged, replay_append]
      exact removed.described _ described
  | reweigh key name weight =>
    have ran : reweighVIP key name weight env s = (r, s') := run
    rw [reweighVIP_eq] at ran
    have reweighed : Owned leak (s.plane.reweighed key name weight) :=
      owned.modifyEntry key (fun _ => rfl) (fun _ => rfl) fun _ => rfl
    obtain ⟨ws, logged, aside⟩ := upsertVIP_aside reweighed ran
    rw [logged, replay_append]
    exact aside.described _ (described.congr Lists.of_reweighed)
  | mark kind id value =>
    obtain ⟨ws, logged, rest, cells⟩ := setMark_logged owned.backends run
    rw [logged, replay_append, rest]
    refine described.frame (fun listed => listed) fun w member b cell => ?_
    cases (cells w member).symm.trans cell

section Runs

variable {n : Node}

/-- A node's control state before an operation has written anything. -/
def Node.world (n : Node) : World := ⟨n.plane, [], 0⟩

/-- So does every event. -/
theorem Sustained.step (sustained : Sustained n.maps n.world) (event : Event) :
    Sustained (n.step event).maps (n.step event).world := by
  cases event with
  | op op env =>
    obtain ⟨leak, owned⟩ := sustained.owned
    have after : Sustained n.maps (op.outcome env n.plane).2 :=
      Op.invariant owned.backends Sustained.alike (fun before _ run _ => before.part run) sustained
    exact ⟨after.owned, after.filed, after.described⟩
  | packet ctx pkt => exact ⟨sustained.owned, sustained.filed, sustained.described⟩

theorem Node.sustained_run (config : NodeConfig) (maps : StartMaps) (events : List Event) :
    Sustained ((Node.start config maps).run events).maps ((Node.start config maps).run events).world := by
  refine Run.invariant (P := fun n : Node => Sustained n.maps n.world) (fun before _ => before.step _) ?_
    (Run.along_of_forall (fun _ _ => trivial : ∀ event ∈ events, True) _)
  exact ⟨⟨_, .new config⟩, fun _ _ found => (by cases found),
    fun _ _ _ lists => (by obtain ⟨_, found, _⟩ := lists; cases found)⟩

/--
The accounts of a node balance after any operations, failed ones among them.

Different VIPs have different service IDs and no slot in common, all of them within their maps. A backend ID
that VIPs list is in range, stands for the same backend in all of them, and has an entry in the backend map
with that backend's address and port.
-/
theorem accounts_balance (config : NodeConfig) (maps : StartMaps) (events : List Event) :
    let n := (Node.start config maps).run events
    (∀ k e, n.plane.services.get? k = some e → e.serviceID < maxVIPs ∧ ∀ slot ∈ e.extent.slots, slot < maglevM) ∧
    (∀ k e k' e', n.plane.services.get? k = some e → n.plane.services.get? k' = some e' → k ≠ k' →
      e.serviceID ≠ e'.serviceID ∧ ∀ slot ∈ e.extent.slots, slot ∉ e'.extent.slots) ∧
    (∀ k name id, Lists n.plane k name id → id < maxBackends ∧
      ∃ info, n.maps.backend.get? ⟨info.addr.isV4, id⟩ = some info ∧ Denotes info name) ∧
    ∀ k name id k' name' id', Lists n.plane k name id → Lists n.plane k' name' id' →
      (name = name' ↔ id = id') := by
  intro n
  obtain ⟨⟨leak, owned⟩, _, described⟩ := Node.sustained_run config maps events
  refine ⟨fun k e found => ⟨owned.services.id_lt found, fun slot => owned.tiled.slot_lt found⟩, ?_, ?_, ?_⟩
  · intro k e k' e' found found' differ
    exact ⟨fun same => differ (owned.services.key_unique found found' same),
      fun slot mine => owned.tiled.disjoint found found' differ mine⟩
  · intro k name id lists
    refine ⟨?_, described lists⟩
    exact owned.backends.capacity ▸ n.plane.backendAlloc.id_lt_max (owned.backends.id_of_lists lists)
  · intro k name id k' name' id' first second
    constructor
    · rintro rfl
      exact Option.some.inj ((owned.backends.id_of_lists first).symm.trans (owned.backends.id_of_lists second))
    · rintro rfl
      exact owned.backends.name_of_id first second

/-- A part of an operation that is not about a VIP, and programs none that would be in its way. -/
def Part.Spares (k : String) (v : VIP) : Part → Prop
  | .upsert spec => vipKeyString spec ≠ k ∧ v.Compatible spec
  | .remove key => key ≠ k
  -- A weight is changed in every VIP that lists the backend.
  | .reweigh _ _ _ => False
  | .mark _ _ _ => True

/-- An event no part of which is about a VIP; every packet is one. -/
def Event.Spares (n : Node) (k : String) (v : VIP) : Event → Prop
  | .op change _ => ∀ parts, change.Consists n.plane parts → ∀ part ∈ parts, part.Spares k v
  | .packet _ _ => True

/-- A VIP that is programmed, among others that are not in its way. -/
structure Spared (k : String) (e : ServiceEntry) (m : Maps) (s : World) : Prop extends Sustained m s where
  found : s.plane.services.get? k = some e
  programmed : Programmed s.plane e (replay s.writes m)
  beside : ∀ k' e', s.plane.services.get? k' = some e' → k' ≠ k →
    ∀ v, vipKeyString v = k' → e.vip.Compatible v

theorem Spared.alike (same : s.Alike s') (spared : Spared k e m s) : Spared k e m s' := by
  obtain ⟨sustained, found, programmed, beside⟩ := spared
  rw [← same.plane] at found beside
  rw [← same.plane, ← same.writes] at programmed
  exact ⟨sustained.alike same, found, programmed, beside⟩

theorem Spared.aside (spared : Spared k e m s) (sustained : Sustained m s') (logged : Logged s s' ws)
    (aside : Aside key s.plane s'.plane ws) (differ : key ≠ k)
    (compatible : ∀ v, vipKeyString v = key → e.vip.Compatible v) : Spared k e m s' := by
  obtain ⟨ip, able, _⟩ := spared.programmed.keys
  have mine : vipKeyString e.vip = k := by
    rcases spared.filed k e spared.found with unset | named
    · cases unset.symm.trans able.address
    · exact named
  refine ⟨sustained, (aside.others k differ.symm).trans spared.found, ?_, ?_⟩
  · rw [logged, replay_append]
    exact spared.programmed.frame aside.dp aside.cpus (aside.apart differ.symm spared.found mine compatible)
  · intro k' e' stored apart
    by_cases here : k' = key
    · subst here
      exact compatible
    · exact spared.beside k' e' ((aside.others k' here).symm.trans stored) apart

/-- Each part that is not about a VIP spares it, also when it fails. -/
theorem Spared.part {part : Part} (spared : Spared k e m s) (spares : part.Spares k e.vip)
    (run : part.run env s = (r, s')) : Spared k e m s' := by
  have sustained := spared.toSustained.part run
  obtain ⟨leak, owned⟩ := spared.owned
  cases part with
  | upsert spec =>
    obtain ⟨ws, logged, aside⟩ := upsertVIP_aside owned run
    exact spared.aside sustained logged aside spares.1 fun v same => spares.2.of_keys rfl same
  | remove key =>
    have ran : removeVIP key env s = (r, s') := run
    rcases removeVIP_run key env owned with ⟨_, nothing⟩ | ⟨entry, _, ws₁, ws₂, stored, done, logged, removed⟩
    · cases ran.symm.trans nothing
      exact spared
    · cases ran.symm.trans done
      exact spared.aside sustained logged (removed.aside owned spared.filed stored) spares
        (spared.beside key entry stored spares)
  | reweigh key name weight => cases spares
  | mark kind id value =>
    obtain ⟨ws, logged, rest, cells⟩ := setMark_logged owned.backends run
    have services : s'.plane.services = s.plane.services := by rw [rest]
    refine ⟨sustained, services ▸ spared.found, ?_, services ▸ spared.beside⟩
    rw [logged, replay_append]
    refine spared.programmed.frame (by rw [rest]) (by rw [rest]) fun w member owns => ?_
    rw [cells w member] at owns
    exact owns

/-- An event about other VIPs spares the VIP. -/
theorem Spared.step {event : Event} (spared : Spared k e n.maps n.world) (spares : event.Spares n k e.vip) :
    Spared k e (n.step event).maps (n.step event).world := by
  have sustained := spared.toSustained.step event
  cases event with
  | op op env =>
    obtain ⟨leak, owned⟩ := spared.owned
    have after : Spared k e n.maps (op.outcome env n.plane).2 := by
      refine Op.invariant owned.backends Spared.alike (fun before begins run _ => ?_) spared
      obtain ⟨ran, rest, _, consists, _⟩ := begins
      exact before.part (spares _ consists _ (List.mem_append_right _ List.mem_cons_self)) run
    exact ⟨sustained, after.found, after.programmed, after.beside⟩
  | packet ctx pkt =>
    -- A packet changes what flows leave behind, of which a VIP owns nothing.
    refine ⟨sustained, spared.found, spared.programmed.congr rfl rfl fun c owns => ?_, spared.beside⟩
    cases c with
    | drops sid => cases owns
    | _ => rfl

/--
What happens to other VIPs does not reach a programmed VIP, whatever fails.

The node started empty, without adopting anything, and may have been through any operations and packets since,
failed ones among them. The operations that follow may fail at any write: as long as they are not about the VIP,
and the VIPs they program share no address and port with it, the VIP keeps its entry and the maps hold
everything that entry says.
-/
theorem faults_stay_contained (config : NodeConfig) (maps : StartMaps) (before after : List Event) {k : String}
    {e : ServiceEntry} {n : Node} (reached : n = (Node.start config maps).run before)
    (found : n.plane.services.get? k = some e) (programmed : Programmed n.plane e n.maps)
    (beside : ∀ k' e', n.plane.services.get? k' = some e' → k' ≠ k →
      ∀ v, vipKeyString v = k' → e.vip.Compatible v)
    (spares : Run.Along Node.step (fun n event => event.Spares n k e.vip) n after) :
    (n.run after).plane.services.get? k = some e ∧ Programmed (n.run after).plane e (n.run after).maps := by
  subst reached
  have start := Spared.mk (Node.sustained_run config maps before) found programmed beside
  have final := Run.invariant (P := fun n : Node => Spared k e n.maps n.world) Spared.step start spares
  exact ⟨final.found, final.programmed⟩

/-- An environment in which no write succeeds. -/
def broken : Env := ⟨fun _ _ => some "no space left on device", fun _ keys => keys, fun _ _ => List.Perm.refl _⟩

/-- One VIP is programmed; then a second one with the same backend cannot be. -/
theorem faults_stay_contained_beside_broken_upsert :
    let n := (Node.start plainNode plainMaps).run (calmly [.upsertVIP (plainVIP "10.0.0.1" ["10.0.1.1"])])
    let n' := n.run [.op (.upsertVIP (plainVIP "10.0.0.2" ["10.0.1.1"])) broken]
    ∃ e, n'.plane.services.get? "10.0.0.1:80:tcp" = some e ∧ Programmed n'.plane e n'.maps := by
  intro n n'
  have rehearsed : (rehearse (.new plainNode) [.upsertVIP (plainVIP "10.0.0.1" ["10.0.1.1"])]).map
      (fun q => q.services.keys) = some ["10.0.0.1:80:tcp"] := by decide +kernel
  obtain ⟨q, planes, keys⟩ := Option.map_eq_some_iff.mp rehearsed
  obtain ⟨_, sound, plane⟩ := rehearse_run (Node.sound_start plainNode plainMaps) planes
  have only : ∀ {k}, k ∈ n.plane.services.keys ↔ k = "10.0.0.1:80:tcp" := by
    intro k
    rw [plane, keys, List.mem_singleton]
  obtain ⟨e, found⟩ := FMap.mem_keys.mp (only.mpr rfl)
  refine ⟨e, faults_stay_contained plainNode plainMaps _ _ rfl found (sound.imaged.programmed found) ?_
    ⟨?_, trivial⟩⟩
  · intro k' e' stored differ
    exact absurd (only.mp (FMap.mem_keys.mpr ⟨e', stored⟩)) differ
  · rintro parts rfl part member
    cases List.mem_singleton.mp member
    have compatible : (plainVIP "10.0.0.1" ["10.0.1.1"]).Compatible (plainVIP "10.0.0.2" ["10.0.1.1"]) := by
      decide +kernel
    exact ⟨by decide, compatible.of_keys ((sound.imaged.keyed found).2.trans (by decide +kernel)) rfl⟩

end Runs

end Rivora

import Rivora.Proofs.Endpoints
import Rivora.Proofs.TableImage

/-! The maps as the image of the control state. -/

namespace Rivora

variable {e : ServiceEntry} {v : VIP} {w : MapWrite} {m : Maps}

/-- The entries of the maps that belong to one VIP. -/
def ServiceEntry.Owns (e : ServiceEntry) : Cell → Prop
  | .config sid | .limit sid => sid = e.serviceID
  | .slot i => i ∈ e.extent.slots
  | .vip key => ∃ ip, parseIP e.vip.address = some ip ∧ .vip key ∈ vipCells e.vip ip
  | .vipRange key => ∃ ip, parseIP e.vip.address = some ip ∧ .vipRange key ∈ vipCells e.vip ip
  | .backend _ | .health _ | .drops _ => False

theorem ServiceEntry.owns_key {ip : IP} (parsed : parseIP e.vip.address = some ip)
    {c : Cell} (listed : c ∈ vipCells e.vip ip) : e.Owns c := by
  rcases vipCells_kind listed with ⟨key, rfl⟩ | ⟨key, rfl⟩
  · exact ⟨ip, parsed, listed⟩
  · exact ⟨ip, parsed, listed⟩

theorem ServiceEntry.Owns.key {ip : IP} {c : Cell} (owns : e.Owns c)
    (listed : c ∈ vipCells v ip) :
    ∃ ip', parseIP e.vip.address = some ip' ∧ c ∈ vipCells e.vip ip' := by
  rcases vipCells_kind listed with ⟨key, rfl⟩ | ⟨key, rfl⟩
  · exact owns
  · exact owns

/-- The maps hold what one VIP's entry says. -/
structure Programmed (p : Dataplane) (e : ServiceEntry) (m : Maps) : Prop where
  config : m.serviceConfig e.serviceID = programmedConfig e.vip e.extent
  limit : ∀ w ∈ limitWrites p e.serviceID e.vip.rateLimit, w.Holds m
  keys : ∃ ip, e.vip.Programmable p ip ∧ ∀ w ∈ vipWrites e.vip ip e.serviceID, w.Holds m
  listed : ∀ name, (desiredBackends e.vip).contains name = true →
    ∃ id, e.backendIDs.get? name = some id
  sized : e.extent.size ∈ maglevSizeClasses
  table : ∃ table, Maglev.buildTable e.extent.size (vipMembers e.vip) = .ok table ∧
    ∀ w ∈ slotWrites e.extent (e.slotIDs table), w.Holds m

/-- The control state with maps that are its image. -/
structure Imaged (p : Dataplane) (m : Maps) : Prop where
  owned : Owned (fun _ => 0) p
  keyed : ∀ {k e}, p.services.get? k = some e → vipKeyString e.vipSpec = k ∧ vipKeyString e.vip = k
  compatible : ∀ {k k' e e'}, p.services.get? k = some e → p.services.get? k' = some e' →
    e.vip.Compatible e'.vip
  exact : ∀ {k e name id}, p.services.get? k = some e → e.backendIDs.get? name = some id →
    (desiredBackends e.vip).contains name = true
  programmed : ∀ {k e}, p.services.get? k = some e → Programmed p e m
  keys : ∀ {w : MapWrite}, w.IsKey → w.Holds m → ∃ k e ip, p.services.get? k = some e ∧
    parseIP e.vip.address = some ip ∧ w ∈ vipWrites e.vip ip e.serviceID
  idle : ∀ sid, (∀ k e, p.services.get? k = some e → e.serviceID ≠ sid) →
    m.serviceConfig sid = .zero
  backends : BackendImage p m

theorem VIP.Compatible.of_keys {w v' w' : VIP} (compatible : v.Compatible w)
    (first : vipKeyString v' = vipKeyString v) (second : vipKeyString w' = vipKeyString w) :
    v'.Compatible w' := by
  obtain ⟨address, port, portEnd, protocol⟩ := vipKeyString_inj first
  obtain ⟨address', port', portEnd', protocol'⟩ := vipKeyString_inj second
  obtain ⟨spelling, apart⟩ := compatible
  constructor
  · rw [address, address', protocol, protocol']
    exact spelling
  · unfold VIP.isRange at apart ⊢
    rw [address, address', protocol, protocol', port, port', portEnd, portEnd']
    exact apart

theorem VIP.Compatible.refl (v : VIP) : v.Compatible v :=
  ⟨fun _ _ => ⟨rfl, rfl⟩, fun _ _ _ _ => Or.inl ⟨rfl, rfl⟩⟩

theorem VIP.Compatible.symm {w : VIP} (compatible : v.Compatible w) : w.Compatible v := by
  refine ⟨fun addr proto => ?_, fun address protocol range range' => ?_⟩
  · obtain ⟨address, protocol⟩ := compatible.spelling addr.symm proto.symm
    exact ⟨address.symm, protocol.symm⟩
  · rcases compatible.apart address.symm protocol.symm range' range with ⟨start, stop⟩ | below | above
    · exact Or.inl ⟨start.symm, stop.symm⟩
    · exact Or.inr (Or.inr below)
    · exact Or.inr (Or.inl above)

theorem limitWrites_cell {p : Dataplane} {sid : Nat} {rl : VIPRateLimit}
    (member : w ∈ limitWrites p sid rl) :
    w.cell = .limit sid ∧ ∀ v ∈ limitWrites p sid rl, v = w := by
  unfold limitWrites at member ⊢
  split at member
  · rename_i supported
    rw [List.mem_singleton.mp member, if_pos supported]
    exact ⟨rfl, fun v other => List.mem_singleton.mp other⟩
  · cases member

theorem length_slotIDs {table : List Nat}
    (sized : e.extent.size ∈ maglevSizeClasses)
    (built : Maglev.buildTable e.extent.size (vipMembers e.vip) = .ok table) :
    (e.slotIDs table).length = e.extent.size := by
  obtain ⟨_, _, length, _⟩ := Maglev.buildTableWith_ok (prime_of_class sized) built
  rw [ServiceEntry.slotIDs, tableIDs, List.length_map, length]

/-- An image is read off the entries of its VIP. -/
theorem Programmed.congr {p q : Dataplane} {m' : Maps}
    (programmed : Programmed p e m) (dp : q.dp = p.dp) (cpus : q.numCPU = p.numCPU)
    (same : ∀ c, e.Owns c → c.Agree m m') : Programmed q e m' := by
  have still : ∀ {w : MapWrite}, e.Owns w.cell → w.Holds m → w.Holds m' := fun mine holds =>
    holds.of_agree (same _ mine)
  obtain ⟨ip, able, keys⟩ := programmed.keys
  obtain ⟨table, built, slots⟩ := programmed.table
  have length := length_slotIDs programmed.sized built
  refine ⟨?_, ?_, ⟨ip, able.congr dp, ?_⟩, programmed.listed, programmed.sized,
    table, built, ?_⟩
  · exact @still (.setServiceConfig e.serviceID (programmedConfig e.vip e.extent)) rfl
      programmed.config
  · intro w member
    rw [limitWrites_congr dp cpus] at member
    refine still ?_ (programmed.limit w member)
    rw [(limitWrites_cell member).1]
    rfl
  · intro w member
    refine still (ServiceEntry.owns_key able.address ?_) (keys w member)
    rw [← vipWrites_cells e.vip ip e.serviceID]
    exact List.mem_map_of_mem member
  · intro w member
    obtain ⟨slot, inside, cell⟩ := slotWrites_cell (Nat.le_of_eq length) member
    refine still ?_ (slots w member)
    rw [cell]
    exact inside

/-- Writes elsewhere leave it. -/
theorem Programmed.frame {p q : Dataplane}
    (programmed : Programmed p e m) (dp : q.dp = p.dp) (cpus : q.numCPU = p.numCPU)
    {ws : List MapWrite} (apart : ∀ w ∈ ws, ¬ e.Owns w.cell) : Programmed q e (replay ws m) := by
  refine programmed.congr dp cpus fun c mine => replay_agree ?_ m
  rintro w member rfl
  exact apart w member mine

/-- The writes of a successful upsert, by the entry each one names. -/
inductive UpsertWrite (p : Dataplane) (f : ServiceEntry) (ip : IP) (ws' : List MapWrite) :
    MapWrite → Prop
  | drops (isNew : ∀ k e, p.services.get? k = some e → e.serviceID ≠ f.serviceID) :
    UpsertWrite p f ip ws' (.resetDropStats f.serviceID)
  | backend {w : MapWrite} {key : BackendKey} (cell : w.cell = .backend key) :
    UpsertWrite p f ip ws' w
  | health {w : MapWrite} {id : Nat} (cell : w.cell = .health id) : UpsertWrite p f ip ws' w
  | slot {w : MapWrite} {i : Nat} (member : w ∈ ws') (inside : i ∈ f.extent.slots)
    (cell : w.cell = .slot i) : UpsertWrite p f ip ws' w
  | config : UpsertWrite p f ip ws'
      (.setServiceConfig f.serviceID (programmedConfig f.vip f.extent))
  | limit {w : MapWrite} (member : w ∈ limitWrites p f.serviceID f.vip.rateLimit)
    (cell : w.cell = .limit f.serviceID) : UpsertWrite p f ip ws' w
  | key {w : MapWrite} (member : w ∈ vipWrites f.vip ip f.serviceID)
    (cell : w.cell ∈ vipCells f.vip ip) : UpsertWrite p f ip ws' w

theorem Tabled.cells {spec : VIP} {p : Dataplane} {f : ServiceEntry} {ws' : List MapWrite}
    (tabled : Tabled spec p f ws') :
    (∀ w ∈ ws', ∃ slot ∈ f.extent.slots, w.cell = .slot slot) ∧
      ∀ v ∈ ws', ∀ w ∈ ws', v.cell = w.cell → v = w := by
  cases tabled with
  | inPlace _ _ sized _ built =>
    exact ⟨fun w member => slotWrites_cell (Nat.le_of_eq (length_slotIDs sized built)) member,
      fun v first w second same => slotWrites_unique first second same⟩
  | moved _ size _ built =>
    have sized : f.extent.size ∈ maglevSizeClasses := size ▸ maglevClassFor_mem _
    exact ⟨fun w member => slotWrites_cell (Nat.le_of_eq (length_slotIDs sized built)) member,
      fun v first w second same => slotWrites_unique first second same⟩
  | kept => exact ⟨fun _ member => (nomatch member), fun _ member => (nomatch member)⟩

theorem Touch.cell {key : String} {desired : FMap String Backend} {p q : Dataplane}
    (touch : Touch key desired p q w) :
    (∃ k, w.cell = .backend k) ∨ ∃ id, w.cell = .health id := by
  cases touch with
  | delete | describe => exact Or.inl ⟨_, rfl⟩
  | down | health => exact Or.inr ⟨_, rfl⟩

section Upsert

variable {leak : String → Nat} {env : Env} {spec : VIP} {p q : Dataplane} {f : ServiceEntry} {ip : IP}
  {ws ws' : List MapWrite}

/-- Every write of an upsert is of one of these kinds. -/
theorem Upserted.kind (up : Upserted leak env spec p q f ip ws ws')
    (member : w ∈ upsertWrites p f ip ws ws') : UpsertWrite p f ip ws' w := by
  unfold upsertWrites at member
  rcases List.mem_append.mp member with settle | member
  · rcases up.settle w settle with ⟨rfl, absent⟩ | touch
    · exact .drops (up.fresh absent)
    · rcases touch.cell with ⟨_, cell⟩ | ⟨_, cell⟩
      · exact .backend cell
      · exact .health cell
  rcases List.mem_append.mp member with slot | member
  · obtain ⟨i, inside, cell⟩ := up.table.cells.1 w slot
    exact .slot slot inside cell
  rcases List.mem_cons.mp member with rfl | member
  · exact .config
  rcases List.mem_append.mp member with limit | key
  · exact .limit limit (limitWrites_cell limit).1
  · refine .key key ?_
    rw [← vipWrites_cells f.vip ip f.serviceID]
    exact List.mem_map_of_mem key

theorem Upserted.endpoint (up : Upserted leak env spec p q f ip ws ws')
    (member : w ∈ upsertWrites p f ip ws ws') (isKey : w.cell.IsKey) : w.cell ∈ vipCells f.vip ip := by
  cases up.kind member with
  | key _ listed => exact listed
  | drops | config => rcases isKey with ⟨_, this⟩ | ⟨_, this⟩ <;> cases this
  | backend cell | health cell | slot _ _ cell | limit _ cell =>
    rw [cell] at isKey
    rcases isKey with ⟨_, this⟩ | ⟨_, this⟩ <;> cases this

theorem Upserted.holds (up : Upserted leak env spec p q f ip ws ws') (m : Maps)
    (stored : w ∈ ws' ∨ w = .setServiceConfig f.serviceID (programmedConfig f.vip f.extent) ∨
      w ∈ limitWrites p f.serviceID f.vip.rateLimit ∨ w ∈ vipWrites f.vip ip f.serviceID) :
    w.Holds (replay (upsertWrites p f ip ws ws') m) := by
  unfold upsertWrites
  -- Only the stages from the write's own on can matter, and each later stage names other entries.
  rw [replay_append]
  have keyCell : ∀ v ∈ vipWrites f.vip ip f.serviceID, v.cell.IsKey :=
    fun v member => vipWrites_kind member
  rcases stored with slot | rfl | limit | key
  · refine replay_holds (List.mem_append_left _ slot) ?_ _
    obtain ⟨i, _, cell⟩ := up.table.cells.1 w slot
    intro v member same
    rw [cell] at same
    rcases List.mem_append.mp member with other | member
    · exact up.table.cells.2 v other w slot (same.trans cell.symm)
    rcases List.mem_cons.mp member with rfl | member
    · cases same
    rcases List.mem_append.mp member with other | other
    · rw [(limitWrites_cell other).1] at same
      cases same
    · rcases keyCell v other with ⟨k, this⟩ | ⟨k, this⟩ <;> rw [this] at same <;> cases same
  · rw [replay_append]
    refine replay_holds List.mem_cons_self ?_ _
    intro v member same
    rcases List.mem_cons.mp member with rfl | member
    · rfl
    rcases List.mem_append.mp member with other | other
    · rw [(limitWrites_cell other).1] at same
      cases same
    · rcases keyCell v other with ⟨k, this⟩ | ⟨k, this⟩ <;> rw [this] at same <;> cases same
  · rw [replay_append, replay_cons]
    refine replay_holds (List.mem_append_left _ limit) ?_ _
    intro v member same
    rcases List.mem_append.mp member with other | other
    · exact (limitWrites_cell limit).2 v other
    · rw [(limitWrites_cell limit).1] at same
      rcases keyCell v other with ⟨k, this⟩ | ⟨k, this⟩ <;> rw [this] at same <;> cases same
  · rw [replay_append, replay_cons, replay_append]
    exact replay_holds key (fun v other same => vipWrites_unique other key same) _

/-- An upsert writes to no entry of another VIP. -/
theorem Upserted.apart (up : Upserted leak env spec p q f ip ws ws') {k : String}
    (differ : k ≠ vipKeyString spec) (found : p.services.get? k = some e)
    (key : vipKeyString e.vip = k) (compatible : e.vip.Compatible spec)
    (member : w ∈ upsertWrites p f ip ws ws') : ¬ e.Owns w.cell := by
  have found' : q.services.get? k = some e := (up.others k differ).trans found
  have mine : vipKeyString f.vip = vipKeyString spec := by rw [up.vip]; rfl
  have sid : e.serviceID ≠ f.serviceID := fun same =>
    differ (up.owned.services.key_unique found' up.entry same)
  intro owns
  cases up.kind member with
  | drops => exact owns
  | backend cell =>
    rw [cell] at owns
    exact owns
  | health cell =>
    rw [cell] at owns
    exact owns
  | slot _ inside cell =>
    rw [cell] at owns
    exact up.owned.tiled.disjoint found' up.entry differ owns inside
  | config => exact sid (Eq.symm owns)
  | limit _ cell =>
    rw [cell] at owns
    exact sid (Eq.symm owns)
  | key _ listed =>
    obtain ⟨ip', parsed, theirs⟩ := owns.key listed
    have compatible' : e.vip.Compatible f.vip := compatible.of_keys rfl mine
    exact vipCells_disjoint compatible' (by rw [key, mine]; exact differ) parsed up.able.address
      theirs listed

theorem Programmed.same_table {p : Dataplane} {f : ServiceEntry}
    (programmed : Programmed p e m)
    (exact : ∀ name id, e.backendIDs.get? name = some id → (desiredBackends e.vip).contains name = true)
    (names : ∀ name, (∃ id, f.backendIDs.get? name = some id) ↔
      (desiredBackends f.vip).contains name = true)
    (extent : f.extent = e.extent)
    (sameIDs : ∀ name, f.backendIDs.get? name = e.backendIDs.get? name)
    (sameWeights : weightsChanged e.vip (desiredBackends f.vip) = false) :
    ∃ table, Maglev.buildTable f.extent.size (vipMembers f.vip) = .ok table ∧
      slotWrites f.extent (f.slotIDs table) = slotWrites e.extent (e.slotIDs table) ∧
      ∀ w ∈ slotWrites e.extent (e.slotIDs table), w.Holds m := by
  -- Both VIPs want exactly the backends listed.
  have wanted : ∀ name, (desiredBackends e.vip).contains name = (desiredBackends f.vip).contains name := by
    intro name
    rw [Bool.eq_iff_iff, ← names name]
    constructor
    · intro listed
      obtain ⟨id, named⟩ := programmed.listed name listed
      exact ⟨id, (sameIDs name).trans named⟩
    · rintro ⟨id, named⟩
      exact exact name id ((sameIDs name).symm.trans named)
  have shares := vipMembers_shares wanted sameWeights
  obtain ⟨table, built, hold⟩ := programmed.table
  refine ⟨table, ?_, ?_, hold⟩
  · rw [extent, ← built]
    exact (Maglev.buildTableWith_congr shares).symm
  · rw [extent, slotIDs_congr sameIDs shares.symm]

/-- After an upsert that succeeds the maps hold the VIP. -/
theorem Upserted.programmed (up : Upserted leak env spec p q f ip ws ws')
    (before : ∀ e₀, p.services.get? (vipKeyString spec) = some e₀ → Programmed p e₀ m ∧
      ∀ name id, e₀.backendIDs.get? name = some id → (desiredBackends e₀.vip).contains name = true) :
    Programmed q f (replay (upsertWrites p f ip ws ws') m) := by
  have dp : q.dp = p.dp := by rw [up.rest]
  have cpus : q.numCPU = p.numCPU := by rw [up.rest]
  have able : f.vip.Programmable q ip := up.able.congr dp
  have table : f.extent.size ∈ maglevSizeClasses ∧
      ∃ table, Maglev.buildTable f.extent.size (vipMembers f.vip) = .ok table ∧
        ∀ w ∈ slotWrites f.extent (f.slotIDs table),
          w.Holds (replay (upsertWrites p f ip ws ws') m) := by
    have tabled := up.table
    generalize written : ws' = vs at tabled
    cases tabled with
    | inPlace _ _ sized _ built =>
      subst written
      exact ⟨sized, _, built, fun w member => up.holds m (Or.inl member)⟩
    | moved _ size _ built =>
      subst written
      exact ⟨size ▸ maglevClassFor_mem _, _, built, fun w member => up.holds m (Or.inl member)⟩
    | @kept e₀ existed extent sameIDs sameWeights =>
      subst written
      obtain ⟨programmed, exact⟩ := before e₀ existed
      obtain ⟨table, built, same, hold⟩ :=
        programmed.same_table exact up.names extent sameIDs sameWeights
      refine ⟨extent ▸ programmed.sized, table, built, ?_⟩
      intro w member
      -- No slot was written, so the table is where it was.
      refine (hold w (same ▸ member)).of_agree (replay_agree ?_ m)
      intro v other cell
      obtain ⟨slot, inside, this⟩ := slotWrites_cell
        (Nat.le_of_eq (length_slotIDs (extent ▸ programmed.sized) built)) member
      rw [this] at cell
      cases up.kind other with
      | slot inTable _ _ => cases inTable
      | drops => cases cell
      | backend c => rw [c] at cell; cases cell
      | health c => rw [c] at cell; cases cell
      | config => cases cell
      | limit _ c => rw [c] at cell; cases cell
      | key _ c => rcases vipCells_kind c with ⟨_, c⟩ | ⟨_, c⟩ <;> rw [c] at cell <;> cases cell
  refine ⟨?_, ?_, ⟨ip, able, ?_⟩, fun name wanted => (up.names name).mpr wanted, table.1, table.2⟩
  · exact up.holds m (Or.inr (Or.inl rfl))
  · intro w member
    rw [limitWrites_congr dp cpus] at member
    exact up.holds m (Or.inr (Or.inr (Or.inl member)))
  · exact fun w member => up.holds m (Or.inr (Or.inr (Or.inr member)))

end Upsert

end Rivora

import Rivora.Proofs.Upserted

/-! When an upsert succeeds, and what the control state then is. -/

namespace Rivora

/-- The range a VIP has, or no range if it is new. -/
def Dataplane.currentExtent (p : Dataplane) (key : String) : Extent :=
  ((p.services.get? key).map ServiceEntry.extent).getD ⟨0, 0⟩

/-- The size class of the table an upsert asks for. -/
def Dataplane.wantedClass (p : Dataplane) (spec : VIP) : Nat :=
  maglevClassFor (p.wanted spec).size

/-- An upsert needs a new range. -/
def Dataplane.NeedsRange (p : Dataplane) (spec : VIP) : Prop :=
  (p.currentExtent (vipKeyString spec)).size = 0 ∨
    p.wantedClass spec > (p.currentExtent (vipKeyString spec)).size

instance (p : Dataplane) (spec : VIP) : Decidable (p.NeedsRange spec) :=
  inferInstanceAs (Decidable (_ ∨ _))

/-- The size of the range an upsert fills, if it fills one. -/
def Dataplane.tableSize (p : Dataplane) (spec : VIP) : Nat :=
  if p.NeedsRange spec then p.wantedClass spec else (p.currentExtent (vipKeyString spec)).size

/-- A VIP can be programmed on a node: nothing it needs is missing or exhausted. -/
structure Fits (p : Dataplane) (spec : VIP) : Prop where
  tunnel : (p.checkTunnelReady spec).toOption = some ()
  service : p.services.contains (vipKeyString spec) = true ∨ p.serviceAlloc.ids.size < maxVIPs
  describable : ∀ b ∈ (p.effective spec).backends, (p.wanted spec).get? (backendName b) = some b → b.Describable
  room : p.backendAlloc.ids.size + (p.wanted spec).size ≤ maxBackends
  some_backend : spec.backends ≠ []
  weight : ((vipMembers (p.effective spec)).map fun b => Maglev.normalizeWeight b.weight).sum <
    p.tableSize spec
  range : p.NeedsRange spec → ∃ e ∈ p.maglevAlloc.free, p.wantedClass spec ≤ e.size
  address : (parseIP spec.address).isSome = true
  limit : p.dp.svcRlConfig = true ∨ spec.rateLimit.set = false
  ports : spec.isRange = true → (parseIP spec.address).all p.hasRangeMap = true

instance (b : Backend) : Decidable b.Describable := inferInstanceAs (Decidable (_ ∧ _))

instance (p : Dataplane) (spec : VIP) : Decidable (Fits p spec) :=
  decidable_of_iff
    ((p.checkTunnelReady spec).toOption = some () ∧
      (p.services.contains (vipKeyString spec) = true ∨ p.serviceAlloc.ids.size < maxVIPs) ∧
      (∀ b ∈ (p.effective spec).backends, (p.wanted spec).get? (backendName b) = some b → b.Describable) ∧
      p.backendAlloc.ids.size + (p.wanted spec).size ≤ maxBackends ∧ spec.backends ≠ [] ∧
      ((vipMembers (p.effective spec)).map fun b => Maglev.normalizeWeight b.weight).sum <
        p.tableSize spec ∧
      (p.NeedsRange spec → ∃ e ∈ p.maglevAlloc.free, p.wantedClass spec ≤ e.size) ∧
      (parseIP spec.address).isSome = true ∧
      (p.dp.svcRlConfig = true ∨ spec.rateLimit.set = false) ∧
      (spec.isRange = true → (parseIP spec.address).all p.hasRangeMap = true))
    ⟨fun ⟨a, b, c, d, e, f, g, h, i, j⟩ => ⟨a, b, c, d, e, f, g, h, i, j⟩,
      fun ⟨a, b, c, d, e, f, g, h, i, j⟩ => ⟨a, b, c, d, e, f, g, h, i, j⟩⟩

section

variable {leak : String → Nat} {spec : VIP} {p : Dataplane}

/-- A backend that is wanted stands under its own name. -/
theorem Fits.wanted (fits : Fits p spec) {name : String} {b : Backend}
    (wanted : (p.wanted spec).get? name = some b) : b.Describable := by
  obtain ⟨b', listed, same⟩ := List.mem_map.mp (FMap.mem_of_get?_ofList wanted)
  obtain ⟨rfl, rfl⟩ := Prod.mk.inj same
  exact fits.describable b' listed wanted

theorem SettledFully.shape {env : Env} {q : Dataplane} {e : ServiceEntry} {ws : List MapWrite}
    (settled : SettledFully leak env spec p q e ws) :
    (e.Outgrown ↔ p.NeedsRange spec) ∧ e.rebuildSize = p.tableSize spec ∧
      e.members (p.wanted spec) = vipMembers (p.effective spec) := by
  have extent : e.extent = p.currentExtent (vipKeyString spec) := by
    unfold Dataplane.currentExtent
    cases before : p.services.get? (vipKeyString spec) with
    | none =>
      rw [(settled.fresh before).1]
      rfl
    | some e₀ =>
      rw [settled.known before]
      rfl
  have names : ∀ name, (∃ id, e.backendIDs.get? name = some id) ↔
      (desiredBackends (p.effective spec)).contains name = true := fun name =>
    (settled.names name).symm
  have count : e.backendIDs.size = (p.wanted spec).size := size_eq_desired names
  have outgrown : e.Outgrown ↔ p.NeedsRange spec := by
    unfold ServiceEntry.Outgrown Dataplane.NeedsRange Dataplane.wantedClass
    rw [extent, count]
  refine ⟨outgrown, ?_, tableMembers_eq_vipMembers names⟩
  unfold ServiceEntry.rebuildSize Dataplane.tableSize Dataplane.wantedClass
  simp only [outgrown, count, extent]

theorem Fits.members_ne_nil (fits : Fits p spec) : vipMembers (p.effective spec) ≠ [] := by
  obtain ⟨b, rest, backends⟩ := List.exists_cons_of_ne_nil fits.some_backend
  have wanted : backendName b ∈ (desiredBackends (p.effective spec)).keys := by
    rw [desiredBackends, FMap.mem_keys_ofList, List.map_map]
    refine List.mem_map.mpr ⟨_, List.mem_map.mpr ⟨b, backends ▸ List.mem_cons_self, rfl⟩, ?_⟩
    dsimp only [Function.comp_apply]
    split <;> rfl
  intro empty
  have none : (desiredBackends (p.effective spec)).keys.insertionSort (· ≤ ·) = [] :=
    List.map_eq_nil_iff.mp empty
  have member := (List.mem_insertionSort (· ≤ ·)).mpr wanted
  rw [none] at member
  cases member

/-- A VIP that fits can be programmed. -/
theorem Fits.programmable (fits : Fits p spec) {ip : IP} (parsed : parseIP spec.address = some ip) :
    (p.effective spec).Programmable p ip := by
  refine ⟨fun unsupported => ?_, parsed, fun range => ?_⟩
  · rcases fits.limit with supported | unlimited
    · rw [unsupported] at supported
      cases supported
    · exact unlimited
  · have known := fits.ports range
    rw [parsed] at known
    exact known

/-- With reliable writes, a VIP that fits is programmed. -/
theorem upsertVIP_of_fits {env : Env} {s : World} (owned : Owned leak s.plane)
    (fits : Fits s.plane spec) (reliable : env.Reliable) :
    ∃ s', upsertVIP spec env s = (.ok (), s') := by
  have ends := upsertVIP_run spec env owned
  generalize upsertVIP spec env s = outcome at ends
  -- Each way to stop names something that is missing, or a write that failed.
  cases ends with
  | done => exact ⟨_, rfl⟩
  | refused reason =>
    exfalso
    rcases reason with ⟨err, refused⟩ | ⟨absent, text, full⟩
    · have ready := fits.tunnel
      rw [refused] at ready
      cases ready
    · rcases fits.service with existed | room
      · rw [FMap.contains, absent] at existed
        cases existed
      · obtain ⟨id, alloc, allocated⟩ := s.plane.serviceAlloc.alloc_of_room (vipKeyString spec)
          (owned.services.capacity ▸ room)
        rw [allocated] at full
        cases full
  | unsettled _ _ reason =>
    exfalso
    cases reason with
    | clean reason =>
      rcases reason with ⟨name, b, wanted, cannot⟩ | ⟨w, fails⟩ | full
      · exact cannot (fits.wanted wanted)
      · exact reliable w fails
      · exact absurd fits.room (by omega)
    | leaking wanted _ reason =>
      rcases reason with cannot | ⟨w, fails, _⟩
      · exact cannot (fits.wanted wanted)
      · exact reliable w fails
  | @unbuilt _ t s' e ws settled _ _ _ stop =>
    exfalso
    obtain ⟨outgrown, size, members⟩ := settled.shape
    cases stop with
    | refused _ reason =>
      rcases reason with ⟨moves, noRange⟩ | ⟨err, unbuilt⟩
      · obtain ⟨free, listed, large⟩ := fits.range (outgrown.mp moves)
        have same : t.plane.maglevAlloc = s.plane.maglevAlloc := by rw [settled.rest]
        have small := noRange free (same ▸ listed)
        rw [size, Dataplane.tableSize, if_pos (outgrown.mp moves)] at small
        omega
      · have sized : e.rebuildSize ∈ maglevSizeClasses := by
          unfold ServiceEntry.rebuildSize
          split
          · exact maglevClassFor_mem _
          · rename_i fitting
            exact (settled.owned.sized settled.entry).resolve_left fun zero => fitting (Or.inl zero)
        rw [members] at unbuilt
        obtain ⟨table, built⟩ := @Maglev.buildTableWith_succeeds Maglev.hash _ _
          (prime_of_class sized) fits.members_ne_nil (size ▸ fits.weight)
        cases built.symm.trans unbuilt
    | failed _ _ _ _ reason =>
      obtain ⟨w, _, fails⟩ := reason
      exact reliable w fails
  | @unprogrammed _ t u s' e e' ws ws' settled _ built _ _ stop =>
    exfalso
    cases stop with
    | config _ fails => exact reliable _ fails
    | keys _ _ reason =>
      rcases reason with cannot | ⟨w, fails, _⟩
      · obtain ⟨ip, parsed⟩ := Option.isSome_iff_exists.mp fits.address
        have dp : u.plane.dp = s.plane.dp := by rw [built.rest.1, settled.rest]
        exact cannot ip ((fits.programmable parsed).congr dp)
      · exact reliable w fails

end

/-- A computation that leaves the control state alone, whatever it writes to the maps. -/
def Steady {α : Type} (m : M α) : Prop := ∀ env s, (m env s).2.plane = s.plane

namespace Steady

variable {α β : Type}

theorem pure (a : α) : Steady (Pure.pure a : M α) := fun _ _ => rfl

theorem fail (e : GoError) : Steady (Effect.fail e : M α) := fun _ _ => rfl

theorem read (f : World → α) : Steady (Effect.read f : M α) := fun _ _ => rfl

theorem write (w : MapWrite) : Steady (Rivora.write w) := by
  intro env s
  unfold Rivora.write
  split
  · rfl
  · split <;> rfl

theorem bind {m : M α} {f : α → M β} (first : Steady m) (second : ∀ a, Steady (f a)) :
    Steady (m >>= f) := by
  intro env s
  have plane := first env s
  rw [Effect.bind_apply]
  generalize m env s = outcome at plane ⊢
  obtain ⟨result, s'⟩ := outcome
  -- The second computation starts where the first one ended, if it ended well.
  cases result with
  | ok a => exact (second a env s').trans plane
  | error e => exact plane

theorem mapError {m : M α} (f : GoError → GoError) (steady : Steady m) :
    Steady (Effect.mapError f m) := by
  intro env s
  have plane := steady env s
  unfold Effect.mapError
  generalize m env s = outcome at plane ⊢
  obtain ⟨result, s'⟩ := outcome
  cases result <;> exact plane

theorem ignoring {m : M Unit} (steady : Steady m) : Steady (Effect.ignoring m) :=
  fun env s => steady env s

theorem outcome {m : M α} (steady : Steady m) : Steady (Effect.outcome m) :=
  fun env s => steady env s

theorem forEach {f : α → M Unit} (steady : ∀ x, Steady (f x)) (items : List α) :
    Steady (Effect.forEach items f) := by
  induction items with
  | nil => exact pure ()
  | cons x rest ih => exact bind (steady x) fun _ => ih

end Steady

theorem fillExtent_steady (target : Extent) (ids : FMap String Nat) (members : List Maglev.Member) :
    Steady (fillExtent target ids members) := by
  unfold fillExtent
  cases Maglev.buildTable target.size members with
  | error e => exact .fail _
  | ok table => exact .forEach (fun x => .mapError _ (.write _)) _

theorem rangeMapWriteFrom_steady (ip : IP) (proto : UInt8) (sid : Nat) (blocks : List PortBlock) :
    ∀ written, Steady (rangeMapWriteFrom ip proto sid written blocks) := by
  induction blocks with
  | nil => exact fun written => .pure ()
  | cons b rest ih =>
    intro written
    refine .bind (.outcome (.write _)) fun result => ?_
    cases result with
    | ok _ => exact ih _
    | error e =>
      -- Taking the blocks back writes to the maps alone, too.
      refine .bind (.bind (.read _) fun p => ?_) fun _ => .fail _
      split
      · exact .forEach (fun _ => .ignoring (.write _)) _
      · exact .pure ()

/-- Programming leaves the control plane as it is. -/
theorem programService_steady (key : String) (vip : VIP) : Steady (programService key vip) := by
  refine .bind (.read _) fun entry => .bind (.mapError _ (.write _)) fun _ =>
    .bind (.mapError _ ?_) fun _ => .mapError _ ?_
  · refine .bind (.read _) fun p => ?_
    split
    · split
      · exact .fail _
      · exact .pure ()
    · exact .mapError _ (.write _)
  · unfold vipMapWrite
    split
    · exact .fail _
    · split
      · refine .bind (.read _) fun p => ?_
        split
        · exact .fail _
        · exact rangeMapWriteFrom_steady _ _ _ _ _
      · exact .mapError _ (.write _)

/-- The control state after a rebuild of a VIP's table that succeeded. -/
def Dataplane.rebuilt (p : Dataplane) (key : String) : Dataplane :=
  match p.services.get? key with
  | none => p
  | some entry =>
    if entry.extent.size = 0 ∨ maglevClassFor entry.backendIDs.size > entry.extent.size then
      match p.maglevAlloc.alloc (maglevClassFor entry.backendIDs.size) with
      | (.error _, _) => p
      | (.ok target, alloc) =>
        let moved := ({ p with maglevAlloc := alloc } : Dataplane).modifyEntry key
          (ServiceEntry.moveTo target)
        if entry.extent.size > 0 then
          { moved with maglevAlloc := moved.maglevAlloc.freeExtent entry.extent }
        else moved
    else p

/-- A rebuild changes the range of its VIP alone. -/
theorem rebuildMaglev_plane {key : String} {desired : FMap String Backend} {env : Env} {s s' : World}
    {entry : ServiceEntry} (found : s.plane.services.get? key = some entry)
    (run : rebuildMaglev key desired env s = (.ok (), s')) : s'.plane = s.plane.rebuilt key := by
  unfold rebuildMaglev at run
  unfold Dataplane.rebuilt
  rw [found]
  simp only [Effect.bind_apply, getEntry_run found, length_tableMembers] at run ⊢
  split
  · rename_i outgrown
    rw [if_pos outgrown] at run
    simp only [Effect.bind_apply, allocExtent, getPlane_apply] at run
    rcases allocated : s.plane.maglevAlloc.alloc (maglevClassFor entry.backendIDs.size) with
      ⟨text | target, alloc⟩
    · rw [allocated] at run
      cases run
    · rw [allocated] at run
      simp only [Effect.bind_apply, modifyPlane_apply, Effect.pure_apply, Effect.onError] at run
      have plane := fillExtent_steady target entry.backendIDs (tableMembers entry.backendIDs desired)
        env (s.withPlane { s.plane with maglevAlloc := alloc })
      cases filled : fillExtent target entry.backendIDs (tableMembers entry.backendIDs desired) env
          (s.withPlane { s.plane with maglevAlloc := alloc }) with
      | mk outcome t =>
        rw [filled] at run plane
        cases outcome with
        | error e => cases run
        | ok _ =>
          simp only [modifyEntry, modifyPlane_apply] at run
          simp only [withPlane_plane] at plane
          dsimp only
          rw [← plane]
          split
          · rename_i old
            rw [if_pos old] at run
            cases run
            rfl
          · rename_i none
            rw [if_neg none] at run
            cases run
            rfl
  · rename_i fits
    rw [if_neg fits] at run
    have plane := fillExtent_steady entry.extent entry.backendIDs
      (tableMembers entry.backendIDs desired) env s
    rw [run] at plane
    exact plane

/-- The control state after an upsert that succeeded, computed without the table. -/
def Dataplane.upserted (p : Dataplane) (env : Env) (spec : VIP) : Dataplane :=
  match enterService spec env ⟨p, [], 0⟩ with
  | (.error _, s) => s.plane
  | (.ok held, s₁) =>
    let vip := spec.overrideWeights held.weightOverrides
    match settleBackends (vipKeyString spec) vip env s₁ with
    | (.error _, s) => s.plane
    | (.ok changed, s₂) =>
      let rebuild := changed || weightsChanged held.vip (desiredBackends vip) ||
        !p.services.contains (vipKeyString spec)
      (if rebuild then s₂.plane.rebuilt (vipKeyString spec) else s₂.plane).commit
        (vipKeyString spec) spec vip

/-- The control plane after an upsert that succeeds. -/
theorem upsertVIP_plane {leak : String → Nat} {p : Dataplane} {env : Env} {spec : VIP} {s' : World}
    (owned : Owned leak p) (run : upsertVIP spec env ⟨p, [], 0⟩ = (.ok (), s')) :
    s'.plane = p.upserted env spec := by
  unfold upsertVIP at run
  unfold Dataplane.upserted
  simp only [Effect.bind_apply, getPlane_apply] at run
  rcases enterService_run (s := ⟨p, [], 0⟩) spec env owned.services with
    ⟨err, run₁, _⟩ | ⟨held, s₁, e₀, _, run₁, _, _, entered, _⟩
  · rw [run₁] at run
    cases run
  rw [run₁] at run ⊢
  dsimp only at run ⊢
  rcases settleBackends_run (spec.overrideWeights held.weightOverrides) env
      (entered.keeps owned).backends entered.entry with
    ⟨changed, s₂, _, run₂, _, _, _, settling, _⟩ | ⟨err, s₂, run₂, _⟩
  · rw [run₂] at run ⊢
    dsimp only at run ⊢
    obtain ⟨ids, found⟩ := settling.entry entered.entry
    -- The table is built or left alone; either way the control state is known.
    cases built : rebuildIfNeeded (vipKeyString spec) (spec.overrideWeights held.weightOverrides)
        held.vip changed (p.services.contains (vipKeyString spec)) env s₂ with
    | mk outcome s₃ =>
      rw [built] at run
      cases outcome with
      | error e => cases run
      | ok _ =>
        dsimp only at run
        have plane₄ := programService_steady (vipKeyString spec)
          (spec.overrideWeights held.weightOverrides) env s₃
        cases programmed : programService (vipKeyString spec)
            (spec.overrideWeights held.weightOverrides) env s₃ with
        | mk outcome' s₄ =>
          rw [programmed] at run plane₄
          cases outcome' with
          | error e => cases run
          | ok _ =>
            simp only [modifyPlane_apply] at run
            cases run
            simp only [withPlane_plane]
            rw [plane₄]
            congr 1
            unfold rebuildIfNeeded at built
            split at built
            · rename_i needed
              rw [if_pos needed]
              exact rebuildMaglev_plane found (Effect.mapError_eq_ok.mp built)
            · rename_i idle
              rw [if_neg idle]
              cases built
              rfl
  · rw [run₂] at run
    cases run

end Rivora

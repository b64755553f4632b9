import Rivora.Proofs.Prepare

/-! Everything a removal does. Its writes are best-effort, so it never stops. -/

namespace Rivora

section Dismantle

variable (leak : String → Nat) (env : Env) (key : String) (entry : ServiceEntry) (start : World)

/-- A VIP's entry with another list of backends. -/
def ServiceEntry.listing (entry : ServiceEntry) (ids : FMap String Nat) : ServiceEntry :=
  { entry with backendIDs := ids }

/-- The control state as if a VIP had taken the released backends off its list already. -/
def Dataplane.asListing (p : Dataplane) (key : String) (entry : ServiceEntry)
    (ids : FMap String Nat) : Dataplane :=
  { p with services := p.services.insert key (entry.listing ids) }

/--
The loop of a removal with some names still to visit.

The VIP's list is dropped only at the end; in between, ownership holds of the control state in which
the VIP had let go of each released backend.
-/
structure Dismantling (rest : List String) (s : World) : Prop where
  services : s.plane.services = start.plane.services
  releasing : ∃ ids, Releasing leak env key FMap.empty entry start rest
    (s.withPlane (s.plane.asListing key entry ids))

variable {leak env key entry start}

theorem unreference_withServices (p : Dataplane) (services : FMap String ServiceEntry)
    (name : String) (id : Nat) :
    ({ p with services := services } : Dataplane).unreference name id =
      { p.unreference name id with services := services } := by
  unfold Dataplane.unreference
  dsimp only
  split
  · rfl
  · split <;> rfl

theorem Dismantling.step {name : String} {rest : List String} {s : World}
    (loop : Dismantling leak env key entry start (name :: rest) s) :
    ∃ s', releaseListed entry name env s = (.ok (), s') ∧
      Dismantling leak env key entry start rest s' := by
  obtain ⟨ids, releasing⟩ := loop.releasing
  obtain ⟨id, named⟩ := releasing.listed name List.mem_cons_self
  obtain ⟨s', ws', run, plane, logged, sub, complete⟩ :=
    releaseBackend_run name id env s (releasing.inside named)
  have services : s'.plane.services = s.plane.services := by rw [plane, unreference_services]
  -- The list without the name, as letting go of it would leave it.
  have after : s'.plane.asListing key entry (ids.erase name) =
      (s.plane.asListing key entry ids).letGo key name id := by
    unfold Dataplane.letGo Dataplane.asListing
    rw [unreference_withServices, ← plane]
    have here : (Dataplane.asListing { s'.plane with services := s.plane.services } key entry
        ids).services.get? key = some (entry.listing ids) := FMap.get?_insert_self _ _ _
    have changed := modifyEntry_of_found here (ServiceEntry.unlist name)
    unfold Dataplane.asListing at changed
    rw [changed, services, FMap.insert_insert_self]
    rfl
  refine ⟨s', ?_, services.trans loop.services, ids.erase name, ?_⟩
  · simp only [releaseListed, named, run]
  · refine releasing.letGo named rfl ?_ logged sub ?_
    · rw [withPlane_plane, after]
      rfl
    · intro reliable
      rcases complete with all | ⟨w, _, fails⟩
      · exact all
      · exact absurd fails (reliable w)

theorem Dismantling.fixed {rest : List String} {s : World}
    (loop : Dismantling leak env key entry start rest s) :
    s.plane.dp = start.plane.dp ∧ s.plane.numCPU = start.plane.numCPU := by
  obtain ⟨ids, releasing⟩ := loop.releasing
  obtain ⟨_, _, settling, _⟩ := releasing.settling
  have dp : (s.plane.asListing key entry ids).dp = start.plane.dp := by
    rw [← withPlane_plane s (s.plane.asListing key entry ids), settling.rest]
  have cpus : (s.plane.asListing key entry ids).numCPU = start.plane.numCPU := by
    rw [← withPlane_plane s (s.plane.asListing key entry ids), settling.rest]
  exact ⟨dp, cpus⟩

end Dismantle

/-- A write of the second half of a removal: keys, parameters, limit and counters of the VIP. -/
inductive RemoveWrite (p : Dataplane) (entry : ServiceEntry) : MapWrite → Prop
  | key {ip : IP} {w : MapWrite} (parsed : parseIP entry.vip.address = some ip)
    (listed : w ∈ vipDeletes entry.vip ip) : RemoveWrite p entry w
  | config : RemoveWrite p entry (.setServiceConfig entry.serviceID .zero)
  | limit {w : MapWrite} (listed : w ∈ limitWrites p entry.serviceID default) :
    RemoveWrite p entry w
  | drops : RemoveWrite p entry (.resetDropStats entry.serviceID)

/-- What a removal has done: first to the backends, then to the VIP's own entries. -/
structure Removed (leak : String → Nat) (env : Env) (key : String) (entry : ServiceEntry)
    (p q : Dataplane) (ws₁ ws₂ : List MapWrite) : Prop where
  rest : q = { p with
    services := q.services, backendStates := q.backendStates, backendAlloc := q.backendAlloc,
    serviceAlloc := q.serviceAlloc, maglevAlloc := q.maglevAlloc, unclaimed := q.unclaimed }
  unclaimed : q.unclaimed = p.unclaimed.erase key
  gone : q.services.get? key = none
  others : ∀ k, k ≠ key → q.services.get? k = p.services.get? k
  lineage : ∀ {id st'}, q.backendStates.get? id = some st' →
    ∃ st, p.backendStates.get? id = some st ∧ st'.Continues st
  owned : Owned leak q
  released : ∀ w ∈ ws₁, Touch key FMap.empty p q w
  kinds : ∀ w ∈ ws₂, RemoveWrite p entry w
  described : ∀ m, Described p m → Described q (replay (ws₁ ++ ws₂) m)
  image : env.Reliable → ∀ m, BackendImage p m → BackendImage q (replay ws₁ m)
  /-- Where nothing fails the keys go, the parameters are zeroed and the limit is cleared. -/
  complete : env.Reliable → ∀ ip, parseIP entry.vip.address = some ip →
    (entry.vip.isRange = true → p.hasRangeMap ip = true) →
    ∃ drops, ws₂ = vipDeletes entry.vip ip ++ .setServiceConfig entry.serviceID .zero ::
        (limitWrites p entry.serviceID default ++ drops) ∧
      ∀ w ∈ drops, w = .resetDropStats entry.serviceID

theorem RemoveWrite.apply_backend {p : Dataplane} {entry : ServiceEntry} {w : MapWrite}
    (kind : RemoveWrite p entry w) (m : Maps) : (w.apply m).backend = m.backend := by
  cases kind with
  | key _ listed =>
    unfold vipDeletes at listed
    split at listed
    · obtain ⟨b, _, rfl⟩ := List.mem_map.mp listed
      rfl
    · rw [List.mem_singleton.mp listed]
      rfl
  | config => rfl
  | limit listed =>
    unfold limitWrites at listed
    split at listed
    · rw [List.mem_singleton.mp listed]
      rfl
    · cases listed
  | drops => rfl

theorem RemoveWrite.congr {p q : Dataplane} {entry : ServiceEntry} {w : MapWrite}
    (kind : RemoveWrite q entry w)
    (limits : limitWrites q entry.serviceID default = limitWrites p entry.serviceID default) :
    RemoveWrite p entry w := by
  cases kind with
  | key parsed listed => exact .key parsed listed
  | config => exact .config
  | limit listed => exact .limit (limits ▸ listed)
  | drops => exact .drops

theorem clearService_run {entry : ServiceEntry} (inside : entry.serviceID < maxVIPs) (env : Env)
    (s : World) :
    ∃ s' ws, clearService entry env s = (.ok (), s') ∧
      s'.plane = s.plane ∧ Logged s s' ws ∧ (∀ w ∈ ws, RemoveWrite s.plane entry w) ∧
      (env.Reliable → ∀ ip, parseIP entry.vip.address = some ip →
        (entry.vip.isRange = true → s.plane.hasRangeMap ip = true) →
        ∃ drops, ws = vipDeletes entry.vip ip ++ .setServiceConfig entry.serviceID .zero ::
            (limitWrites s.plane entry.serviceID default ++ drops) ∧
          ∀ w ∈ drops, w = .resetDropStats entry.serviceID) := by
  obtain ⟨s₁, ws₁, run₁, plane₁, logged₁, kinds₁, all₁⟩ := vipMapDelete_run entry.vip env s
  obtain ⟨s₂, ws₂, run₂, plane₂, logged₂, outcome₂⟩ :=
    ignoring_write (.setServiceConfig entry.serviceID .zero) env s₁
  obtain ⟨s₃, ws₃, plane₃, logged₃, outcome₃⟩ :=
    applyServiceRateLimit_run inside default env s₂
  rw [plane₂, plane₁] at outcome₃
  have run₃ : Effect.ignoring (applyServiceRateLimit entry.serviceID default) env s₂ =
      (.ok (), s₃) := by
    rcases outcome₃ with ⟨run, _⟩ | ⟨⟨e, run⟩, _⟩
    · simp only [Effect.ignoring, run]
    · simp only [Effect.ignoring, run]
  obtain ⟨s₄, ws₄, run₄, plane₄, logged₄, kinds₄⟩ := resetDropStats_run entry.serviceID env s₃
  refine ⟨s₄, ws₁ ++ (ws₂ ++ (ws₃ ++ ws₄)), ?_, ?_, ?_, ?_, ?_⟩
  · simp only [clearService, Effect.bind_apply, run₁, run₂, run₃, run₄]
  · rw [plane₄, plane₃, plane₂, plane₁]
  · exact logged₁.trans (logged₂.trans (logged₃.trans logged₄))
  · intro w member
    rcases List.mem_append.mp member with first | member
    · obtain ⟨ip, parsed, listed⟩ := kinds₁ w first
      exact .key parsed listed
    rcases List.mem_append.mp member with second | member
    · rcases outcome₂ with rfl | ⟨rfl, _⟩
      · rw [List.mem_singleton.mp second]
        exact .config
      · cases second
    rcases List.mem_append.mp member with third | fourth
    · rcases outcome₃ with ⟨_, _, rfl⟩ | ⟨_, rfl, _⟩
      · exact .limit third
      · cases third
    · rw [kinds₄ w fourth]
      exact .drops
  · intro reliable ip parsed range
    refine ⟨ws₄, ?_, kinds₄⟩
    have second : ws₂ = [.setServiceConfig entry.serviceID .zero] := by
      rcases outcome₂ with same | ⟨_, fails⟩
      · exact same
      · exact absurd (fails (by simpa [MapWrite.inBounds] using inside)) (reliable _)
    have third : ws₃ = limitWrites s.plane entry.serviceID default := by
      rcases outcome₃ with ⟨_, _, same⟩ | ⟨_, _, ⟨_, limited⟩ | ⟨w, _, fails⟩⟩
      · exact same
      · cases limited
      · exact absurd fails (reliable w)
    rw [all₁ reliable ip parsed range, second, third]
    rfl

/-- The control state after a removal, from the one its loop ended in. -/
theorem Dismantling.finish {leak : String → Nat} {env : Env} {key : String} {entry : ServiceEntry}
    {s t : World} (owned : Owned leak s.plane) (found : s.plane.services.get? key = some entry)
    (loop : Dismantling leak env key entry s [] t) {q : Dataplane}
    (final : q = (t.plane.claim key).drop key entry) :
    ∃ ws₁, Logged s t ws₁ ∧ ∀ ws₂, (∀ w ∈ ws₂, RemoveWrite s.plane entry w) →
      (env.Reliable → ∀ ip, parseIP entry.vip.address = some ip →
        (entry.vip.isRange = true → s.plane.hasRangeMap ip = true) →
        ∃ drops, ws₂ = vipDeletes entry.vip ip ++ .setServiceConfig entry.serviceID .zero ::
            (limitWrites s.plane entry.serviceID default ++ drops) ∧
          ∀ w ∈ drops, w = .resetDropStats entry.serviceID) →
      Removed leak env key entry s.plane q ws₁ ws₂ := by
  obtain ⟨ids, releasing⟩ := loop.releasing
  obtain ⟨ws₁, logged, settling, image⟩ := releasing.settling
  simp only [withPlane_plane] at settling image
  have rest := settling.rest
  -- Field by field, the loop's control state differs from the start in states and IDs only.
  have maglev : (t.plane.asListing key entry ids).maglevAlloc = s.plane.maglevAlloc := by rw [rest]
  have service : (t.plane.asListing key entry ids).serviceAlloc = s.plane.serviceAlloc := by rw [rest]
  have services : q.services = s.plane.services.erase key := by
    rw [final]
    exact congrArg (fun m => FMap.erase m key) loop.services
  have states : q.backendStates = (t.plane.asListing key entry ids).backendStates := by rw [final]; rfl
  have alloc : q.backendAlloc = (t.plane.asListing key entry ids).backendAlloc := by rw [final]; rfl
  have others : ∀ k, k ≠ key → q.services.get? k = s.plane.services.get? k := by
    intro k differ
    rw [services, FMap.get?_erase_of_ne _ differ]
  have ghost : (t.plane.asListing key entry ids).services.get? key = some (entry.listing ids) :=
    FMap.get?_insert_self _ _ _
  have listed : ∀ {k name id}, Lists q k name id →
      Lists (t.plane.asListing key entry ids) k name id := by
    rintro k name id ⟨e, stored, lists⟩
    rw [services, FMap.get?_erase] at stored
    split at stored
    · cases stored
    · rename_i differ
      exact (settling.lists_of_ne differ).mpr ⟨e, stored, lists⟩
  have backends : BackendsOwned leak q := by
    have empty : ∀ name, (entry.listing ids).backendIDs.get? name = none := by
      intro name
      cases lists : (entry.listing ids).backendIDs.get? name with
      | none => rfl
      | some id =>
        obtain ⟨_, keep | member⟩ := (releasing.lists name id).mp ⟨_, ghost, lists⟩
        · cases keep
        · cases member
    refine (settling.owned.dropService ghost empty).congr ?_ (fun j => by rw [states]) alloc
    intro k
    rw [services]
    unfold Dataplane.asListing
    dsimp only
    rw [FMap.erase_insert_self, loop.services]
  refine ⟨ws₁, logged, fun ws₂ kinds complete => ?_⟩
  have plane : t.plane = { s.plane with
      services := t.plane.services, backendStates := t.plane.backendStates
      backendAlloc := t.plane.backendAlloc } := by
    have back : t.plane = { t.plane.asListing key entry ids with services := t.plane.services } := rfl
    rw [back, rest]
  refine { rest := ?_, unclaimed := ?_, gone := ?_, others := others, lineage := ?_,
           owned := ⟨backends, ?_, ?_, ?_⟩, released := ?_, kinds := kinds, described := ?_,
           image := ?_, complete := complete }
  · rw [final, plane]
    rfl
  · rw [final, plane]
    rfl
  · rw [services, FMap.get?_erase_self]
  · intro id st' stored
    rw [states] at stored
    rcases settling.lineage stored with continues | ⟨_, wanted, _⟩
    · exact continues
    · cases wanted
  · refine (owned.services.drop key).congr (fun k => by rw [services]) ?_
    rw [final]
    exact congrArg (fun a => IdAllocator.release a key) service
  · refine (Tiled.free (owned.tiled.drop (a := s.plane.serviceAlloc) found)).congr
      (fun k => by rw [services]) ?_
    rw [final]
    exact congrArg (fun a => ExtentAllocator.freeExtent a entry.extent) maglev
  · intro k e stored
    rw [services, FMap.get?_erase] at stored
    split at stored
    · cases stored
    · exact owned.sized stored
  · intro w member
    cases settling.writes w member with
    | delete freed isV4 => exact .delete freed isV4
    | down freed => exact .down freed
    | describe wanted _ _ _ => cases wanted
    | health wanted _ _ => cases wanted
  · intro m described
    rw [replay_append]
    refine replay_preserves ?_ ((settling.described m described).congr listed)
    intro w member m' described' k name id lists
    rw [(kinds w member).apply_backend]
    exact described' lists
  · intro reliable m image₀
    exact (image reliable m image₀).congr states

/-- A removal tears its VIP down and never stops; removing an unknown VIP does nothing. -/
theorem removeVIP_run {leak : String → Nat} (key : String) (env : Env) {s : World}
    (owned : Owned leak s.plane) :
    (s.plane.services.get? key = none ∧ removeVIP key env s = (.ok (), s)) ∨
    ∃ entry s' ws₁ ws₂, s.plane.services.get? key = some entry ∧
      removeVIP key env s = (.ok (), s') ∧ Logged s s' (ws₁ ++ ws₂) ∧
      Removed leak env key entry s.plane s'.plane ws₁ ws₂ := by
  unfold removeVIP
  simp only [Effect.bind_apply, getPlane_apply]
  cases found : s.plane.services.get? key with
  | none => exact Or.inl ⟨rfl, rfl⟩
  | some entry =>
    right
    obtain ⟨names, s₀, walk, perm, plane₀, logged₀⟩ := iterate_run entry.backendIDs.keys env s
    have entered : Dismantling leak env key entry s names s₀ := by
      have same : ∀ k, (s.plane.asListing key entry entry.backendIDs).services.get? k =
          s.plane.services.get? k := by
        intro k
        unfold Dataplane.asListing
        dsimp only
        rw [FMap.get?_insert]
        split
        · rename_i this
          rw [this, found]
          rfl
        · rfl
      have lists : ∀ {k name id}, Lists (s.plane.asListing key entry entry.backendIDs) k name id ↔
          Lists s.plane k name id := by
        intro k name id
        unfold Lists
        rw [same]
      refine ⟨by rw [plane₀], entry.backendIDs, perm.nodup_iff.mpr entry.backendIDs.keys_nodup, ?_, ?_,
        ?_, [], logged₀, ?_, ?_⟩
      · exact fun name member => FMap.mem_keys.mp (perm.mem_iff.mp member)
      · intro name id
        rw [withPlane_plane, plane₀, lists]
        constructor
        · rintro ⟨e, stored, named⟩
          cases found.symm.trans stored
          exact ⟨named, Or.inr (perm.mem_iff.mpr (FMap.mem_keys.mpr ⟨id, named⟩))⟩
        · exact fun named => ⟨entry, found, named.1⟩
      · rw [withPlane_plane, plane₀]
        exact Nat.le_refl _
      · rw [withPlane_plane, plane₀]
        refine { rest := rfl, others := fun k _ => same k, entry := ?_, kept := ?_, only := ?_,
                 allocated := fun _ used => used, lineage := ?_, owned := ?_, writes := ?_,
                 described := ?_ }
        · intro e stored
          exact ⟨e.backendIDs, (same key).trans stored⟩
        · exact fun named _ => lists.mpr named
        · exact fun named => Or.inl (lists.mp named)
        · exact fun {_ st'} stored => Or.inl ⟨st', stored, .refl st'⟩
        · exact owned.backends.congr (fun k => by rw [same]) (fun _ => rfl) rfl
        · exact fun _ member => by cases member
        · exact fun m described => described.congr lists.mp
      · intro _ m image
        rw [withPlane_plane, plane₀]
        exact image.congr rfl
    have loop : Effect.Triple env (Dismantling leak env key entry s names)
        (Effect.forEach names (releaseListed entry))
        (fun _ => Dismantling leak env key entry s []) fun _ => False :=
      Effect.Triple.forEach (fun name rest => .of_run fun t inv => by
        obtain ⟨t', run, inv'⟩ := inv.step
        exact Or.inl ⟨(), t', run, inv'⟩) names
    rcases loop.run entered with ⟨_, t, run, done⟩ | ⟨_, _, _, impossible⟩
    · obtain ⟨s₂, ws₂, run₂, plane₂, logged₂, kinds₂, complete₂⟩ :=
        clearService_run (owned.services.id_lt found) env (t.withPlane (t.plane.claim key))
      obtain ⟨ws₁, logged₁, removed⟩ := @Dismantling.finish leak env key entry s t owned found done
        (s₂.plane.drop key entry) (by rw [plane₂]; rfl)
      obtain ⟨dp, cpus⟩ := done.fixed
      -- The clearing writes read only what the loop left alone.
      have limits : limitWrites (t.plane.claim key) entry.serviceID default =
          limitWrites s.plane entry.serviceID default := limitWrites_congr dp cpus _ _
      have ranges : ∀ ip, (t.plane.claim key).hasRangeMap ip = s.plane.hasRangeMap ip :=
        hasRangeMap_congr dp
      simp only [withPlane_plane, limits, ranges] at complete₂
      refine ⟨entry, s₂.withPlane (s₂.plane.drop key entry), ws₁, ws₂, rfl, ?_,
        logged₁.trans logged₂, removed ws₂ ?_ complete₂⟩
      · simp only [Effect.bind_apply, walk, run, modifyPlane_apply, run₂]
      · intro w member
        exact (kinds₂ w member).congr limits
    · exact impossible.elim

end Rivora

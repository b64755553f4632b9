import Rivora.Proofs.SettleSteps

/-! The two loops that settle a VIP's backends, whatever fails. -/

namespace Rivora

variable {s : World} {name : String} {rest : List String} {id : Nat} {b : Backend}

theorem iterate_run (keys : List String) (env : Env) (s : World) :
    ∃ names s', iterate keys env s = (.ok names, s') ∧ names.Perm keys ∧ s'.plane = s.plane ∧
      Logged s s' [] :=
  ⟨_, s.tick, rfl, env.order_perm _ _, rfl, by simp [Logged]⟩

theorem getEntry_run {key : String} {entry : ServiceEntry}
    (found : s.plane.services.get? key = some entry) (env : Env) :
    getEntry key env s = (.ok entry, s) := by
  simp only [getEntry, Effect.read_apply, found, Option.getD_some]

theorem unreference_size_le (p : Dataplane) (name : String) (id : Nat) :
    (p.unreference name id).backendAlloc.ids.size ≤ p.backendAlloc.ids.size := by
  unfold Dataplane.unreference
  split
  · omega
  · split
    · exact Nat.le_refl _
    · exact IdAllocator.size_release_le _ _

section Release

variable (leak : String → Nat) (env : Env) (key : String) (desired : FMap String Backend)
  (entry : ServiceEntry) (start : World)

/-- The release loop with some names still to visit. -/
structure Releasing (rest : List String) (s : World) : Prop where
  distinct : rest.Nodup
  listed : ∀ name ∈ rest, ∃ id, entry.backendIDs.get? name = some id
  lists : ∀ name id, Lists s.plane key name id ↔
    entry.backendIDs.get? name = some id ∧ (desired.contains name = true ∨ name ∈ rest)
  room : s.plane.backendAlloc.ids.size ≤ start.plane.backendAlloc.ids.size
  settling : ∃ ws, Logged start s ws ∧ Settling leak key desired start.plane s.plane ws ∧
    (env.Reliable → ∀ m, BackendImage start.plane m → BackendImage s.plane (replay ws m))

variable {leak env key desired entry start}

theorem Releasing.letGo {s' : World}
    (loop : Releasing leak env key desired entry start (name :: rest) s)
    (named : entry.backendIDs.get? name = some id) (unwanted : desired.contains name = false)
    (plane : s'.plane = s.plane.letGo key name id) {ws' : List MapWrite} (logged' : Logged s s' ws')
    (sub : ws'.Sublist (releaseWrites s.plane id))
    (complete : env.Reliable → ws' = releaseWrites s.plane id) :
    Releasing leak env key desired entry start rest s' := by
  obtain ⟨fresh, distinct⟩ := List.nodup_cons.mp loop.distinct
  obtain ⟨ws, logged, settling, image⟩ := loop.settling
  have mine : Lists s.plane key name id :=
    (loop.lists name id).mpr ⟨named, Or.inr List.mem_cons_self⟩
  refine ⟨distinct, fun n member => loop.listed n (List.mem_cons_of_mem name member), ?_, ?_,
    ws ++ ws', logged.trans logged', ?_, ?_⟩
  · intro other j
    rw [plane]
    constructor
    · intro lists
      obtain ⟨before, differ⟩ := lists_of_letGo lists
      obtain ⟨stored, keep | member⟩ := (loop.lists other j).mp before
      · exact ⟨stored, Or.inl keep⟩
      · rcases List.mem_cons.mp member with same | later
        · exact absurd same (differ rfl)
        · exact ⟨stored, Or.inr later⟩
    · rintro ⟨stored, remains⟩
      have differ : other ≠ name := by
        rintro rfl
        rcases remains with keep | later
        · rw [unwanted] at keep
          cases keep
        · exact fresh later
      have before : Lists s.plane key other j := by
        refine (loop.lists other j).mpr ⟨stored, ?_⟩
        rcases remains with keep | later
        · exact Or.inl keep
        · exact Or.inr (List.mem_cons_of_mem name later)
      obtain ⟨e, found, lists⟩ := before
      have found' : (s.plane.unreference name id).services.get? key = some e := by
        rw [unreference_services]
        exact found
      unfold Dataplane.letGo
      rw [lists_modifyEntry_self found', ServiceEntry.unlist, FMap.get?_erase_of_ne _ differ]
      exact lists
  · have shrunk := unreference_size_le s.plane name id
    have := loop.room
    simp only [plane, Dataplane.letGo, modifyEntry_backendAlloc]
    omega
  · rw [plane]
    exact settling.trans (Settling.release settling.owned mine unwanted sub)
  · intro reliable m image₀
    rw [replay_append, complete reliable, plane]
    exact (image reliable m image₀).letGo key name id

theorem Releasing.inside (loop : Releasing leak env key desired entry start (name :: rest) s)
    (named : entry.backendIDs.get? name = some id) : id < maxBackends := by
  obtain ⟨_, _, settling, _⟩ := loop.settling
  have mine : Lists s.plane key name id :=
    (loop.lists name id).mpr ⟨named, Or.inr List.mem_cons_self⟩
  exact settling.owned.capacity ▸
    s.plane.backendAlloc.id_lt_max (settling.owned.id_of_lists mine)

theorem Releasing.step (loop : Releasing leak env key desired entry start (name :: rest) s) :
    ∃ s', releaseUnwanted key desired entry name env s = (.ok (), s') ∧
      Releasing leak env key desired entry start rest s' := by
  obtain ⟨id, named⟩ := loop.listed name List.mem_cons_self
  unfold releaseUnwanted
  rw [named]
  dsimp only
  cases wanted : desired.contains name with
  | true =>
    -- A wanted backend stays.
    obtain ⟨_, distinct⟩ := List.nodup_cons.mp loop.distinct
    refine ⟨s, rfl, distinct, fun n member => loop.listed n (List.mem_cons_of_mem name member), ?_,
      loop.room, loop.settling⟩
    intro other j
    rw [loop.lists]
    constructor
    · rintro ⟨lists, keep | member⟩
      · exact ⟨lists, Or.inl keep⟩
      · rcases List.mem_cons.mp member with rfl | later
        · exact ⟨lists, Or.inl wanted⟩
        · exact ⟨lists, Or.inr later⟩
    · rintro ⟨lists, keep | later⟩
      · exact ⟨lists, Or.inl keep⟩
      · exact ⟨lists, Or.inr (List.mem_cons_of_mem name later)⟩
  | false =>
    obtain ⟨s₁, ws₁, run, plane, logged₁, sub, complete⟩ :=
      releaseBackend_run name id env s (loop.inside named)
    have after : (s₁.plane.modifyEntry key (ServiceEntry.unlist name)) =
        s.plane.letGo key name id := by
      rw [plane]
      rfl
    refine ⟨s₁.withPlane (s.plane.letGo key name id), ?_, ?_⟩
    · simp only [Bool.false_eq_true, if_false, Effect.bind_apply, run, modifyEntry,
        modifyPlane_apply, after]
    · refine loop.letGo named wanted rfl logged₁ sub ?_
      intro reliable
      rcases complete with all | ⟨w, _, fails⟩
      · exact all
      · exact absurd fails (reliable w)

theorem releaseMissing_run (env : Env) (desired : FMap String Backend)
    {entry : ServiceEntry} (owned : BackendsOwned leak s.plane)
    (found : s.plane.services.get? key = some entry) :
    ∃ removed s' ws, releaseMissing key desired env s = (.ok removed, s') ∧
      (removed = true ↔ ∃ name id, Lists s.plane key name id ∧ desired.contains name = false) ∧
      (∀ name id, Lists s'.plane key name id ↔
        Lists s.plane key name id ∧ desired.contains name = true) ∧
      s'.plane.backendAlloc.ids.size ≤ s.plane.backendAlloc.ids.size ∧
      Logged s s' ws ∧ Settling leak key desired s.plane s'.plane ws ∧
      (env.Reliable → ∀ m, BackendImage s.plane m → BackendImage s'.plane (replay ws m)) := by
  obtain ⟨names, s₀, walk, perm, plane₀, logged₀⟩ := iterate_run entry.backendIDs.keys env s
  have listsEntry : ∀ name id, Lists s.plane key name id ↔ entry.backendIDs.get? name = some id := by
    intro name id
    constructor
    · rintro ⟨e, stored, lists⟩
      cases found.symm.trans stored
      exact lists
    · intro lists
      exact ⟨entry, found, lists⟩
  -- Every name is still to visit at the start.
  have entered : Releasing leak env key desired entry s names s₀ := by
    refine ⟨perm.nodup_iff.mpr entry.backendIDs.keys_nodup, ?_, ?_, ?_, [], logged₀, ?_, ?_⟩
    · intro name member
      exact FMap.mem_keys.mp (perm.mem_iff.mp member)
    · intro name id
      rw [plane₀, listsEntry]
      constructor
      · intro lists
        exact ⟨lists, Or.inr (perm.mem_iff.mpr (FMap.mem_keys.mpr ⟨id, lists⟩))⟩
      · exact fun lists => lists.1
    · rw [plane₀]
    · rw [plane₀]
      exact Settling.start owned
    · intro _ m image
      rw [plane₀]
      exact image
  have loop : Effect.Triple env (Releasing leak env key desired entry s names)
      (Effect.forEach names (releaseUnwanted key desired entry))
      (fun _ => Releasing leak env key desired entry s []) fun _ => False :=
    Effect.Triple.forEach (fun name rest => .of_run fun t inv => by
      obtain ⟨t', run, inv'⟩ := inv.step
      exact Or.inl ⟨(), t', run, inv'⟩) names
  rcases loop.run entered with ⟨_, s', run, done⟩ | ⟨_, _, _, impossible⟩
  · obtain ⟨ws, logged, settling, image⟩ := done.settling
    refine ⟨names.any fun name => !desired.contains name, s', ws, ?_, ?_, ?_, done.room, logged,
      settling, image⟩
    · simp only [releaseMissing, Effect.bind_apply, getEntry_run found, walk, run, Effect.pure_apply]
    · simp only [List.any_eq_true, Bool.not_eq_true']
      constructor
      · rintro ⟨name, member, unwanted⟩
        obtain ⟨id, lists⟩ := FMap.mem_keys.mp (perm.mem_iff.mp member)
        exact ⟨name, id, (listsEntry name id).mpr lists, unwanted⟩
      · rintro ⟨name, id, lists, unwanted⟩
        have stored := (listsEntry name id).mp lists
        exact ⟨name, perm.mem_iff.mpr (FMap.mem_keys.mpr ⟨id, stored⟩), unwanted⟩
    · intro name id
      rw [done.lists, listsEntry]
      simp
  · exact impossible.elim

end Release

section Acquire

variable (leak : String → Nat) (env : Env) (key : String) (desired : FMap String Backend)
  (entry : ServiceEntry) (start : World)

/-- A write of a backend's description or health. -/
def MapWrite.AboutBackend : MapWrite → Prop
  | .setBackend _ _ | .setHealth _ _ => True
  | _ => False

/-- The acquire loop with some names still to visit. -/
structure Acquiring (rest : List String) (s : World) : Prop where
  distinct : rest.Nodup
  wanted : ∀ name ∈ rest, ∃ b, desired.get? name = some b
  kept : ∀ name id, entry.backendIDs.get? name = some id → Lists s.plane key name id
  done : ∀ name, desired.contains name = true → name ∉ rest → ∃ id, Lists s.plane key name id
  waiting : ∀ name ∈ rest, entry.backendIDs.get? name = none → ∀ id, ¬ Lists s.plane key name id
  /-- Every name visited took one more ID at most. -/
  room : s.plane.backendAlloc.ids.size + rest.length ≤
    start.plane.backendAlloc.ids.size + desired.size
  settling : ∃ ws, Logged start s ws ∧ Settling leak key desired start.plane s.plane ws ∧
    (env.Reliable → ∀ m, BackendImage start.plane m → BackendImage s.plane (replay ws m))

/--
How the acquire loop can stop.

It stops on a description, a failed write or the end of the ID space; only a new backend whose
description or entries fail leaves a reference nobody accounts for.
-/
inductive AcquireStopped (s : World) : Prop
  | clean {ws : List MapWrite} (logged : Logged start s ws)
    (settling : Settling leak key desired start.plane s.plane ws)
    (reason : (∃ name b, desired.get? name = some b ∧ ¬ b.Describable) ∨ (∃ w, env.Fails w) ∨
      maxBackends < start.plane.backendAlloc.ids.size + desired.size)
  | leaking {name : String} {b : Backend} {ws : List MapWrite} (logged : Logged start s ws)
    (settling : Settling (leakOne leak name) key desired start.plane s.plane ws)
    (wanted : desired.get? name = some b) (isNew : entry.backendIDs.get? name = none)
    (reason : ¬ b.Describable ∨ ∃ w : MapWrite, env.Fails w ∧ w.AboutBackend)

variable {leak env key desired entry start}

theorem Acquiring.refresh (loop : Acquiring leak env key desired entry start (name :: rest) s)
    (wanted : desired.get? name = some b) (named : backendName b = name)
    (held : entry.backendIDs.get? name = some id) :
    (∃ s', writeBackendInfo id b env s = (.ok (), s') ∧
        Acquiring leak env key desired entry start rest s') ∨
      ∃ e s', writeBackendInfo id b env s = (.error e, s') ∧
        AcquireStopped leak env key desired entry start s' := by
  obtain ⟨_, distinct⟩ := List.nodup_cons.mp loop.distinct
  obtain ⟨ws, logged, settling, image⟩ := loop.settling
  have owned := settling.owned
  have lists := loop.kept name id held
  have used := owned.id_of_lists lists
  obtain ⟨st, stored, stName⟩ := owned.stated used
  rcases @writeBackendInfo_run id b env s st stored with
    ⟨bad, e, run⟩ | ⟨good, ip, s', parsed, plane, ⟨run, logged'⟩ | ⟨fails, ⟨e, run⟩, logged'⟩⟩
  · exact Or.inr ⟨e, s, run, .clean logged settling (Or.inl ⟨name, b, wanted, bad⟩)⟩
  · -- The description was written again.
    have step : Settling leak key desired s.plane s'.plane
        [infoWrite id ip b.port ((s.plane.noteMAC id b).storedMAC id)] := by
      rw [plane]
      refine Settling.describe owned wanted named used parsed ?_
      exact (List.Sublist.refl [_]).append (List.nil_sublist [_])
    have same : ∀ {other j}, Lists s'.plane key other j ↔ Lists s.plane key other j := by
      intro other j
      unfold Lists
      rw [plane, noteMAC_rest]
    have alloc : s'.plane.backendAlloc = s.plane.backendAlloc := by rw [plane, noteMAC_rest]
    refine Or.inl ⟨s', run, distinct, ?_, ?_, ?_, ?_, ?_, _, logged.trans logged',
      settling.trans step, ?_⟩
    · exact fun other member => loop.wanted other (List.mem_cons_of_mem name member)
    · exact fun other j before => same.mpr (loop.kept other j before)
    · intro other keep visited
      by_cases this : other = name
      · exact ⟨id, same.mpr (this ▸ lists)⟩
      · obtain ⟨j, lists'⟩ := loop.done other keep (by simp [this, visited])
        exact ⟨j, same.mpr lists'⟩
    · intro other member isNew j lists'
      exact loop.waiting other (List.mem_cons_of_mem name member) isNew j (same.mp lists')
    · have := loop.room
      rw [alloc]
      simp only [List.length_cons] at this
      omega
    · intro reliable m image₀
      rw [replay_append, plane]
      exact (image reliable m image₀).refresh owned stored (named.trans stName.symm) parsed
  · -- The write failed, though the hardware address was noted.
    refine Or.inr ⟨e, s', run, .clean (logged.trans logged') (settling.trans ?_)
      (Or.inr (Or.inl ⟨_, fails⟩))⟩
    rw [plane]
    exact Settling.describe owned wanted named used parsed (List.nil_sublist _)

theorem acquireWrites_denote (p : Dataplane) {ip : IP}
    (named : backendName b = name) (parsed : parseIP b.address = some ip) (m : Maps) :
    ∃ info, (replay (acquireWrites p id ip b.port) m).backend.get? ⟨info.addr.isV4, id⟩ = some info ∧
      Denotes info name :=
  ⟨⟨ip.toAddr, htons b.port, p.storedMAC id⟩, FMap.get?_insert_self _ _ _,
    b, ip, named, parsed, rfl, rfl⟩

/-- A turn of the acquire loop for a backend the VIP does not list yet. -/
theorem Acquiring.acquire (loop : Acquiring leak env key desired entry start (name :: rest) s)
    (wanted : desired.get? name = some b) (named : backendName b = name)
    (isNew : entry.backendIDs.get? name = none) {e₀ : ServiceEntry}
    (programmed : start.plane.services.get? key = some e₀) :
    (∃ s', acquireOrRefresh key desired entry name env s = (.ok (), s') ∧
        Acquiring leak env key desired entry start rest s') ∨
      ∃ e s', acquireOrRefresh key desired entry name env s = (.error e, s') ∧
        AcquireStopped leak env key desired entry start s' := by
  obtain ⟨fresh, distinct⟩ := List.nodup_cons.mp loop.distinct
  obtain ⟨ws, logged, settling, image⟩ := loop.settling
  have owned := settling.owned
  have contained : desired.contains name = true := by rw [FMap.contains, wanted]; rfl
  have room := loop.room
  simp only [List.length_cons] at room
  unfold acquireOrRefresh
  rw [wanted, isNew]
  simp only [Effect.bind_apply, Effect.mapError]
  rcases acquireBackend_run name b env s owned.capacity with
    ⟨text, e, full, run⟩ | ⟨id, alloc, allocated, outcome⟩
  · -- No ID is left, so the names in use fill the ID space.
    have exhausted : maxBackends ≤ s.plane.backendAlloc.ids.size := by
      by_contra some_left
      obtain ⟨id, a', allocated⟩ := s.plane.backendAlloc.alloc_of_room name
        (by rw [owned.capacity]; omega)
      rw [allocated] at full
      cases full
    rw [run]
    exact Or.inr ⟨_, s, rfl, .clean logged settling (Or.inr (Or.inr (by omega)))⟩
  · have referenced : Settling (leakOne leak name) key desired s.plane
        (s.plane.acquired alloc id b) [] := Settling.reference owned wanted named allocated
    have used : (s.plane.acquired alloc id b).backendAlloc.ids.get? name = some id :=
      IdAllocator.get?_of_alloc allocated
    rcases outcome with ⟨bad, e, s', run, plane, logged'⟩ | ⟨good, ip, s', parsed, plane, outcome⟩
    · rw [run]
      refine Or.inr ⟨_, s', rfl, .leaking (logged.trans logged') ?_ wanted isNew (Or.inl bad)⟩
      rw [plane]
      exact settling.trans referenced
    · have described : ∀ {ws'}, ws'.Sublist (acquireWrites s'.plane id ip b.port) →
          Settling (leakOne leak name) key desired start.plane s'.plane (ws ++ ws') := by
        intro ws' sub
        rw [plane] at sub ⊢
        exact settling.trans
          (referenced.trans (Settling.describe referenced.owned wanted named used parsed sub))
      rcases outcome with ⟨run, logged'⟩ | ⟨⟨w, planned, fails⟩, ⟨e, run⟩, ws', logged', sub⟩
      · -- Both entries are written, and the VIP lists the backend.
        rw [run]
        have whole := described (List.Sublist.refl _)
        have services : s'.plane.services = s.plane.services := by rw [plane, noteMAC_rest]; rfl
        have used' : s'.plane.backendAlloc.ids.get? name = some id := by
          rw [plane, noteMAC_rest]
          exact used
        obtain ⟨ids, found⟩ := settling.entry programmed
        have absent : ids.get? name = none := by
          cases lists : ids.get? name with
          | none => rfl
          | some j =>
            exact absurd ⟨_, found, lists⟩ (loop.waiting name List.mem_cons_self isNew j)
        have found' : s'.plane.services.get? key = some { e₀ with backendIDs := ids } := by
          rw [services]
          exact found
        have listed := whole.list found' absent contained used' (by
          intro m
          rw [replay_append]
          exact acquireWrites_denote s'.plane named parsed _)
        have lists : ∀ {other j}, Lists (s'.plane.modifyEntry key (ServiceEntry.list name id))
            key other j ↔ (ids.insert name id).get? other = some j := by
          intro other j
          rw [lists_modifyEntry_self found']
          rfl
        have before : ∀ {other j}, Lists s.plane key other j ↔ ids.get? other = some j := by
          intro other j
          constructor
          · rintro ⟨e', stored, lists'⟩
            cases found.symm.trans stored
            exact lists'
          · exact fun lists' => ⟨_, found, lists'⟩
        refine Or.inl ⟨_, rfl, distinct, ?_, ?_, ?_, ?_, ?_, _, logged.trans logged', listed, ?_⟩
        · exact fun other member => loop.wanted other (List.mem_cons_of_mem name member)
        · intro other j held
          have differ : other ≠ name := by
            rintro rfl
            rw [isNew] at held
            cases held
          rw [withPlane_plane, lists, FMap.get?_insert_of_ne _ _ differ, ← before]
          exact loop.kept other j held
        · intro other keep visited
          by_cases this : other = name
          · refine ⟨id, lists.mpr ?_⟩
            rw [this, FMap.get?_insert_self]
          · obtain ⟨j, lists'⟩ := loop.done other keep (by simp [this, visited])
            refine ⟨j, lists.mpr ?_⟩
            rw [FMap.get?_insert_of_ne _ _ this, ← before]
            exact lists'
        · intro other member isNew' j lists'
          have differ : other ≠ name := by
            rintro rfl
            exact fresh member
          rw [withPlane_plane, lists, FMap.get?_insert_of_ne _ _ differ, ← before] at lists'
          exact loop.waiting other (List.mem_cons_of_mem name member) isNew' j lists'
        · have grown := IdAllocator.size_alloc_le allocated
          have same : (s'.plane.modifyEntry key (ServiceEntry.list name id)).backendAlloc = alloc := by
            rw [modifyEntry_backendAlloc, plane, noteMAC_rest]
            rfl
          rw [withPlane_plane, same]
          omega
        · intro reliable m image₀
          rw [replay_append, withPlane_plane, plane]
          exact ((image reliable m image₀).acquire owned named allocated parsed).congr
            (modifyEntry_backendStates _ _ _)
      · rw [run]
        refine Or.inr ⟨_, s', rfl, .leaking (logged.trans logged') (described sub) wanted isNew
          (Or.inr ⟨w, fails, ?_⟩)⟩
        rcases List.mem_cons.mp planned with rfl | other
        · exact trivial
        · rw [List.mem_singleton.mp other]
          exact trivial

/-- The acquire loop puts every wanted backend on the VIP's list, or stops. -/
theorem acquireDesired_run (env : Env) (owned : BackendsOwned leak s.plane)
    (found : s.plane.services.get? key = some entry)
    (named : ∀ name b, desired.get? name = some b → backendName b = name)
    (within : ∀ name id, Lists s.plane key name id → desired.contains name = true) :
    (∃ added s' ws, acquireDesired key desired env s = (.ok added, s') ∧
      (added = true ↔ ∃ name, desired.contains name = true ∧ ∀ id, ¬ Lists s.plane key name id) ∧
      (∀ name, desired.contains name = true ↔ ∃ id, Lists s'.plane key name id) ∧
      Logged s s' ws ∧ Settling leak key desired s.plane s'.plane ws ∧
      (env.Reliable → ∀ m, BackendImage s.plane m → BackendImage s'.plane (replay ws m))) ∨
    ∃ e s', acquireDesired key desired env s = (.error e, s') ∧
      AcquireStopped leak env key desired entry s s' := by
  obtain ⟨names, s₀, walk, perm, plane₀, logged₀⟩ := iterate_run desired.keys env s
  have listsEntry : ∀ name id, Lists s.plane key name id ↔ entry.backendIDs.get? name = some id := by
    intro name id
    constructor
    · rintro ⟨e, stored, lists⟩
      cases found.symm.trans stored
      exact lists
    · intro lists
      exact ⟨entry, found, lists⟩
  have entered : Acquiring leak env key desired entry s names s₀ := by
    refine ⟨perm.nodup_iff.mpr desired.keys_nodup, ?_, ?_, ?_, ?_, ?_, [], logged₀, ?_, ?_⟩
    · intro name member
      exact FMap.mem_keys.mp (perm.mem_iff.mp member)
    · intro name id held
      rw [plane₀]
      exact (listsEntry name id).mpr held
    · intro name keep visited
      exact absurd (perm.mem_iff.mpr (FMap.contains_iff.mp keep)) visited
    · intro name _ isNew id lists
      rw [plane₀, listsEntry, isNew] at lists
      cases lists
    · rw [plane₀, perm.length_eq, FMap.length_keys]
    · rw [plane₀]
      exact Settling.start owned
    · intro _ m image
      rw [plane₀]
      exact image
  have loop : Effect.Triple env (Acquiring leak env key desired entry s names)
      (Effect.forEach names (acquireOrRefresh key desired entry))
      (fun _ => Acquiring leak env key desired entry s [])
      (AcquireStopped leak env key desired entry s) := by
    refine Effect.Triple.forEach (fun name rest => .of_run fun t inv => ?_) names
    obtain ⟨b, wanted⟩ := inv.wanted name List.mem_cons_self
    cases held : entry.backendIDs.get? name with
    | none =>
      rcases inv.acquire wanted (named name b wanted) held found with ⟨t', run, inv'⟩ | stop
      · exact Or.inl ⟨(), t', run, inv'⟩
      · exact Or.inr stop
    | some id =>
      have body : acquireOrRefresh key desired entry name = writeBackendInfo id b := by
        simp only [acquireOrRefresh, wanted, held]
      rw [body]
      rcases inv.refresh wanted (named name b wanted) held with ⟨t', run, inv'⟩ | stop
      · exact Or.inl ⟨(), t', run, inv'⟩
      · exact Or.inr stop
  rcases loop.run entered with ⟨_, s', run, done⟩ | ⟨e, s', run, stop⟩
  · obtain ⟨ws, logged, settling, image⟩ := done.settling
    refine Or.inl ⟨names.any fun name => !entry.backendIDs.contains name, s', ws, ?_, ?_, ?_, logged,
      settling, image⟩
    · simp only [acquireDesired, Effect.bind_apply, getEntry_run found, walk, run, Effect.pure_apply]
    · simp only [List.any_eq_true, Bool.not_eq_true']
      constructor
      · rintro ⟨name, member, isNew⟩
        refine ⟨name, FMap.contains_iff.mpr (perm.mem_iff.mp member), ?_⟩
        intro id lists
        rw [FMap.contains, (listsEntry name id).mp lists] at isNew
        cases isNew
      · rintro ⟨name, keep, isNew⟩
        refine ⟨name, perm.mem_iff.mpr (FMap.contains_iff.mp keep), ?_⟩
        cases held : entry.backendIDs.get? name with
        | none => rw [FMap.contains, held]; rfl
        | some id => exact absurd ((listsEntry name id).mpr held) (isNew id)
    · intro name
      constructor
      · exact fun keep => done.done name keep (by simp)
      · rintro ⟨id, lists⟩
        rcases settling.only lists with before | keep
        · exact within name id before
        · exact keep
  · refine Or.inr ⟨e, s', ?_, stop⟩
    simp only [acquireDesired, Effect.bind_apply, getEntry_run found, walk, run]

end Acquire

end Rivora

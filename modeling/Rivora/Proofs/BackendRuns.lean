import Rivora.Dataplane.Vips
import Rivora.Proofs.Owned

/-! What each backend operation does to the control state and the kernel maps, whatever fails. -/

namespace Rivora

/-- The writes a computation makes are put behind those made before. -/
def Logged (s s' : World) (ws : List MapWrite) : Prop := s'.writes = s.writes ++ ws

@[simp] theorem tick_plane (s : World) : s.tick.plane = s.plane := rfl

@[simp] theorem tick_writes (s : World) : s.tick.writes = s.writes := rfl

@[simp] theorem withPlane_plane (s : World) (p : Dataplane) : (s.withPlane p).plane = p := rfl

@[simp] theorem withPlane_writes (s : World) (p : Dataplane) : (s.withPlane p).writes = s.writes :=
  rfl

@[simp] theorem getPlane_apply (env : Env) (s : World) : getPlane env s = (.ok s.plane, s) := rfl

@[simp] theorem modifyPlane_apply (f : Dataplane → Dataplane) (env : Env) (s : World) :
    modifyPlane f env s = (.ok (), s.withPlane (f s.plane)) := rfl

/-- A write that succeeds is within bounds and logged. -/
theorem write_ok {w : MapWrite} {env : Env} {s s' : World} {u : Unit}
    (run : write w env s = (.ok u, s')) :
    w.inBounds = true ∧ s'.plane = s.plane ∧ Logged s s' [w] := by
  unfold write at run
  split at run
  · cases run
  · split at run
    · rename_i inside
      cases run
      exact ⟨inside, rfl, rfl⟩
    · cases run

/-- A write that fails changes nothing. -/
theorem write_error {w : MapWrite} {env : Env} {s s' : World} {e : GoError}
    (run : write w env s = (.error e, s')) :
    (w.inBounds = true → env.Fails w) ∧ s'.plane = s.plane ∧ Logged s s' [] := by
  unfold write at run
  split at run
  · rename_i text failed
    cases run
    exact ⟨fun _ => ⟨s.clock, by simp [failed]⟩, rfl, by simp [Logged]⟩
  · split at run
    · cases run
    · rename_i outside
      cases run
      exact ⟨fun inside => absurd inside outside, rfl, by simp [Logged]⟩

theorem ignoring_write (w : MapWrite) (env : Env) (s : World) :
    ∃ s' ws, Effect.ignoring (write w) env s = (.ok (), s') ∧ s'.plane = s.plane ∧
      Logged s s' ws ∧ (ws = [w] ∨ ws = [] ∧ (w.inBounds = true → env.Fails w)) := by
  unfold Effect.ignoring
  rcases run : write w env s with ⟨_ | u, s'⟩
  · obtain ⟨fails, plane, logged⟩ := write_error run
    exact ⟨s', [], rfl, plane, logged, Or.inr ⟨rfl, fails⟩⟩
  · obtain ⟨_, plane, logged⟩ := write_ok run
    exact ⟨s', [w], rfl, plane, logged, Or.inl rfl⟩

theorem Logged.trans {s s' s'' : World} {ws ws' : List MapWrite} (first : Logged s s' ws)
    (second : Logged s' s'' ws') : Logged s s'' (ws ++ ws') := by
  rw [Logged, second, first, List.append_assoc]

/-- The writes that go with dropping a reference: none while others remain. -/
def releaseWrites (p : Dataplane) (id : Nat) : List MapWrite :=
  match p.backendStates.get? id with
  | none => []
  | some st =>
    if st.refCount - 1 > 0 then [] else [.deleteBackend ⟨st.isV4, id⟩, .setHealth id .down]

/-- A release always succeeds. -/
theorem releaseBackend_run (name : String) (id : Nat) (env : Env) (s : World)
    (inside : id < maxBackends) :
    ∃ s' ws, releaseBackend name id env s = (.ok (), s') ∧
      s'.plane = s.plane.unreference name id ∧ Logged s s' ws ∧
      ws.Sublist (releaseWrites s.plane id) ∧
      (ws = releaseWrites s.plane id ∨ ∃ w ∈ releaseWrites s.plane id, env.Fails w) := by
  unfold releaseBackend releaseWrites Dataplane.unreference
  simp only [Effect.bind_apply, getPlane_apply]
  cases found : s.plane.backendStates.get? id with
  | none => exact ⟨s, [], rfl, rfl, by simp [Logged], List.Sublist.refl _, Or.inl rfl⟩
  | some st =>
    dsimp only
    by_cases remaining : st.refCount - 1 > 0
    · simp only [if_pos remaining]
      exact ⟨_, [], rfl, rfl, by simp [Logged], List.Sublist.refl _, Or.inl rfl⟩
    · -- The state goes first, then the two entries, then the ID.
      simp only [if_neg remaining, Effect.bind_apply, modifyPlane_apply]
      obtain ⟨s₁, ws₁, run₁, plane₁, logged₁, first⟩ := ignoring_write
        (.deleteBackend ⟨st.isV4, id⟩) env
        (s.withPlane { s.plane with backendStates := s.plane.backendStates.erase id })
      obtain ⟨s₂, ws₂, run₂, plane₂, logged₂, second⟩ :=
        ignoring_write (.setHealth id .down) env s₁
      simp only [run₁, run₂]
      refine ⟨_, ws₁ ++ ws₂, rfl, by simp [plane₂, plane₁], logged₁.trans logged₂, ?_, ?_⟩
      · have sub₁ : ws₁.Sublist [.deleteBackend ⟨st.isV4, id⟩] := by
          rcases first with rfl | ⟨rfl, _⟩ <;> simp
        have sub₂ : ws₂.Sublist [.setHealth id .down] := by
          rcases second with rfl | ⟨rfl, _⟩ <;> simp
        exact sub₁.append sub₂
      · rcases first with rfl | ⟨_, fails⟩
        · rcases second with rfl | ⟨_, fails⟩
          · exact Or.inl rfl
          · exact Or.inr ⟨_, by simp, fails (by simpa [MapWrite.inBounds] using inside)⟩
        · exact Or.inr ⟨_, by simp, fails rfl⟩

/-- The control state once a backend's description has been read. -/
def Dataplane.noteMAC (p : Dataplane) (id : Nat) (b : Backend) : Dataplane :=
  if b.mac ≠ "" then
    match parseMAC b.mac with
    | none => p
    | some mac => p.modifyBackend id fun st => { st with mac := mac, hasMAC := true }
  else p

theorem modifyBackend_get? (p : Dataplane) (id : Nat) (f : BackendState → BackendState) (j : Nat) :
    (p.modifyBackend id f).backendStates.get? j =
      if j = id then (p.backendStates.get? id).map f else p.backendStates.get? j := by
  unfold Dataplane.modifyBackend
  cases found : p.backendStates.get? id with
  | none =>
    dsimp only
    split
    · rename_i same
      rw [same, found, Option.map_none]
    · rfl
  | some st => simp only [FMap.get?_insert, Option.map_some]

theorem modifyBackend_rest (p : Dataplane) (id : Nat) (f : BackendState → BackendState) :
    p.modifyBackend id f = { p with backendStates := (p.modifyBackend id f).backendStates } := by
  unfold Dataplane.modifyBackend
  split <;> rfl

/-- A backend's state once its description has been read. -/
def BackendState.noteMAC (b : Backend) (st : BackendState) : BackendState :=
  match parseMAC b.mac with
  | none => st
  | some mac => if b.mac ≠ "" then { st with mac := mac, hasMAC := true } else st

theorem noteMAC_get? (p : Dataplane) (id : Nat) (b : Backend) (j : Nat) :
    (p.noteMAC id b).backendStates.get? j =
      if j = id then (p.backendStates.get? id).map (BackendState.noteMAC b)
      else p.backendStates.get? j := by
  unfold Dataplane.noteMAC BackendState.noteMAC
  have kept : (if j = id then (p.backendStates.get? id).map fun st => st
      else p.backendStates.get? j) = p.backendStates.get? j := by
    split
    · rename_i same
      rw [same, Option.map_id']
    · rfl
  by_cases named : b.mac ≠ ""
  · cases parsed : parseMAC b.mac with
    | none => simpa [named, parsed] using kept.symm
    | some mac => simpa [named, parsed] using modifyBackend_get? p id _ j
  · have unset : b.mac = "" := by simpa using named
    cases parsed : parseMAC b.mac with
    | none => simpa [unset] using kept.symm
    | some mac => simpa [unset] using kept.symm

/-- The hardware address kept for a backend. -/
def BackendState.storedMAC (st : BackendState) : Mac := if st.hasMAC then st.mac else Mac.zero

/-- The hardware address kept under an ID. -/
def Dataplane.storedMAC (p : Dataplane) (id : Nat) : Mac :=
  ((p.backendStates.get? id).map BackendState.storedMAC).getD Mac.zero

/-- A backend's description can be written: its address parses, and its hardware address if given. -/
def Backend.Describable (b : Backend) : Prop :=
  (parseIP b.address).isSome ∧ (b.mac ≠ "" → (parseMAC b.mac).isSome)

/-- The entry of a backend in the map of its family. -/
def infoWrite (id : Nat) (ip : IP) (port : UInt16) (mac : Mac) : MapWrite :=
  .setBackend ⟨ip.toAddr.isV4, id⟩ ⟨ip.toAddr, htons port, mac⟩

theorem wrapped_write_run (front : String) (w : MapWrite) (inside : w.inBounds = true) (env : Env)
    (s : World) :
    ∃ s', s'.plane = s.plane ∧
      ((Effect.mapError (GoError.wrap front) (write w) env s = (.ok (), s') ∧ Logged s s' [w]) ∨
        (env.Fails w ∧
          (∃ e, Effect.mapError (GoError.wrap front) (write w) env s = (.error e, s')) ∧
          Logged s s' [])) := by
  unfold Effect.mapError
  rcases run : write w env s with ⟨e | u, s'⟩
  · obtain ⟨fails, plane, logged⟩ := write_error run
    exact ⟨s', plane, Or.inr ⟨fails inside, ⟨_, rfl⟩, logged⟩⟩
  · obtain ⟨_, plane, logged⟩ := write_ok run
    exact ⟨s', plane, Or.inl ⟨rfl, logged⟩⟩

/-- Every way the description of a backend can be written. -/
theorem writeBackendInfo_run {id : Nat} {b : Backend} {env : Env} {s : World} {st : BackendState}
    (known : s.plane.backendStates.get? id = some st) :
    (¬ b.Describable ∧ ∃ e, writeBackendInfo id b env s = (.error e, s)) ∨
      (b.Describable ∧ ∃ ip s', parseIP b.address = some ip ∧
        s'.plane = s.plane.noteMAC id b ∧
        ((writeBackendInfo id b env s = (.ok (), s') ∧
            Logged s s' [infoWrite id ip b.port ((s.plane.noteMAC id b).storedMAC id)]) ∨
          (env.Fails (infoWrite id ip b.port ((s.plane.noteMAC id b).storedMAC id)) ∧
            (∃ e, writeBackendInfo id b env s = (.error e, s')) ∧ Logged s s' []))) := by
  unfold writeBackendInfo Backend.Describable
  cases address : parseIP b.address with
  | none => exact Or.inl ⟨by simp, _, rfl⟩
  | some ip =>
    simp only [Effect.bind_apply]
    by_cases named : b.mac = ""
    · -- No hardware address is given: what is kept is written again.
      have unchanged : s.plane.noteMAC id b = s.plane := by simp [Dataplane.noteMAC, named]
      have read : backendMAC id b env s = (.ok (s.plane.storedMAC id), s) := by
        simp only [backendMAC, named, ne_eq, not_true, if_false, Effect.bind_apply, getPlane_apply,
          known, Dataplane.storedMAC, Option.map_some, Option.getD_some]
        rfl
      refine Or.inr ⟨by simp [named], ip, ?_⟩
      rw [read, unchanged]
      obtain ⟨s', plane, outcome⟩ :=
        wrapped_write_run _ (infoWrite id ip b.port (s.plane.storedMAC id)) rfl env s
      exact ⟨s', rfl, plane, outcome⟩
    · cases parsed : parseMAC b.mac with
      | none =>
        refine Or.inl ⟨by simp [named], ?_⟩
        simp only [backendMAC, ne_eq, named, not_false_eq_true, if_true, parsed, Effect.fail_apply]
        exact ⟨_, rfl⟩
      | some mac =>
        have noted : s.plane.noteMAC id b = s.plane.modifyBackend id fun st =>
            { st with mac := mac, hasMAC := true } := by simp [Dataplane.noteMAC, named, parsed]
        have read : backendMAC id b env s =
            (.ok ((s.plane.noteMAC id b).storedMAC id), s.withPlane (s.plane.noteMAC id b)) := by
          rw [noted]
          simp only [backendMAC, ne_eq, named, not_false_eq_true, if_true, parsed,
            Effect.bind_apply, modifyPlane_apply, Effect.pure_apply]
          simp [Dataplane.storedMAC, Dataplane.modifyBackend, known, BackendState.storedMAC]
        refine Or.inr ⟨by simp, ip, ?_⟩
        rw [read]
        obtain ⟨s', plane, outcome⟩ := wrapped_write_run _
          (infoWrite id ip b.port ((s.plane.noteMAC id b).storedMAC id)) rfl env
          (s.withPlane (s.plane.noteMAC id b))
        exact ⟨s', rfl, plane, outcome⟩

theorem acquired_get? (p : Dataplane) (alloc : IdAllocator) (id : Nat) (b : Backend) :
    ∃ st, (p.acquired alloc id b).backendStates.get? id = some st :=
  ⟨_, FMap.get?_insert_self _ _ _⟩

/-- The two entries of an acquired backend. -/
def acquireWrites (p : Dataplane) (id : Nat) (ip : IP) (port : UInt16) : List MapWrite :=
  [infoWrite id ip port (p.storedMAC id),
    .setHealth id (((p.backendStates.get? id).map BackendState.health).getD .down)]

/-- Every way a backend can be taken into use. -/
theorem acquireBackend_run (name : String) (b : Backend) (env : Env) (s : World)
    (capacity : s.plane.backendAlloc.max = maxBackends) :
    (∃ text e, (s.plane.backendAlloc.alloc name).1 = .error text ∧
        acquireBackend name b env s = (.error e, s)) ∨
      ∃ id alloc, s.plane.backendAlloc.alloc name = (.ok id, alloc) ∧
        ((¬ b.Describable ∧ ∃ e s', acquireBackend name b env s = (.error e, s') ∧
            s'.plane = s.plane.acquired alloc id b ∧ Logged s s' []) ∨
          (b.Describable ∧ ∃ ip s', parseIP b.address = some ip ∧
            s'.plane = (s.plane.acquired alloc id b).noteMAC id b ∧
            ((acquireBackend name b env s = (.ok id, s') ∧
                Logged s s' (acquireWrites s'.plane id ip b.port)) ∨
              ((∃ w ∈ acquireWrites s'.plane id ip b.port, env.Fails w) ∧
                (∃ e, acquireBackend name b env s = (.error e, s')) ∧
                ∃ ws, Logged s s' ws ∧ ws.Sublist (acquireWrites s'.plane id ip b.port))))) := by
  unfold acquireBackend
  simp only [Effect.bind_apply, getPlane_apply]
  rcases allocated : s.plane.backendAlloc.alloc name with ⟨text | id, alloc⟩
  · exact Or.inl ⟨text, _, rfl, rfl⟩
  · have inside : id < maxBackends := by
      have := alloc.id_lt_max (IdAllocator.get?_of_alloc allocated)
      rw [IdAllocator.max_alloc allocated, capacity] at this
      exact this
    refine Or.inr ⟨id, alloc, rfl, ?_⟩
    simp only [Effect.bind_apply, modifyPlane_apply]
    obtain ⟨st, known⟩ := acquired_get? s.plane alloc id b
    rcases @writeBackendInfo_run id b env (s.withPlane (s.plane.acquired alloc id b)) st known with
      ⟨bad, e, run⟩ | ⟨good, ip, s₁, address, plane₁, outcome⟩
    · rw [run]
      exact Or.inl ⟨bad, e, _, rfl, rfl, by simp [Logged]⟩
    · refine Or.inr ⟨good, ip, ?_⟩
      simp only [withPlane_plane] at plane₁ outcome
      have state₁ : s₁.plane.backendStates.get? id = some (st.noteMAC b) := by
        rw [plane₁, noteMAC_get?, if_pos rfl, known, Option.map_some]
      have health₁ : acquireWrites s₁.plane id ip b.port =
          [infoWrite id ip b.port (s₁.plane.storedMAC id), .setHealth id (st.noteMAC b).health] := by
        rw [acquireWrites, state₁]
        rfl
      rcases outcome with ⟨run, logged⟩ | ⟨fails, ⟨e, run⟩, logged⟩
      · rw [run]
        simp only [writeHealth, Effect.bind_apply, getPlane_apply, state₁]
        rw [← plane₁] at logged
        rcases health : write (.setHealth id (st.noteMAC b).health) env s₁ with ⟨e | u, s₂⟩
        · obtain ⟨fails, plane₂, logged₂⟩ := write_error health
          refine ⟨s₂, address, plane₂.trans plane₁,
            Or.inr ⟨⟨.setHealth id (st.noteMAC b).health, ?_, ?_⟩, ⟨e, rfl⟩, _,
              logged.trans logged₂, ?_⟩⟩
          · rw [plane₂, health₁]
            simp
          · exact fails (by simpa [MapWrite.inBounds] using inside)
          · rw [plane₂, health₁]
            exact (List.Sublist.refl [_]).append (List.nil_sublist [_])
        · obtain ⟨_, plane₂, logged₂⟩ := write_ok health
          refine ⟨s₂, address, plane₂.trans plane₁, Or.inl ⟨rfl, ?_⟩⟩
          rw [plane₂, health₁]
          exact logged.trans logged₂
      · rw [run]
        refine ⟨s₁, address, plane₁,
          Or.inr ⟨⟨_, ?_, fails⟩, ⟨e, rfl⟩, [], logged, List.nil_sublist _⟩⟩
        rw [health₁, plane₁]
        simp

end Rivora

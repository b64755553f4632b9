import Mathlib.Logic.Basic
import Mathlib.Data.List.Basic

/-!
Stateful computations that may stop with an error and keep what they had done until then.

The state survives an error, as it does when a procedure mutates shared structures and then
returns early. An environment, fixed for one run, resolves every choice the procedure does not make.
-/

/-- A computation over a state, in an environment, that may stop early. -/
def Effect (ε σ χ α : Type) : Type := ε → σ → Except χ α × σ

namespace Effect

variable {ε σ χ α β : Type}

instance : Monad (Effect ε σ χ) where
  pure a := fun _ s => (.ok a, s)
  bind m f := fun env s =>
    match m env s with
    | (.ok a, s') => f a env s'
    | (.error e, s') => (.error e, s')

/-- Stop with an error. -/
def fail (e : χ) : Effect ε σ χ α := fun _ s => (.error e, s)

/-- Read part of the state. -/
def read (f : σ → α) : Effect ε σ χ α := fun _ s => (.ok (f s), s)

/-- Change the state; this cannot fail. -/
def update (f : σ → σ) : Effect ε σ χ Unit := fun _ s => (.ok (), f s)

/-- Rewrite the error of a computation, leaving its effect alone. -/
def mapError (f : χ → χ) (m : Effect ε σ χ α) : Effect ε σ χ α := fun env s =>
  match m env s with
  | (.ok a, s') => (.ok a, s')
  | (.error e, s') => (.error (f e), s')

/-- Run a computation and drop its error: a best-effort call. -/
def ignoring (m : Effect ε σ χ Unit) : Effect ε σ χ Unit := fun env s => (.ok (), (m env s).2)

/-- Run a computation and hand its outcome to the caller instead of stopping. -/
def outcome (m : Effect ε σ χ α) : Effect ε σ χ (Except χ α) := fun env s =>
  (.ok (m env s).1, (m env s).2)

/-- Undo part of a computation's effect if it stops with an error. -/
def onError (m : Effect ε σ χ α) (cleanup : σ → σ) : Effect ε σ χ α := fun env s =>
  match m env s with
  | (.ok a, s') => (.ok a, s')
  | (.error e, s') => (.error e, cleanup s')

/-- Do something for each item of a list in order, stopping at the first error. -/
def forEach : List α → (α → Effect ε σ χ Unit) → Effect ε σ χ Unit
  | [], _ => pure ()
  | x :: rest, f => do f x; forEach rest f

/-- Do something for each item of a list in order whether or not it fails, noting each outcome. -/
def attempt : List α → (α → Effect ε σ χ Unit) → Effect ε σ χ (List (α × Except χ Unit))
  | [], _ => pure []
  | x :: rest, f => do
    let result ← outcome (f x)
    let results ← attempt rest f
    return (x, result) :: results

@[simp] theorem pure_apply (a : α) (env : ε) (s : σ) :
    (pure a : Effect ε σ χ α) env s = (.ok a, s) := rfl

@[simp] theorem fail_apply (e : χ) (env : ε) (s : σ) :
    (fail e : Effect ε σ χ α) env s = (.error e, s) := rfl

@[simp] theorem read_apply (f : σ → α) (env : ε) (s : σ) :
    (read f : Effect ε σ χ α) env s = (.ok (f s), s) := rfl

@[simp] theorem update_apply (f : σ → σ) (env : ε) (s : σ) :
    (update f : Effect ε σ χ Unit) env s = (.ok (), f s) := rfl

theorem bind_apply (m : Effect ε σ χ α) (f : α → Effect ε σ χ β) (env : ε) (s : σ) :
    (m >>= f) env s =
      match m env s with
      | (.ok a, s') => f a env s'
      | (.error e, s') => (.error e, s') := rfl

/-- A sequence succeeds if both its parts do. -/
theorem bind_eq_ok {m : Effect ε σ χ α} {f : α → Effect ε σ χ β} {env : ε} {s s'' : σ} {b : β} :
    (m >>= f) env s = (.ok b, s'') ↔
      ∃ a s', m env s = (.ok a, s') ∧ f a env s' = (.ok b, s'') := by
  rw [bind_apply]
  rcases m env s with ⟨_ | a, s'⟩
  · simp
  · simp

/-- A loop that ends well has done each of its items. -/
theorem forEach_eq_ok {f : α → Effect ε σ χ Unit} {env : ε} {items : List α} {s s' : σ}
    (run : forEach items f env s = (.ok (), s')) : ∀ x ∈ items, ∃ t t', f x env t = (.ok (), t') := by
  induction items generalizing s with
  | nil => simp
  | cons x rest ih =>
    obtain ⟨_, t, first, later⟩ := bind_eq_ok.mp run
    exact List.forall_mem_cons.mpr ⟨⟨s, t, first⟩, ih later⟩

theorem attempt_cons_state (x : α) (rest : List α) (f : α → Effect ε σ χ Unit) (env : ε) (s : σ) :
    (attempt (x :: rest) f env s).2 = (attempt rest f env (f x env s).2).2 := by
  simp only [attempt, bind_apply, outcome]
  rcases attempt rest f env (f x env s).2 with ⟨_ | later, s'⟩
  · rfl
  · rfl

/-- A loop that goes on after errors keeps what each round keeps. -/
theorem attempt_keeps {f : α → Effect ε σ χ Unit} {env : ε} {P : σ → Prop}
    (each : ∀ x s, P s → P (f x env s).2) (items : List α) {s : σ} (start : P s) :
    P (attempt items f env s).2 := by
  induction items generalizing s with
  | nil => exact start
  | cons x rest ih =>
    rw [attempt_cons_state]
    exact ih (each x s start)

theorem mapError_eq_ok {f : χ → χ} {m : Effect ε σ χ α} {env : ε} {s s' : σ} {a : α} :
    mapError f m env s = (.ok a, s') ↔ m env s = (.ok a, s') := by
  unfold mapError
  rcases m env s with ⟨_ | b, t⟩
  · simp
  · simp

theorem mapError_of_error {f : χ → χ} {m : Effect ε σ χ α} {env : ε} {s s' : σ} {e : χ}
    (run : m env s = (.error e, s')) : mapError f m env s = (.error (f e), s') := by
  simp only [mapError, run]

/--
What a computation guarantees in one environment.

From every state satisfying `pre` it either returns with `post` or stops in a state satisfying
`stopped`; the error value itself carries no obligation.
-/
def Triple (env : ε) (pre : σ → Prop) (m : Effect ε σ χ α) (post : α → σ → Prop)
    (stopped : σ → Prop) : Prop :=
  ∀ s, pre s → match m env s with
    | (.ok a, s') => post a s'
    | (.error _, s') => stopped s'

section Rules

variable {env : ε} {pre : σ → Prop} {stopped : σ → Prop}

theorem Triple.of_run {m : Effect ε σ χ α} {post : α → σ → Prop}
    (ends : ∀ s, pre s → (∃ a s', m env s = (.ok a, s') ∧ post a s') ∨
      ∃ e s', m env s = (.error e, s') ∧ stopped s') : Triple env pre m post stopped := by
  intro s start
  rcases ends s start with ⟨a, s', run, holds⟩ | ⟨e, s', run, holds⟩
  · rw [run]
    exact holds
  · rw [run]
    exact holds

/-- A triple, read off a run. -/
theorem Triple.run {m : Effect ε σ χ α} {post : α → σ → Prop}
    (spec : Triple env pre m post stopped) {s : σ} (start : pre s) :
    (∃ a s', m env s = (.ok a, s') ∧ post a s') ∨
      ∃ e s', m env s = (.error e, s') ∧ stopped s' := by
  have result := spec s start
  rcases run : m env s with ⟨e | a, s'⟩
  · rw [run] at result
    exact Or.inr ⟨e, s', rfl, result⟩
  · rw [run] at result
    exact Or.inl ⟨a, s', rfl, result⟩

theorem Triple.keeps {m : Effect ε σ χ α} (spec : Triple env stopped m (fun _ => stopped) stopped) {s : σ}
    (start : stopped s) : stopped (m env s).2 := by
  rcases spec.run start with ⟨a, s', run, holds⟩ | ⟨e, s', run, holds⟩
  · rw [run]
    exact holds
  · rw [run]
    exact holds

theorem Triple.pure {a : α} {post : α → σ → Prop} (holds : ∀ s, pre s → post a s) :
    Triple env pre (Pure.pure a : Effect ε σ χ α) post stopped :=
  fun s start => holds s start

theorem Triple.fail {e : χ} {post : α → σ → Prop} (holds : ∀ s, pre s → stopped s) :
    Triple env pre (Effect.fail e : Effect ε σ χ α) post stopped :=
  fun s start => holds s start

theorem Triple.read {f : σ → α} {post : α → σ → Prop} (holds : ∀ s, pre s → post (f s) s) :
    Triple env pre (Effect.read f : Effect ε σ χ α) post stopped :=
  fun s start => holds s start

theorem Triple.update {f : σ → σ} {post : Unit → σ → Prop} (holds : ∀ s, pre s → post () (f s)) :
    Triple env pre (Effect.update f : Effect ε σ χ Unit) post stopped :=
  fun s start => holds s start

/-- The rule for sequences. -/
theorem Triple.bind {m : Effect ε σ χ α} {f : α → Effect ε σ χ β} {mid : α → σ → Prop}
    {post : β → σ → Prop} (first : Triple env pre m mid stopped)
    (second : ∀ a, Triple env (mid a) (f a) post stopped) :
    Triple env pre (m >>= f) post stopped := by
  intro s start
  have result := first s start
  rw [bind_apply]
  rcases run : m env s with ⟨_ | a, s'⟩
  · rw [run] at result
    exact result
  · rw [run] at result
    exact second a s' result

theorem Triple.mapError {g : χ → χ} {m : Effect ε σ χ α} {post : α → σ → Prop}
    (spec : Triple env pre m post stopped) : Triple env pre (Effect.mapError g m) post stopped := by
  intro s start
  have result := spec s start
  unfold Effect.mapError
  rcases run : m env s with ⟨_ | a, s'⟩
  · rw [run] at result
    exact result
  · rw [run] at result
    exact result

/-- The rule where the error is dropped. -/
theorem Triple.ignoring {m : Effect ε σ χ Unit} {post : Unit → σ → Prop}
    (spec : Triple env pre m post (post ())) :
    Triple env pre (Effect.ignoring m) post stopped := by
  intro s start
  have result := spec s start
  unfold Effect.ignoring
  rcases run : m env s with ⟨_ | a, s'⟩
  · rw [run] at result
    exact result
  · rw [run] at result
    exact result

/-- The rule for loops: the invariant speaks of what is left to do. -/
theorem Triple.forEach {f : α → Effect ε σ χ Unit} {inv : List α → σ → Prop}
    (step : ∀ x rest, Triple env (inv (x :: rest)) (f x) (fun _ => inv rest) stopped) :
    ∀ items, Triple env (inv items) (Effect.forEach items f) (fun _ => inv []) stopped := by
  intro items
  induction items with
  | nil => exact Triple.pure fun _ holds => holds
  | cons x rest ih => exact Triple.bind (step x rest) fun _ => ih

end Rules

end Effect

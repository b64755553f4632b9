import Mathlib.Data.List.Basic

/-! Runs of a deterministic system under conditions on its steps. -/

namespace Rivora.Run

variable {σ ε : Type} (step : σ → ε → σ) (ok : σ → ε → Prop)

/-- The state after a sequence of events. -/
def run (s : σ) (events : List ε) : σ := events.foldl step s

/-- Every event of a sequence meets a condition in the state it happens in. -/
def Along : σ → List ε → Prop
  | _, [] => True
  | s, e :: rest => ok s e ∧ Along (step s e) rest

variable {step ok}

@[simp] theorem run_nil (s : σ) : run step s [] = s := rfl

@[simp] theorem run_cons (s : σ) (e : ε) (rest : List ε) :
    run step s (e :: rest) = run step (step s e) rest := rfl

theorem run_append (s : σ) (first second : List ε) :
    run step s (first ++ second) = run step (run step s first) second :=
  List.foldl_append

/-- A run meets a condition if its two halves do. -/
theorem along_append {s : σ} {first second : List ε} :
    Along step ok s (first ++ second) ↔
      Along step ok s first ∧ Along step ok (run step s first) second := by
  induction first generalizing s with
  | nil => simp [Along]
  | cons e rest ih => simp only [List.cons_append, Along, run_cons, ih, and_assoc]

/-- What every step preserves holds after a run. -/
theorem invariant {P : σ → Prop} (preserved : ∀ {s e}, P s → ok s e → P (step s e)) {s : σ}
    {events : List ε} (start : P s) (along : Along step ok s events) : P (run step s events) := by
  -- The condition on the first event is met in the first state, the others from the next one on.
  induction events generalizing s with
  | nil => exact start
  | cons e rest ih => exact ih (preserved start along.1) along.2

/-- What an invariant implies of each step holds along a run. -/
theorem along_of_invariant {P : σ → Prop} {ok' : σ → ε → Prop}
    (preserved : ∀ {s e}, P s → ok s e → P (step s e)) (implied : ∀ {s e}, P s → ok s e → ok' s e) {s : σ}
    {events : List ε} (start : P s) (along : Along step ok s events) : Along step ok' s events := by
  induction events generalizing s with
  | nil => trivial
  | cons e rest ih => exact ⟨implied start along.1, ih (preserved start along.1) along.2⟩

theorem along_of_forall {ok : ε → Prop} {events : List ε} (all : ∀ e ∈ events, ok e) (s : σ) :
    Along step (fun _ e => ok e) s events := by
  induction events generalizing s with
  | nil => trivial
  | cons e rest ih =>
    exact ⟨all e List.mem_cons_self, ih (fun e' member => all e' (List.mem_cons_of_mem e member)) _⟩

/-- A condition that does not look at the state is one on each event. -/
theorem forall_of_along {ok : ε → Prop} {s : σ} {events : List ε}
    (along : Along step (fun _ e => ok e) s events) : ∀ e ∈ events, ok e := by
  induction events generalizing s with
  | nil => simp
  | cons e rest ih => exact List.forall_mem_cons.mpr ⟨along.1, ih along.2⟩

theorem Along.mono {ok' : σ → ε → Prop} (weaker : ∀ {s e}, ok s e → ok' s e) {s : σ}
    {events : List ε} (along : Along step ok s events) : Along step ok' s events := by
  induction events generalizing s with
  | nil => trivial
  | cons e rest ih => exact ⟨weaker along.1, ih along.2⟩

theorem Along.and {ok' : σ → ε → Prop} {s : σ} {events : List ε} (first : Along step ok s events)
    (second : Along step ok' s events) : Along step (fun s e => ok s e ∧ ok' s e) s events := by
  induction events generalizing s with
  | nil => trivial
  | cons e rest ih => exact ⟨⟨first.1, second.1⟩, ih first.2 second.2⟩

end Rivora.Run

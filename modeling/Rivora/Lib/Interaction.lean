import Mathlib.Logic.Basic

/-!
Programs that call their surroundings and go on with the answers.

A program is a tree: what it calls next, and how it continues for each answer. It can be run against a
state that answers, or taken one call at a time between the calls of other programs. Either way, what is
proved of the tree against a specification of the calls holds of every execution.
-/

namespace Rivora.Interaction

variable {κ σ α β : Type} {ρ : κ → Type}

/-- A program that makes calls from `κ`, whose answers have the types `ρ`, and returns an `α`. -/
inductive Prog (ρ : κ → Type) (α : Type) where
  | done (a : α)
  | call (c : κ) (next : ρ c → Prog ρ α)

namespace Prog

/-- Run one program, then another with what the first returned. -/
def bind : Prog ρ α → (α → Prog ρ β) → Prog ρ β
  | .done a, f => f a
  | .call c next, f => .call c fun r => (next r).bind f

instance : Monad (Prog ρ) where
  pure := .done
  bind := .bind

/-- Make one call and return its answer. -/
def ask (c : κ) : Prog ρ (ρ c) := .call c .done

/-- Run a program against a state that answers its calls. -/
def run (answer : (c : κ) → σ → ρ c × σ) : Prog ρ α → σ → α × σ
  | .done a, s => (a, s)
  | .call c next, s => (next (answer c s).1).run answer (answer c s).2

section

variable (answer : (c : κ) → σ → ρ c × σ)

@[simp] theorem run_pure (a : α) (s : σ) : (pure a : Prog ρ α).run answer s = (a, s) := rfl

@[simp] theorem run_ask (c : κ) (s : σ) : (ask c : Prog ρ (ρ c)).run answer s = answer c s := rfl

@[simp] theorem run_bind (first : Prog ρ α) (then_ : α → Prog ρ β) (s : σ) :
    (first >>= then_).run answer s =
      (then_ (first.run answer s).1).run answer (first.run answer s).2 := by
  induction first generalizing s with
  | done a => rfl
  | call c next ih => exact ih _ _

end

end Prog

/-- What calls a program may make in a state, and what they may answer and leave behind. -/
structure Spec (ρ : κ → Type) (σ : Type) where
  may : σ → κ → Prop
  answers : σ → (c : κ) → ρ c → σ → Prop

/-- Every call a program makes is permitted, and it returns with a postcondition. -/
def Prog.Meets (spec : Spec ρ σ) (post : α → σ → Prop) : Prog ρ α → σ → Prop
  | .done a, s => post a s
  | .call c next, s => spec.may s c ∧ ∀ r s', spec.answers s c r s' → (next r).Meets spec post s'

section

variable {spec : Spec ρ σ} {post post' : α → σ → Prop} {s : σ}

/-- The rule of consequence. -/
theorem Prog.Meets.mono {p : Prog ρ α} (meets : p.Meets spec post s)
    (weaker : ∀ a s', post a s' → post' a s') : p.Meets spec post' s := by
  induction p generalizing s with
  | done a => exact weaker a s meets
  | call c next ih => exact ⟨meets.1, fun r s' answered => ih r (meets.2 r s' answered)⟩

/-- The rule for sequences. -/
theorem Prog.Meets.bind {first : Prog ρ α} {then_ : α → Prog ρ β} {post : β → σ → Prop}
    (meets : first.Meets spec (fun a s' => (then_ a).Meets spec post s') s) :
    (first >>= then_).Meets spec post s := by
  -- Induction on the first program; at its end the second one begins.
  induction first generalizing s with
  | done a => exact meets
  | call c next ih => exact ⟨meets.1, fun r s' answered => ih r (meets.2 r s' answered)⟩

/-- The rule for a call. -/
theorem Prog.Meets.ask {c : κ} {post : ρ c → σ → Prop} (permitted : spec.may s c)
    (after : ∀ r s', spec.answers s c r s' → post r s') : (Prog.ask c).Meets spec post s :=
  ⟨permitted, after⟩

/-- A loop keeps what each round keeps; the invariant may speak of the items done. -/
theorem Prog.Meets.foldlM {f : β → α → Prog ρ β} {I : List α → β → σ → Prop} {items : List α}
    (round : ∀ finished x b s, x ∈ items → I finished b s →
      (f b x).Meets spec (fun b' s' => I (finished ++ [x]) b' s') s)
    {b : β} (start : I [] b s) : (items.foldlM f b).Meets spec (fun b' s' => I items b' s') s := by
  -- Induction on the items left, with those done in front of them.
  have general : ∀ (left finished : List α) b s, (∀ x ∈ left, x ∈ items) → I finished b s →
      (left.foldlM f b).Meets spec (fun b' s' => I (finished ++ left) b' s') s := by
    intro left
    induction left with
    | nil =>
      intro finished b s _ held
      rw [List.append_nil]
      exact held
    | cons x rest ih =>
      intro finished b s among held
      rw [List.foldlM_cons]
      refine Prog.Meets.bind ((round finished x b s (among x List.mem_cons_self) held).mono ?_)
      intro b' s' held'
      have later := ih (finished ++ [x]) b' s' (fun y member => among y (List.mem_cons_of_mem _ member)) held'
      rwa [List.append_assoc] at later
  exact general items [] b s (fun _ member => member) start

/-- What a program meets holds of every run whose answers obey, seen through a view. -/
theorem Prog.Meets.run_view {τ : Type} (view : τ → σ) {p : Prog ρ α} {t : τ}
    (meets : p.Meets spec post (view t)) {answer : (c : κ) → τ → ρ c × τ}
    (obeys : ∀ t c, spec.may (view t) c →
      spec.answers (view t) c (answer c t).1 (view (answer c t).2)) :
    post (p.run answer t).1 (view (p.run answer t).2) := by
  induction p generalizing t with
  | done a => exact meets
  | call c next ih => exact ih _ (meets.2 _ _ (obeys t c meets.1))

theorem Prog.Meets.run {p : Prog ρ α} (meets : p.Meets spec post s)
    {answer : (c : κ) → σ → ρ c × σ}
    (obeys : ∀ s c, spec.may s c → spec.answers s c (answer c s).1 (answer c s).2) :
    post (p.run answer s).1 (p.run answer s).2 :=
  meets.run_view id obeys

/-- Every call a program makes is of a kind. -/
def Prog.Calls (kind : κ → Prop) : Prog ρ α → Prop
  | .done _ => True
  | .call c next => kind c ∧ ∀ r, (next r).Calls kind

theorem Prog.Calls.bind {kind : κ → Prop} {first : Prog ρ α} {then_ : α → Prog ρ β}
    (calls : first.Calls kind) (calls' : ∀ a, (then_ a).Calls kind) : (first >>= then_).Calls kind := by
  induction first with
  | done a => exact calls' a
  | call c next ih => exact ⟨calls.1, fun r => ih r (calls.2 r)⟩

theorem Prog.Calls.bindExcept {ε : Type} {kind : κ → Prop} {first : ExceptT ε (Prog ρ) α}
    {then_ : α → ExceptT ε (Prog ρ) β} (calls : first.run.Calls kind) (calls' : ∀ a, (then_ a).run.Calls kind) :
    (first >>= then_).run.Calls kind := by
  rw [ExceptT.run_bind]
  refine calls.bind fun result => ?_
  cases result with
  | ok a => exact calls' a
  | error e => trivial

theorem Prog.Calls.foldlM {kind : κ → Prop} {f : β → α → Prog ρ β} (each : ∀ b x, (f b x).Calls kind)
    (items : List α) (b : β) : (items.foldlM f b).Calls kind := by
  induction items generalizing b with
  | nil => trivial
  | cons x rest ih =>
    rw [List.foldlM_cons]
    exact (each b x).bind fun b' => ih b'

theorem Prog.Calls.mono {kind kind' : κ → Prop} (wider : ∀ c, kind c → kind' c) {p : Prog ρ α}
    (calls : p.Calls kind) : p.Calls kind' := by
  induction p with
  | done a => trivial
  | call c next ih => exact ⟨wider c calls.1, fun r => ih r (calls.2 r)⟩

/-- What every call keeps, the program keeps. -/
theorem Prog.Calls.keeps {kind : κ → Prop} {P : σ → Prop} {p : Prog ρ α} (calls : p.Calls kind)
    (each : ∀ c s, kind c → P s → spec.may s c ∧ ∀ r s', spec.answers s c r s' → P s') (start : P s) :
    p.Meets spec (fun _ s' => P s') s := by
  induction p generalizing s with
  | done a => exact start
  | call c next ih =>
    obtain ⟨permitted, kept⟩ := each c s calls.1 start
    exact ⟨permitted, fun r s' answered => ih r (calls.2 r) (kept r s' answered)⟩

end

end Rivora.Interaction

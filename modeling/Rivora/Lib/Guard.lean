import Mathlib.Logic.Basic

/-!
Checks that refuse at the first thing they find.

A check returns nothing or a reason. Checks are made in turn, for each item of a list, or along a list
with a memory of what came before; in each form, passing says something about everything checked.
-/

namespace Rivora.Guard

variable {ε σ α : Type}

/-- Refuse where a condition holds. -/
def refuseIf (bad : Prop) [Decidable bad] (reason : ε) : Except ε Unit :=
  if bad then .error reason else .ok ()

@[simp] theorem refuseIf_eq_ok {bad : Prop} [Decidable bad] {reason : ε} :
    refuseIf bad reason = .ok () ↔ ¬ bad := by
  unfold refuseIf
  split
  · rename_i holds
    exact ⟨nofun, fun passes => absurd holds passes⟩
  · rename_i fails
    exact ⟨fun _ => fails, fun _ => rfl⟩

@[simp] theorem bind_eq_ok {first : Except ε Unit} {second : Unit → Except ε Unit} :
    (first >>= second) = .ok () ↔ first = .ok () ∧ second () = .ok () := by
  cases first with
  | error reason => exact ⟨nofun, fun both => nomatch both.1⟩
  | ok _ => exact ⟨fun passes => ⟨rfl, passes⟩, And.right⟩

/-- Check each item of a list. -/
def forEach (check : α → Except ε Unit) : List α → Except ε Unit
  | [] => .ok ()
  | x :: rest => do
    check x
    forEach check rest

@[simp] theorem forEach_eq_ok {check : α → Except ε Unit} {items : List α} :
    forEach check items = .ok () ↔ ∀ x ∈ items, check x = .ok () := by
  induction items with
  | nil => exact ⟨fun _ _ member => (nomatch member), fun _ => rfl⟩
  | cons x rest ih =>
    rw [forEach, bind_eq_ok, ih, List.forall_mem_cons]

/-- Check each item of a list against a memory of those before it. -/
def walk (check : σ → α → Except ε σ) : σ → List α → Except ε Unit
  | _, [] => .ok ()
  | memory, x :: rest =>
    match check memory x with
    | .error reason => .error reason
    | .ok memory => walk check memory rest

/--
A walk that passes relates each item to all before it.

It is enough that one check relates its item to everything remembered, and remembers it as well.
-/
theorem walk_pairwise {check : σ → α → Except ε σ} {remembers : σ → α → Prop} {R : α → α → Prop}
    (each : ∀ {memory x memory'}, check memory x = .ok memory' → remembers memory' x ∧
      ∀ y, remembers memory y → remembers memory' y ∧ R y x)
    {items : List α} {memory : σ} (passes : walk check memory items = .ok ()) :
    items.Pairwise R ∧ ∀ y, remembers memory y → ∀ x ∈ items, R y x := by
  induction items generalizing memory with
  | nil => exact ⟨.nil, fun _ _ _ member => nomatch member⟩
  | cons x rest ih =>
    rw [walk] at passes
    cases checked : check memory x with
    | error reason =>
      rw [checked] at passes
      cases passes
    | ok memory' =>
      rw [checked] at passes
      obtain ⟨known, older⟩ := each checked
      obtain ⟨pairwise, later⟩ := ih passes
      -- The memory behind this item holds it and everything before it.
      refine ⟨List.pairwise_cons.mpr ⟨later x known, pairwise⟩, fun y remembered z member => ?_⟩
      obtain ⟨kept, related⟩ := older y remembered
      rcases List.mem_cons.mp member with rfl | member
      · exact related
      · exact later y kept z member

end Rivora.Guard

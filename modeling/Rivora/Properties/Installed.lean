import Rivora.Controller.Reconcile
import Rivora.Lib.Run
import Rivora.Proofs.Rehearsal

/-! What a reconciler records as installed for an object, against what it has programmed for it. -/

namespace Rivora.Reconciler

open Interaction

/-- A reconciler's table, and the VIPs it has had programmed and not removed since. -/
structure Books where
  installed : FMap String (List String)
  programmed : List String
  /-- How often the data plane was called during the present call. -/
  asked : Nat

/-- What the surroundings of one call decide: which data-plane calls fail, and the order of a map. -/
structure Surroundings where
  /-- The error of the data-plane call with this number, if it fails. -/
  replies : Nat → Option GoError
  order : List String → List String
  order_perm : ∀ keys, (order keys).Perm keys

/-- The answer of the data plane to a call that, if it goes through, changes what is programmed. -/
def Books.plane (env : Surroundings) (s : Books) (change : List String → List String) :
    Except GoError Unit × Books :=
  match env.replies s.asked with
  | some e => (.error e, { s with asked := s.asked + 1 })
  | none => (.ok (), { s with programmed := change s.programmed, asked := s.asked + 1 })

/-- The answers to a reconciler's calls. -/
def Books.answer (env : Surroundings) : (c : Call) → Books → c.Reply × Books
  | .upsertVIP vip, s => s.plane env (·.insert (vipKeyString vip))
  | .setBackendDrainingByKey _ _ _, s => s.plane env id
  | .removeVIP key, s => s.plane env (·.filter (· ≠ key))
  | .getInstalled key, s => ((s.installed.get? key).getD [], s)
  | .setInstalled key keys, s => ((), { s with installed := s.installed.insert key keys })
  | .deleteInstalled key, s => ((), { s with installed := s.installed.erase key })
  | .iterate keys, s => (env.order keys, s)
  | .onChange, s => ((), s)

/-- The outcome of reconciling an object. -/
def Books.call (key : String) (s : Books) (c : Observed × Surroundings) :
    Except GoError Unit × Books :=
  (reconcile key c.1).run (Books.answer c.2) { s with asked := 0 }

/-- The books after a reconcile of an object. -/
def Books.step (key : String) (s : Books) (c : Observed × Surroundings) : Books := (s.call key c).2

/-- The books of a reconciler that has just started. -/
def Books.fresh : Books := ⟨FMap.empty, [], 0⟩

/-- The VIPs recorded as installed for an object. -/
def Books.recorded (s : Books) (key : String) : List String := (s.installed.get? key).getD []

/-- A call that wants no VIP beyond those recorded, or in which the data plane never fails. -/
def Careful (key : String) (s : Books) (c : Observed × Surroundings) : Prop :=
  (∀ k ∈ c.1.keys, k ∈ s.recorded key) ∨ ∀ i, c.2.replies i = none

/-- How the data plane may answer: an error only where it is not to be relied on. -/
def planeAnswers (reliable : Prop) (change : List String → List String) (s : Books)
    (r : Except GoError Unit) (s' : Books) : Prop :=
  s'.installed = s.installed ∧
    ((r = .ok () ∧ s'.programmed = change s.programmed) ∨
      (¬ reliable ∧ (∃ e, r = .error e) ∧ s'.programmed = s.programmed))

/-- How the surroundings may answer a reconciler. -/
def booksSpec (reliable : Prop) : Spec Call.Reply Books where
  may _ _ := True
  answers s c r s' := match c, r with
    | .upsertVIP vip, r => planeAnswers reliable (·.insert (vipKeyString vip)) s r s'
    | .setBackendDrainingByKey _ _ _, r => planeAnswers reliable id s r s'
    | .removeVIP key, r => planeAnswers reliable (·.filter (· ≠ key)) s r s'
    | .getInstalled key, r => r = s.recorded key ∧ s' = s
    | .setInstalled key keys, _ => s' = { s with installed := s.installed.insert key keys }
    | .deleteInstalled key, _ => s' = { s with installed := s.installed.erase key }
    | .iterate keys, r => r.Perm keys ∧ s' = s
    | .onChange, _ => s' = s

theorem answer_obeys {env : Surroundings} {reliable : Prop}
    (trusted : reliable → ∀ i, env.replies i = none) (s : Books) (c : Call) :
    (booksSpec reliable).answers s c (Books.answer env c s).1 (Books.answer env c s).2 := by
  have plane : ∀ change, planeAnswers reliable change s (s.plane env change).1
      (s.plane env change).2 := by
    intro change
    unfold Books.plane
    cases reply : env.replies s.asked with
    | none => exact ⟨rfl, Or.inl ⟨rfl, rfl⟩⟩
    | some e =>
      refine ⟨rfl, Or.inr ⟨fun trust => ?_, ⟨e, rfl⟩, rfl⟩⟩
      exact absurd ((trusted trust s.asked).symm.trans reply) nofun
  cases c with
  | upsertVIP vip => exact plane _
  | setBackendDrainingByKey vipKey backendKey draining => exact plane _
  | removeVIP key => exact plane _
  | getInstalled key => exact ⟨rfl, rfl⟩
  | setInstalled key keys => exact rfl
  | deleteInstalled key => exact rfl
  | iterate keys => exact ⟨env.order_perm keys, rfl⟩
  | onChange => exact rfl

section

variable {reliable : Prop} {s : Books}

theorem drainAll_meets (vipKey : String) (backends : List Backend) :
    (drainAll vipKey backends).Meets (booksSpec reliable) (fun r s' =>
      s'.installed = s.installed ∧ s'.programmed = s.programmed ∧ (reliable → r = .ok ())) s := by
  induction backends generalizing s with
  | nil => exact ⟨rfl, rfl, fun _ => rfl⟩
  | cons b rest ih =>
    refine .bind (.ask trivial fun r s' answered => ?_)
    obtain ⟨installed, ⟨rfl, programmed⟩ | ⟨unreliable, ⟨e, rfl⟩, programmed⟩⟩ := answered
    · refine Prog.Meets.mono (ih (s := s')) fun r s'' after => ?_
      exact ⟨after.1.trans installed, after.2.1.trans programmed, after.2.2⟩
    · exact ⟨installed, programmed, fun trust => absurd trust unreliable⟩

theorem upsertAll_meets (desired : List DesiredVIP) (newKeys : List String) :
    (upsertAll desired newKeys).Meets (booksSpec reliable) (fun r s' =>
      s'.installed = s.installed ∧ s.programmed ⊆ s'.programmed ∧
      (∀ k ∈ s'.programmed, k ∈ s.programmed ∨ k ∈ (Observed.wants desired).keys) ∧
      (∀ keys, r = .ok keys → (∀ k, k ∈ keys ↔ k ∈ newKeys ∨ k ∈ (Observed.wants desired).keys) ∧
        ∀ k ∈ (Observed.wants desired).keys, k ∈ s'.programmed) ∧
      (reliable → ∃ keys, r = .ok keys)) s := by
  induction desired generalizing s newKeys with
  | nil =>
    refine ⟨rfl, List.Subset.refl _, fun k member => Or.inl member, ?_, fun _ => ⟨newKeys, rfl⟩⟩
    rintro keys ⟨⟩
    simp [Observed.keys]
  | cons d rest ih =>
    refine .bind (.ask trivial fun r s₁ answered => ?_)
    obtain ⟨installed, ⟨rfl, programmed⟩ | ⟨unreliable, ⟨e, rfl⟩, programmed⟩⟩ := answered
    · refine .bind (Prog.Meets.mono (drainAll_meets _ _) fun r s₂ drained => ?_)
      obtain ⟨installed₂, programmed₂, fine⟩ := drained
      have grown : ∀ k, k ∈ s₂.programmed ↔ k = vipKeyString d.vip ∨ k ∈ s.programmed := by
        intro k
        rw [programmed₂, programmed, List.mem_insert_iff]
      cases r with
      | error e =>
        refine ⟨installed₂.trans installed, fun k member => (grown k).mpr (Or.inr member), ?_, nofun, ?_⟩
        · intro k member
          rcases (grown k).mp member with rfl | before
          · exact Or.inr List.mem_cons_self
          · exact Or.inl before
        · intro trust
          cases fine trust
      | ok _ =>
        refine Prog.Meets.mono (ih (s := s₂) _) fun r s₃ after => ?_
        obtain ⟨installed₃, kept, only, ends, fine'⟩ := after
        refine ⟨installed₃.trans (installed₂.trans installed), ?_, ?_, ?_, fine'⟩
        · exact fun k member => kept ((grown k).mpr (Or.inr member))
        · intro k member
          rcases only k member with before | wanted
          · rcases (grown k).mp before with rfl | earlier
            · exact Or.inr List.mem_cons_self
            · exact Or.inl earlier
          · exact Or.inr (List.mem_cons_of_mem _ wanted)
        · intro keys ok
          obtain ⟨exact, there⟩ := ends keys ok
          constructor
          · intro k
            simp only [exact, List.mem_insert_iff, Observed.keys, List.map_cons, List.mem_cons]
            tauto
          · intro k member
            rcases List.mem_cons.mp member with rfl | later
            · exact kept ((grown _).mpr (Or.inl rfl))
            · exact there k later
    · refine ⟨installed, by rw [programmed]; exact List.Subset.refl _, ?_, nofun,
        fun trust => absurd trust unreliable⟩
      intro k member
      rw [programmed] at member
      exact Or.inl member

theorem removeStale_meets (newKeys previous : List String) (changed : Bool) :
    (removeStale newKeys previous changed).Meets (booksSpec reliable) (fun r s' =>
      s'.installed = s.installed ∧ s'.programmed ⊆ s.programmed ∧
      (∀ k ∈ newKeys, k ∈ s.programmed → k ∈ s'.programmed) ∧
      (∀ b, r = .ok b → ∀ k ∈ s'.programmed, k ∈ previous → k ∈ newKeys) ∧
      (reliable → ∃ b, r = .ok b)) s := by
  induction previous generalizing s changed with
  | nil =>
    exact ⟨rfl, List.Subset.refl _, fun _ _ member => member, (fun _ _ _ _ none => by cases none),
      fun _ => ⟨changed, rfl⟩⟩
  | cons oldKey rest ih =>
    rw [removeStale]
    split
    · rename_i wanted
      refine Prog.Meets.mono (ih changed) fun r s' after => ?_
      obtain ⟨installed, fewer, kept, ends, fine⟩ := after
      refine ⟨installed, fewer, kept, fun b ok k member stale => ?_, fine⟩
      rcases List.mem_cons.mp stale with rfl | later
      · exact wanted
      · exact ends b ok k member later
    · rename_i unwanted
      refine .bind (.ask trivial fun r s₁ answered => ?_)
      obtain ⟨installed, ⟨rfl, programmed⟩ | ⟨unreliable, ⟨e, rfl⟩, programmed⟩⟩ := answered
      · refine Prog.Meets.mono (ih (s := s₁) true) fun r s' after => ?_
        obtain ⟨installed', fewer, kept, ends, fine⟩ := after
        have filtered : ∀ k, k ∈ s₁.programmed ↔ k ∈ s.programmed ∧ k ≠ oldKey := by
          intro k
          rw [programmed, List.mem_filter]
          simp
        refine ⟨installed'.trans installed, ?_, ?_, ?_, fine⟩
        · exact fun k member => ((filtered k).mp (fewer member)).1
        · intro k wanted member
          refine kept k wanted ((filtered k).mpr ⟨member, ?_⟩)
          rintro rfl
          exact unwanted wanted
        · intro b ok k member stale
          rcases List.mem_cons.mp stale with rfl | later
          · exact absurd rfl ((filtered k).mp (fewer member)).2
          · exact ends b ok k member later
      · refine ⟨installed, by rw [programmed]; exact List.Subset.refl _, ?_,
          (fun b ok => by cases ok), fun trust => absurd trust unreliable⟩
        intro k _ member
        rw [programmed]
        exact member

theorem recordInstalled_meets (key : String) (newKeys : List String) :
    (recordInstalled key newKeys).Meets (booksSpec reliable) (fun _ s' =>
      s'.programmed = s.programmed ∧ ∀ k, k ∈ s'.recorded key ↔ k ∈ newKeys) s := by
  unfold recordInstalled
  split
  · rename_i nothing
    refine .ask trivial fun _ s' erased => ?_
    have after : s' = { s with installed := s.installed.erase key } := erased
    subst after nothing
    simp [Books.recorded]
  · refine .bind (.ask trivial fun (keys : List String) s₁ listed => .ask trivial fun _ s' stored => ?_)
    obtain ⟨perm, rfl⟩ := listed
    have after : s' = { s₁ with installed := s₁.installed.insert key keys } := stored
    subst after
    -- The record is written in the order the map was walked in.
    have read : ({ s₁ with installed := s₁.installed.insert key keys } : Books).recorded key = keys := by
      simp [Books.recorded]
    exact ⟨rfl, fun k => by rw [read]; exact perm.mem_iff⟩

theorem removeAllFor_meets (key : String) (desired : List DesiredVIP)
    (covered : ∀ k ∈ s.programmed, k ∈ s.recorded key) :
    (removeAllFor key desired).Meets (booksSpec reliable) (fun r s' =>
      (r = .ok () → (∀ k, k ∈ s'.recorded key ↔ k ∈ (Observed.wants desired).keys) ∧
        ∀ k, k ∈ s'.programmed ↔ k ∈ (Observed.wants desired).keys) ∧
      (r ≠ .ok () → ¬ reliable ∧ s'.installed = s.installed ∧
        ∀ k ∈ s'.programmed, k ∈ s.programmed ∨ k ∈ (Observed.wants desired).keys)) s := by
  refine .bind (Prog.Meets.mono (upsertAll_meets desired []) fun r s₁ upserted => ?_)
  obtain ⟨installed₁, -, only₁, ends₁, fine₁⟩ := upserted
  cases r with
  | error e =>
    refine ⟨nofun, fun _ => ⟨fun trust => ?_, installed₁, only₁⟩⟩
    cases (fine₁ trust).choose_spec
  | ok newKeys =>
    obtain ⟨exact, there⟩ := ends₁ newKeys rfl
    have wanted : ∀ k, k ∈ newKeys ↔ k ∈ (Observed.wants desired).keys := by
      intro k
      simp [exact k]
    refine .bind (.ask trivial fun previous s₂ read => ?_)
    obtain ⟨rfl, rfl⟩ := read
    refine .bind (Prog.Meets.mono (removeStale_meets newKeys _ _) fun r s₃ removed => ?_)
    obtain ⟨installed₃, fewer, kept, ends₃, fine₃⟩ := removed
    cases r with
    | error e =>
      refine ⟨nofun, fun _ => ⟨fun trust => ?_, installed₃.trans installed₁, ?_⟩⟩
      · cases (fine₃ trust).choose_spec
      · exact fun k member => only₁ k (fewer member)
    | ok changed =>
      -- What was programmed before is recorded, so the stale part of it has been removed.
      have programmed : ∀ k, k ∈ s₃.programmed ↔ k ∈ (Observed.wants desired).keys := by
        intro k
        constructor
        · intro member
          rcases only₁ k (fewer member) with before | asked
          · refine (wanted k).mp (ends₃ changed rfl k member ?_)
            rw [Books.recorded, installed₁]
            exact covered k before
          · exact asked
        · exact fun asked => kept k ((wanted k).mpr asked) (there k asked)
      refine .bind (Prog.Meets.mono (recordInstalled_meets key newKeys) fun _ s₄ stored => ?_)
      obtain ⟨same, recorded⟩ := stored
      have settled : (Except.ok () : Except GoError Unit) = .ok () →
          (∀ k, k ∈ s₄.recorded key ↔ k ∈ (Observed.wants desired).keys) ∧
          ∀ k, k ∈ s₄.programmed ↔ k ∈ (Observed.wants desired).keys :=
        fun _ => ⟨fun k => (recorded k).trans (wanted k), by rw [same]; exact programmed⟩
      cases changed with
      | false => exact ⟨settled, fun failed => absurd rfl failed⟩
      | true =>
        refine .bind (.ask trivial fun _ s' told => ?_)
        obtain rfl : s' = s₄ := told
        exact ⟨settled, fun failed => absurd rfl failed⟩

end

/-- Every VIP programmed for an object is recorded for it. -/
def Books.Covered (key : String) (s : Books) : Prop := ∀ k ∈ s.programmed, k ∈ s.recorded key

theorem Books.Covered.call {key : String} {s : Books} (covered : s.Covered key)
    {c : Observed × Surroundings} (careful : Careful key s c) :
    (s.step key c).Covered key ∧ ((s.call key c).1 = .ok () →
      ∀ k, k ∈ (s.step key c).programmed ↔ k ∈ c.1.keys) := by
  have applied : ∀ desired, c.1.keys = (Observed.wants desired).keys →
      s.call key c = (removeAllFor key desired).run (Books.answer c.2) { s with asked := 0 } →
      (s.step key c).Covered key ∧ ((s.call key c).1 = .ok () →
        ∀ k, k ∈ (s.step key c).programmed ↔ k ∈ c.1.keys) := by
    intro desired keys same
    have outcome := (@removeAllFor_meets (∀ i, c.2.replies i = none) { s with asked := 0 } key desired
      covered).run fun s c' _ => answer_obeys id s c'
    rw [Books.step, same, keys]
    obtain ⟨success, failure⟩ := outcome
    constructor
    · intro k member
      by_cases ok : ((removeAllFor key desired).run (Books.answer c.2) { s with asked := 0 }).1 = .ok ()
      · obtain ⟨recorded, programmed⟩ := success ok
        exact (recorded k).mpr ((programmed k).mp member)
      · obtain ⟨unreliable, installed, only⟩ := failure ok
        rw [Books.recorded, installed]
        rcases only k member with before | asked
        · exact covered k before
        -- A call that could fail wants only what is recorded already.
        · exact (careful.resolve_right unreliable) k (keys ▸ asked)
    · exact fun ok => (success ok).2
  obtain ⟨observed, env⟩ := c
  cases observed with
  | unmanaged => exact applied [] rfl rfl
  | failed e => exact ⟨covered, nofun⟩
  | wants desired => exact applied desired rfl rfl

theorem Books.covered_fresh (key : String) : Books.fresh.Covered key := fun _ none => (nomatch none)

/-- In a run of careful calls, what is programmed for an object is recorded, and is what it wants. -/
theorem installed_covers_programmed {key : String} {calls : List (Observed × Surroundings)}
    {last : Observed × Surroundings}
    (careful : Run.Along (Books.step key) (Careful key) Books.fresh (calls ++ [last])) :
    (∀ k ∈ (Run.run (Books.step key) Books.fresh (calls ++ [last])).programmed,
      k ∈ (Run.run (Books.step key) Books.fresh (calls ++ [last])).recorded key) ∧
    (((Run.run (Books.step key) Books.fresh calls).call key last).1 = .ok () →
      (∀ k, k ∈ (Run.run (Books.step key) Books.fresh (calls ++ [last])).programmed ↔
        k ∈ last.1.keys) ∧
      (last.1 = .unmanaged →
        (Run.run (Books.step key) Books.fresh (calls ++ [last])).programmed = [])) := by
  obtain ⟨earlier, ⟨now, -⟩⟩ := Run.along_append.mp careful
  -- The earlier calls leave every programmed VIP recorded; the last one starts from there.
  have covered : (Run.run (Books.step key) Books.fresh calls).Covered key :=
    Run.invariant (P := Books.Covered key) (fun covered careful => (covered.call careful).1)
      (Books.covered_fresh key) earlier
  obtain ⟨still, settled⟩ := covered.call now
  rw [Run.run_append, Run.run_cons, Run.run_nil]
  refine ⟨still, fun ok => ⟨settled ok, fun gone => ?_⟩⟩
  rw [List.eq_nil_iff_forall_not_mem]
  intro k member
  have wanted := (settled ok k).mp member
  rw [gone] at wanted
  cases wanted

section Inputs

/-- Surroundings in which the data-plane calls with these numbers fail. -/
def failingAt (numbers : List Nat) : Surroundings where
  replies i := if i ∈ numbers then some (.plain "no space left on device") else none
  order := id
  order_perm _ := List.Perm.refl _

/-- A Service that wants a VIP on each of two addresses. -/
def twoAddresses : Observed :=
  .wants [⟨plainVIP "10.0.0.1" ["10.1.0.1"], []⟩, ⟨plainVIP "10.0.0.2" ["10.1.0.1"], []⟩]

end Inputs

/-- A call that fails at its second VIP records neither; deleting the object leaves the first one. -/
theorem failed_call_leaves_unrecorded_vip :
    (Books.fresh.step "default/web" (twoAddresses, failingAt [1])).programmed = ["10.0.0.1:80:tcp"] ∧
    (Books.fresh.step "default/web" (twoAddresses, failingAt [1])).recorded "default/web" = [] ∧
    ((Books.fresh.step "default/web" (twoAddresses, failingAt [1])).call "default/web"
      (.unmanaged, failingAt [])).1 = .ok () ∧
    ((Books.fresh.step "default/web" (twoAddresses, failingAt [1])).step "default/web"
      (.unmanaged, failingAt [])).programmed = ["10.0.0.1:80:tcp"] := by
  refine ⟨by decide +kernel, by decide +kernel, rfl, by decide +kernel⟩

/-- A Service whose second update fails at a VIP it had before, and which is then deleted. -/
theorem installed_covers_programmed_until_deleted :
    (Run.run (Books.step "default/web") Books.fresh
      ([(twoAddresses, failingAt []), (twoAddresses, failingAt [1])] ++
        [(.unmanaged, failingAt [])])).programmed = [] := by
  have careful : Run.Along (Books.step "default/web") (Careful "default/web") Books.fresh
      ([(twoAddresses, failingAt []), (twoAddresses, failingAt [1])] ++
        [(.unmanaged, failingAt [])]) :=
    ⟨Or.inr fun _ => rfl, Or.inl (by decide +kernel), Or.inl nofun, trivial⟩
  exact ((installed_covers_programmed careful).2 rfl).2 rfl

end Rivora.Reconciler

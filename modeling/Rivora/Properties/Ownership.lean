import Rivora.Ipam.AllocatorLaws

/-! The allocator's two tables of assignments. -/

namespace Rivora.Ipam

open Run

/-- The two tables of an allocator are inverse to each other. -/
def Allocator.Inverse (a : Allocator) : Prop :=
  ∀ ip key, a.addrOwner.get? ip = some key ↔ a.ownerAddr.get? key = some ip

/-- A reservation is for an object that has no address yet, or this one. -/
def Allocator.ReservesFirst (a : Allocator) (event : Call × Chance) : Prop :=
  ∀ ip key, event.1 = .reserve ip key → a.ownerAddr.get? key = none ∨ a.ownerAddr.get? key = some ip

section Steps

variable {a a' : Allocator} {key ip : String}

theorem Allocator.inverse_new : Allocator.new.Inverse := by
  intro ip key
  simp [new]

theorem Allocator.Inverse.assigned (inverse : a.Inverse) (assigned : a.Assigned key ip a')
    (first : a.ownerAddr.get? key = none ∨ a.ownerAddr.get? key = some ip) : a'.Inverse := by
  intro ip' key'
  rw [assigned.addrOwner, assigned.ownerAddr, FMap.get?_insert, FMap.get?_insert]
  by_cases sameIP : ip' = ip
  · by_cases sameKey : key' = key
    · simp [sameIP, sameKey]
    · -- Nobody else had this address.
      subst sameIP
      rw [if_pos rfl, if_neg sameKey, ← inverse]
      cases assigned.free with
      | inl free => simp [free, Ne.symm sameKey]
      | inr own => simp [own]
  · by_cases sameKey : key' = key
    · -- The object had no other address.
      subst sameKey
      rw [if_neg sameIP, if_pos rfl, inverse]
      cases first with
      | inl lacks => simp [lacks, Ne.symm sameIP]
      | inr has => simp [has]
    · rw [if_neg sameIP, if_neg sameKey]
      exact inverse ip' key'

theorem Allocator.Inverse.release (inverse : a.Inverse) (key : String) : (a.release key).Inverse := by
  intro ip' key'
  rw [release_addrOwner, release_ownerAddr]
  by_cases sameKey : key' = key
  · subst sameKey
    by_cases held : a.ownerAddr.get? key' = some ip'
    · simp [held]
    · have unmarked : ¬ a.addrOwner.get? ip' = some key' := by rwa [inverse]
      simp [held, unmarked]
  · by_cases held : a.ownerAddr.get? key = some ip'
    · -- The address was the released object's, so it is not another's.
      have other : ¬ a.ownerAddr.get? key' = some ip' := by
        rw [← inverse] at held ⊢
        simp [held, Ne.symm sameKey]
      simp [held, other]
    · rw [if_neg held, if_neg sameKey]
      exact inverse ip' key'

theorem Allocator.Inverse.step (inverse : a.Inverse) {event : Call × Chance}
    (first : a.ReservesFirst event) : (a.step event).Inverse :=
  Allocator.step_keeps inverse event (fun _ _ => inverse)
    (fun ip key _ call assigned => inverse.assigned assigned (first ip key call))
    (fun _ _ _ _ _ _ lacks assigned _ => inverse.assigned assigned (Or.inl lacks)) inverse.release

theorem Allocator.Inverse.releaseAll (inverse : a.Inverse) (keys : List String) :
    (keys.foldl Allocator.release a).Inverse ∧
      ∀ key, (keys.foldl Allocator.release a).ownerAddr.get? key =
        if key ∈ keys then none else a.ownerAddr.get? key := by
  induction keys generalizing a with
  | nil => exact ⟨inverse, fun key => by simp⟩
  | cons first rest ih =>
    obtain ⟨inverse', after⟩ := ih (inverse.release first)
    refine ⟨inverse', fun key => ?_⟩
    rw [List.foldl_cons, after, release_ownerAddr]
    by_cases released : key ∈ rest
    · simp [released]
    · by_cases same : key = first
      · simp [same]
      · simp [released, same]

end Steps

/-- The tables after every run of calls that reserves no second address for an object. -/
theorem tables_stay_inverse (calls : List (Call × Chance))
    (first : Along Allocator.step Allocator.ReservesFirst .new calls) :
    (run Allocator.step .new calls).Inverse ∧
      (∀ key ip ip', (run Allocator.step .new calls).addrOwner.get? ip = some key →
        (run Allocator.step .new calls).addrOwner.get? ip' = some key → ip = ip') ∧
      ∀ keys : List String,
        (∀ key, ((run Allocator.step .new calls).ownerAddr.get? key).isSome → key ∈ keys) →
        ∀ ip, (keys.foldl Allocator.release (run Allocator.step .new calls)).addrOwner.get? ip = none := by
  have inverse : (run Allocator.step .new calls).Inverse :=
    Run.invariant (P := Allocator.Inverse) (fun inverse first => inverse.step first)
      Allocator.inverse_new first
  generalize run Allocator.step .new calls = a at inverse ⊢
  refine ⟨inverse, ?_, ?_⟩
  · -- Two addresses of one object would be two values under its key.
    intro key ip ip' owned owned'
    rw [inverse] at owned owned'
    exact Option.some.inj (owned.symm.trans owned')
  · intro keys all ip
    obtain ⟨inverse', after⟩ := inverse.releaseAll keys
    cases marked : (keys.foldl Allocator.release a).addrOwner.get? ip with
    | none => rfl
    | some key =>
      -- Its object would have an address and not be among the released ones.
      rw [inverse', after] at marked
      split at marked
      · cases marked
      · rename_i kept
        exact absurd (all key (by simp [marked])) kept

/-- The pools are visited in order, and the random source fails. -/
def Chance.plain : Chance := ⟨id, List.Perm.refl, fun _ => none⟩

/-- Two reservations for two objects, one of them released. -/
theorem tables_stay_inverse_of_two :
    (run Allocator.step .new [(.reserve "10.0.0.1" "default/web", .plain),
      (.reserve "10.0.0.2" "default/dns", .plain), (.release "default/web", .plain)]).Inverse ∧
    (run Allocator.step .new [(.reserve "10.0.0.1" "default/web", .plain),
      (.reserve "10.0.0.2" "default/dns", .plain),
      (.release "default/web", .plain)]).addrOwner.get? "10.0.0.2" = some "default/dns" := by
  refine ⟨(tables_stay_inverse _ ?_).1, by decide +kernel⟩
  refine ⟨?_, ?_, ?_, trivial⟩
  · rintro ip key ⟨⟩
    exact Or.inl rfl
  · rintro ip key ⟨⟩
    exact Or.inl (by decide +kernel)
  · rintro ip key ⟨⟩

/-- A second address reserved for an object leaves the first one marked forever. -/
theorem second_reservation_leaks :
    let a := run Allocator.step .new
      [(.reserve "10.0.0.1" "default/web", .plain), (.reserve "10.0.0.2" "default/web", .plain)]
    a.addrOwner.get? "10.0.0.1" = some "default/web" ∧ a.addrOwner.get? "10.0.0.2" = some "default/web" ∧
      a.ownerAddr.get? "default/web" = some "10.0.0.2" ∧
      (a.release "default/web").ownerAddr.keys = [] ∧
      (a.release "default/web").addrOwner.get? "10.0.0.1" = some "default/web" := by
  decide +kernel

end Rivora.Ipam

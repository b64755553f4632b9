import Rivora.Bpf.Maps

/-! Map writes seen from the single entries they change. -/

namespace Rivora

variable {c : Cell} {m m' : Maps} {w : MapWrite}

/-- One entry of one map the control plane writes. -/
inductive Cell where
  | vip (key : VipKey)
  | vipRange (key : VipRangeKey)
  | config (serviceID : Nat)
  | slot (index : Nat)
  | backend (key : BackendKey)
  | health (backendID : Nat)
  | limit (serviceID : Nat)
  | drops (serviceID : Nat)
  deriving DecidableEq

/-- The entry a write changes. -/
def MapWrite.cell : MapWrite → Cell
  | .setVip key _ | .deleteVip key => .vip key
  | .setVipRange key _ | .deleteVipRange key => .vipRange key
  | .setServiceConfig sid _ => .config sid
  | .setMaglev slot _ => .slot slot
  | .setBackend key _ | .deleteBackend key => .backend key
  | .setHealth id _ => .health id
  | .setSvcRl sid _ => .limit sid
  | .resetDropStats sid => .drops sid

/-- Two states of the maps have the same entry. -/
def Cell.Agree (c : Cell) (m m' : Maps) : Prop :=
  match c with
  | .vip key => m'.vip.get? key = m.vip.get? key
  | .vipRange key => m'.vipRange.get? key = m.vipRange.get? key
  | .config sid => m'.serviceConfig sid = m.serviceConfig sid
  | .slot i => m'.maglevTable i = m.maglevTable i
  | .backend key => m'.backend.get? key = m.backend.get? key
  | .health id => m'.backendHealth id = m.backendHealth id
  | .limit sid => m'.svcRlConfig sid = m.svcRlConfig sid
  | .drops sid => m'.flow.dropStats sid = m.flow.dropStats sid

/-- An entry holds what a write stores there. -/
def MapWrite.Holds (w : MapWrite) (m : Maps) : Prop :=
  match w with
  | .setVip key sid => m.vip.get? key = some sid
  | .deleteVip key => m.vip.get? key = none
  | .setVipRange key sid => m.vipRange.get? key = some sid
  | .deleteVipRange key => m.vipRange.get? key = none
  | .setServiceConfig sid config => m.serviceConfig sid = config
  | .setMaglev slot id => m.maglevTable slot = id
  | .setBackend key info => m.backend.get? key = some info
  | .deleteBackend key => m.backend.get? key = none
  | .setHealth id health => m.backendHealth id = health
  | .setSvcRl sid config => m.svcRlConfig sid = config
  | .resetDropStats sid => m.flow.dropStats sid = fun _ => 0

theorem Cell.Agree.refl (c : Cell) (m : Maps) : c.Agree m m := by
  cases c <;> exact Eq.refl _

theorem Cell.Agree.symm (same : c.Agree m m') : c.Agree m' m := by
  cases c <;> exact Eq.symm same

theorem Cell.Agree.trans {m'' : Maps} (first : c.Agree m m')
    (second : c.Agree m' m'') : c.Agree m m'' := by
  cases c <;> exact Eq.trans second first

theorem MapWrite.apply_agree (other : w.cell ≠ c) (m : Maps) :
    c.Agree m (w.apply m) := by
  -- Where the kinds of entry differ nothing is to be shown; where they agree the keys differ.
  cases w <;> cases c <;> first
    | exact Eq.refl _
    | (simp only [MapWrite.cell, ne_eq, Cell.vip.injEq, Cell.vipRange.injEq, Cell.config.injEq,
        Cell.slot.injEq, Cell.backend.injEq, Cell.health.injEq, Cell.limit.injEq,
        Cell.drops.injEq] at other
       simp only [Cell.Agree, MapWrite.apply]
       first
         | exact FMap.get?_insert_of_ne _ _ (Ne.symm other)
         | exact FMap.get?_erase_of_ne _ (Ne.symm other)
         | exact arraySet_of_ne _ _ (Ne.symm other))

theorem MapWrite.apply_holds (w : MapWrite) (m : Maps) : w.Holds (w.apply m) := by
  cases w with
  | setVip | setVipRange | setBackend => exact FMap.get?_insert_self _ _ _
  | deleteVip | deleteVipRange | deleteBackend => exact FMap.get?_erase_self _ _
  | setServiceConfig | setMaglev | setHealth | setSvcRl | resetDropStats =>
    exact arraySet_same _ _ _

theorem MapWrite.Holds.of_agree (holds : w.Holds m)
    (same : w.cell.Agree m m') : w.Holds m' := by
  cases w <;> exact Eq.trans same holds

theorem replay_agree {ws : List MapWrite} (others : ∀ w ∈ ws, w.cell ≠ c) (m : Maps) :
    c.Agree m (replay ws m) := by
  refine replay_preserves (P := fun m' => c.Agree m m') ?_ (.refl c m)
  intro w member m' same
  exact same.trans (w.apply_agree (others w member) m')

theorem replay_holds {ws : List MapWrite} (member : w ∈ ws)
    (only : ∀ v ∈ ws, v.cell = w.cell → v = w) (m : Maps) : w.Holds (replay ws m) := by
  induction ws generalizing m with
  | nil => cases member
  | cons v rest ih =>
    rw [replay_cons]
    by_cases later : w ∈ rest
    · exact ih later (fun u inRest => only u (List.mem_cons_of_mem v inRest)) _
    · -- This is the last write to the entry, and the rest leaves it alone.
      have here : w = v := (List.mem_cons.mp member).resolve_right later
      subst here
      refine (w.apply_holds m).of_agree (replay_agree ?_ _)
      intro u inRest same
      exact later (only u (List.mem_cons_of_mem w inRest) same ▸ inRest)

theorem replay_flow (ws : List MapWrite) (m : Maps) :
    ∃ drops, (replay ws m).flow = { m.flow with dropStats := drops } := by
  refine replay_preserves (P := fun m' => ∃ drops, m'.flow = { m.flow with dropStats := drops }) ?_
    ⟨m.flow.dropStats, rfl⟩
  rintro w _ m' ⟨drops, same⟩
  cases w with
  | resetDropStats sid =>
    refine ⟨arraySet drops sid fun _ => 0, ?_⟩
    simp only [MapWrite.apply, same]
  | _ => exact ⟨drops, same⟩

end Rivora

import Rivora.Bpf.Cells
import Rivora.Proofs.Upserted

/-! A VIP's table in its range of the shared lookup table. -/

namespace Rivora

variable {target : Extent} {ids : List Nat}

theorem slotWrites_unique {v w : MapWrite}
    (first : v ∈ slotWrites target ids) (second : w ∈ slotWrites target ids)
    (same : v.cell = w.cell) : v = w := by
  obtain ⟨⟨id, i⟩, member, rfl⟩ := List.mem_map.mp first
  obtain ⟨⟨id', i'⟩, member', rfl⟩ := List.mem_map.mp second
  -- One slot is one position of the table.
  have position : i = i' := Nat.add_left_cancel (Cell.slot.inj same)
  subst position
  rw [(List.mem_zipIdx' member).2, (List.mem_zipIdx' member').2]

theorem slotWrites_hold {m : Maps} :
    (∀ w ∈ slotWrites target ids, w.Holds m) ↔
      ∀ i (below : i < ids.length), m.maglevTable (target.offset + i) = ids[i] := by
  constructor
  · intro hold i below
    refine hold (.setMaglev (target.offset + i) ids[i]) (List.mem_map.mpr ⟨(ids[i], i), ?_, rfl⟩)
    exact List.mk_mem_zipIdx_iff_getElem?.mpr (List.getElem?_eq_getElem below)
  · intro read w member
    obtain ⟨⟨id, i⟩, listed, rfl⟩ := List.mem_map.mp member
    obtain ⟨below, value⟩ := List.mem_zipIdx' listed
    exact (read i below).trans value.symm

theorem slotWrites_cell (fits : ids.length ≤ target.size)
    {w : MapWrite} (member : w ∈ slotWrites target ids) :
    ∃ slot ∈ target.slots, w.cell = .slot slot := by
  obtain ⟨slot, id, rfl, inside, _⟩ := mem_slotWrites fits member
  exact ⟨slot, inside, rfl⟩

theorem get?_programmedWeights (vip : VIP) (name : String) :
    (programmedWeights vip).get? name =
      ((desiredBackends vip).get? name).map fun b => Maglev.normalizeWeight b.weight := by
  -- Both maps keep the last backend of a name.
  unfold programmedWeights desiredBackends
  rw [FMap.get?_ofList, FMap.get?_ofList, ← List.map_reverse, ← List.map_reverse, List.find?_map,
    List.find?_map, Option.map_map, Option.map_map, Option.map_map]
  rfl

theorem vipMembers_shares {v w : VIP}
    (names : ∀ name, (desiredBackends v).contains name = (desiredBackends w).contains name)
    (weights : weightsChanged v (desiredBackends w) = false) :
    (vipMembers v).map Maglev.Member.share = (vipMembers w).map Maglev.Member.share := by
  have sameKeys : ∀ name, name ∈ (desiredBackends v).keys ↔ name ∈ (desiredBackends w).keys := by
    intro name
    rw [← FMap.contains_iff, names name, FMap.contains_iff]
  unfold vipMembers
  rw [sortedKeys_congr sameKeys, List.map_map, List.map_map]
  refine List.map_congr_left fun name member => ?_
  have wanted : name ∈ (desiredBackends w).keys := (List.mem_insertionSort _).mp member
  obtain ⟨b, found⟩ := FMap.mem_keys.mp wanted
  obtain ⟨b', found'⟩ := FMap.mem_keys.mp ((sameKeys name).mpr wanted)
  -- The weight the comparison saw for this name.
  have compared := List.any_eq_false.mp weights (name, b) (FMap.get?_eq_some.mp found)
  simp only [get?_programmedWeights, found', Option.map_some, Option.getD_some, ne_eq,
    decide_not, Bool.not_eq_true', decide_eq_false_iff_not, not_not] at compared
  simp only [Function.comp_apply, Maglev.Member.share, found, found', Option.map_some,
    Option.getD_some, compared]

theorem slotIDs_congr {e f : ServiceEntry}
    (ids : ∀ name, f.backendIDs.get? name = e.backendIDs.get? name)
    (shares : (vipMembers f.vip).map Maglev.Member.share =
      (vipMembers e.vip).map Maglev.Member.share) (table : List Nat) :
    f.slotIDs table = e.slotIDs table := by
  -- A position's name is the first half of its share.
  have named : ∀ (members : List Maglev.Member) (i : Nat), members[i]?.map Maglev.Member.name =
      ((members.map Maglev.Member.share)[i]?).map Prod.fst := by
    intro members i
    rw [List.getElem?_map, Option.map_map]
    rfl
  unfold ServiceEntry.slotIDs tableIDs
  refine List.map_congr_left fun i _ => ?_
  rw [named, named, shares, funext ids]

end Rivora

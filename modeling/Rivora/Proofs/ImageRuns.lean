import Rivora.Proofs.Image
import Rivora.Proofs.Parts

/-! Every part of an operation keeps the maps the image of the control state. -/

namespace Rivora

variable {p q : Dataplane} {m : Maps} {ws ws₁ ws₂ : List MapWrite} {leak : String → Nat} {env : Env} {ip : IP}
   {w : MapWrite} {entry : ServiceEntry} {key : String}

theorem BackendImage.frame (image : BackendImage p m)
    (others : ∀ w ∈ ws, (∀ k, w.cell ≠ .backend k) ∧ ∀ id, w.cell ≠ .health id) :
    BackendImage p (replay ws m) := by
  have backend : ∀ k, (replay ws m).backend.get? k = m.backend.get? k := fun k =>
    replay_agree (c := .backend k) (fun w member => (others w member).1 k) m
  have health : ∀ id, (replay ws m).backendHealth id = m.backendHealth id := fun id =>
    replay_agree (c := .health id) (fun w member => (others w member).2 id) m
  refine ⟨?_, ?_, ?_⟩
  · intro id st found
    rw [backend]
    exact image.described found
  · intro key info stored
    rw [backend] at stored
    exact image.only stored
  · intro id
    rw [health]
    exact image.health id

theorem Upserted.later {spec : VIP}
    {f : ServiceEntry} {ws' : List MapWrite}
    (up : Upserted leak env spec p q f ip ws ws')
    (member : w ∈ ws' ++ .setServiceConfig f.serviceID (programmedConfig f.vip f.extent) ::
      (limitWrites p f.serviceID f.vip.rateLimit ++ vipWrites f.vip ip f.serviceID)) :
    (∀ k, w.cell ≠ .backend k) ∧ ∀ id, w.cell ≠ .health id := by
  rcases List.mem_append.mp member with slot | member
  · obtain ⟨i, _, cell⟩ := up.table.cells.1 w slot
    rw [cell]
    exact ⟨fun _ => nofun, fun _ => nofun⟩
  rcases List.mem_cons.mp member with rfl | member
  · exact ⟨fun _ => nofun, fun _ => nofun⟩
  rcases List.mem_append.mp member with limit | key
  · rw [(limitWrites_cell limit).1]
    exact ⟨fun _ => nofun, fun _ => nofun⟩
  · rcases vipWrites_kind key with ⟨_, cell⟩ | ⟨_, cell⟩
    · rw [cell]
      exact ⟨fun _ => nofun, fun _ => nofun⟩
    · rw [cell]
      exact ⟨fun _ => nofun, fun _ => nofun⟩

/-- A successful upsert of a VIP that can stand beside the programmed ones keeps the image. -/
theorem Imaged.upsert {spec : VIP} {f : ServiceEntry}
    {ws' : List MapWrite} (imaged : Imaged p m)
    (up : Upserted (fun _ => 0) env spec p q f ip ws ws') (reliable : env.Reliable)
    (beside : ∀ {k e}, p.services.get? k = some e → e.vip.Compatible spec) :
    Imaged q (replay (upsertWrites p f ip ws ws') m) := by
  have dp : q.dp = p.dp := by rw [up.rest]
  have cpus : q.numCPU = p.numCPU := by rw [up.rest]
  have key : vipKeyString f.vip = vipKeyString spec := by rw [up.vip]; rfl
  -- An entry of the new state is the VIP's own, or one of a VIP that was not touched.
  have stored : ∀ {k e}, q.services.get? k = some e →
      (k = vipKeyString spec ∧ e = f) ∨ (k ≠ vipKeyString spec ∧ p.services.get? k = some e) := by
    intro k e found
    by_cases here : k = vipKeyString spec
    · subst here
      cases up.entry.symm.trans found
      exact Or.inl ⟨rfl, rfl⟩
    · exact Or.inr ⟨here, (up.others k here).symm.trans found⟩
  have apart : ∀ {k e}, k ≠ vipKeyString spec → p.services.get? k = some e →
      ∀ w ∈ upsertWrites p f ip ws ws', ¬ e.Owns w.cell := fun differ found w member =>
    up.apart differ found (imaged.keyed found).2 (beside found) member
  refine { owned := up.owned, keyed := ?_, compatible := ?_, exact := ?_, programmed := ?_,
           keys := ?_, idle := ?_, backends := ?_ }
  · intro k e found
    rcases stored found with ⟨rfl, rfl⟩ | ⟨_, before⟩
    · exact ⟨by rw [up.vipSpec], key⟩
    · exact imaged.keyed before
  · intro k k' e e' found found'
    rcases stored found with ⟨_, rfl⟩ | ⟨_, before⟩
    · rcases stored found' with ⟨_, rfl⟩ | ⟨_, before'⟩
      · exact .refl _
      · exact ((beside before').of_keys rfl key).symm
    · rcases stored found' with ⟨_, rfl⟩ | ⟨_, before'⟩
      · exact (beside before).of_keys rfl key
      · exact imaged.compatible before before'
  · intro k e name id found named
    rcases stored found with ⟨_, rfl⟩ | ⟨_, before⟩
    · exact (up.names name).mp ⟨id, named⟩
    · exact imaged.exact before named
  · intro k e found
    rcases stored found with ⟨_, rfl⟩ | ⟨differ, before⟩
    · exact up.programmed fun e₀ existed =>
        ⟨imaged.programmed existed, fun name id named => imaged.exact existed named⟩
    · exact (imaged.programmed before).frame dp cpus (apart differ before)
  · intro w isKey holds
    by_cases mine : w.cell ∈ vipCells f.vip ip
    · -- The endpoint is the VIP's own, where the upsert stored its service.
      rw [← vipWrites_cells f.vip ip f.serviceID] at mine
      obtain ⟨v, member, cell⟩ := List.mem_map.mp mine
      have same := (vipWrites_isKey member).unique isKey cell
        (up.holds m (Or.inr (Or.inr (Or.inr member)))) holds
      exact ⟨_, f, ip, up.entry, up.able.address, same ▸ member⟩
    · -- The endpoint was not written, and so belonged to another VIP before.
      have untouched : w.cell.Agree m (replay (upsertWrites p f ip ws ws') m) := by
        refine replay_agree ?_ m
        intro v member same
        exact mine (same ▸ up.endpoint member (same ▸ isKey.cell))
      obtain ⟨k, e, ip', before, parsed, member⟩ := imaged.keys isKey (holds.of_agree untouched.symm)
      by_cases here : k = vipKeyString spec
      · refine absurd ?_ mine
        have sameKey : vipKeyString e.vip = vipKeyString f.vip := by rw [(imaged.keyed before).2, key, here]
        have sameIP : ip' = ip := by
          rw [(vipKeyString_inj sameKey).1, up.able.address] at parsed
          exact (Option.some.inj parsed).symm
        rw [← vipCells_congr sameKey, ← sameIP, ← vipWrites_cells e.vip ip' e.serviceID]
        exact List.mem_map_of_mem member
      · exact ⟨k, e, ip', (up.others k here).trans before, parsed, member⟩
  · intro sid unused
    have other : f.serviceID ≠ sid := unused _ f up.entry
    have same : (replay (upsertWrites p f ip ws ws') m).serviceConfig sid = m.serviceConfig sid := by
      refine replay_agree (c := .config sid) ?_ m
      intro v member cell
      cases up.kind member with
      | config => exact other (Cell.config.inj cell)
      | drops => cases cell
      | backend c | health c | slot _ _ c | limit _ c => rw [c] at cell; cases cell
      | key _ c => rcases vipCells_kind c with ⟨_, c⟩ | ⟨_, c⟩ <;> rw [c] at cell <;> cases cell
    rw [same]
    refine imaged.idle sid fun k e before => ?_
    by_cases here : k = vipKeyString spec
    · rw [← up.known (here ▸ before)]
      exact other
    · exact unused k e ((up.others k here).trans before)
  · rw [upsertWrites, replay_append]
    exact (up.image reliable m imaged.backends).frame fun w member => up.later member

theorem RemoveWrite.cell (kind : RemoveWrite p entry w) :
    (∃ ip, parseIP entry.vip.address = some ip ∧ w.cell ∈ vipCells entry.vip ip) ∨
      w.cell = .config entry.serviceID ∨ w.cell = .limit entry.serviceID ∨
      w.cell = .drops entry.serviceID := by
  cases kind with
  | key parsed listed =>
    refine Or.inl ⟨_, parsed, ?_⟩
    rw [← vipDeletes_cells]
    exact List.mem_map_of_mem listed
  | config => exact Or.inr (Or.inl rfl)
  | limit listed => exact Or.inr (Or.inr (Or.inl (limitWrites_cell listed).1))
  | drops => exact Or.inr (Or.inr (Or.inr rfl))

theorem Removed.apart {leak' : String → Nat}
    (removed : Removed leak env key entry p q ws₁ ws₂)
    (owned : Owned leak' p) (found : p.services.get? key = some entry)
    (mine : vipKeyString entry.vip = key) {k : String} {e : ServiceEntry} (differ : k ≠ key)
    (other : p.services.get? k = some e) (theirs : vipKeyString e.vip = k)
    (compatible : e.vip.Compatible entry.vip) (member : w ∈ ws₁ ++ ws₂) :
    ¬ e.Owns w.cell := by
  have sid : e.serviceID ≠ entry.serviceID := fun same =>
    differ (owned.services.key_unique other found same)
  intro owns
  rcases List.mem_append.mp member with first | second
  · rcases (removed.released w first).cell with ⟨_, cell⟩ | ⟨_, cell⟩
    · rw [cell] at owns
      exact owns
    · rw [cell] at owns
      exact owns
  · rcases (removed.kinds w second).cell with ⟨ip, parsed, listed⟩ | cell | cell | cell
    · obtain ⟨ip', parsed', listed'⟩ := owns.key listed
      exact vipCells_disjoint compatible (by rw [theirs, mine]; exact differ) parsed' parsed listed'
        listed
    · rw [cell] at owns
      exact sid (Eq.symm owns)
    · rw [cell] at owns
      exact sid (Eq.symm owns)
    · rw [cell] at owns
      exact owns

theorem Removed.cleared (removed : Removed leak env key entry p q ws₁ ws₂)
    (reliable : env.Reliable) (parsed : parseIP entry.vip.address = some ip)
    (range : entry.vip.isRange = true → p.hasRangeMap ip = true)
    (stored : w ∈ vipDeletes entry.vip ip ∨ w = .setServiceConfig entry.serviceID .zero) (m : Maps) :
    w.Holds (replay (ws₁ ++ ws₂) m) := by
  obtain ⟨drops, complete, onlyDrops⟩ := removed.complete reliable ip parsed range
  rw [replay_append, complete]
  -- What is written behind them is the limit and the counters.
  have behind : ∀ v ∈ limitWrites p entry.serviceID default ++ drops,
      v.cell = .limit entry.serviceID ∨ v.cell = .drops entry.serviceID := by
    intro v member
    rcases List.mem_append.mp member with limit | drop
    · exact Or.inl (limitWrites_cell limit).1
    · rw [onlyDrops v drop]
      exact Or.inr rfl
  rcases stored with deleted | rfl
  · have isKey : w.cell.IsKey := by
      have listed := List.mem_map_of_mem (f := MapWrite.cell) deleted
      rw [vipDeletes_cells] at listed
      exact vipCells_kind listed
    refine replay_holds (List.mem_append_left _ deleted) ?_ _
    intro v member same
    rcases List.mem_append.mp member with other | member
    · exact vipDeletes_unique other deleted same
    rcases List.mem_cons.mp member with rfl | member
    · rcases isKey with ⟨_, this⟩ | ⟨_, this⟩ <;> rw [this] at same <;> cases same
    · rcases behind v member with cell | cell <;> rcases isKey with ⟨_, this⟩ | ⟨_, this⟩ <;>
        rw [this, cell] at same <;> cases same
  · rw [replay_append]
    refine replay_holds List.mem_cons_self ?_ _
    intro v member same
    rcases List.mem_cons.mp member with rfl | member
    · rfl
    · rcases behind v member with cell | cell <;> rw [cell] at same <;> cases same

theorem Removed.spares (removed : Removed leak env key entry p q ws₁ ws₂)
    {c : Cell} (isKey : c.IsKey)
    (outside : ∀ ip, parseIP entry.vip.address = some ip → c ∉ vipCells entry.vip ip) (m : Maps) :
    c.Agree m (replay (ws₁ ++ ws₂) m) := by
  refine replay_agree ?_ m
  intro v member same
  rcases List.mem_append.mp member with first | second
  · -- The first half writes backends only.
    rcases (removed.released v first).cell with ⟨k, cell⟩ | ⟨id, cell⟩ <;>
      rcases isKey with ⟨_, this⟩ | ⟨_, this⟩ <;> rw [cell, this] at same <;> cases same
  · rcases (removed.kinds v second).cell with ⟨ip, parsed, inside⟩ | cell | cell | cell
    · exact outside ip parsed (same ▸ inside)
    all_goals
      rcases isKey with ⟨_, this⟩ | ⟨_, this⟩ <;> rw [cell, this] at same <;> cases same

/-- A removal keeps the image. -/
theorem Imaged.remove (imaged : Imaged p m)
    (found : p.services.get? key = some entry)
    (removed : Removed (fun _ => 0) env key entry p q ws₁ ws₂) (reliable : env.Reliable) :
    Imaged q (replay (ws₁ ++ ws₂) m) := by
  have dp : q.dp = p.dp := by rw [removed.rest]
  have cpus : q.numCPU = p.numCPU := by rw [removed.rest]
  have mine := (imaged.keyed found).2
  obtain ⟨ip, able, _⟩ := (imaged.programmed found).keys
  -- Every entry of the new state is one of a VIP that was not touched.
  have stored : ∀ {k e}, q.services.get? k = some e → k ≠ key ∧ p.services.get? k = some e := by
    intro k e after
    by_cases here : k = key
    · rw [here, removed.gone] at after
      cases after
    · exact ⟨here, (removed.others k here).symm.trans after⟩
  -- The first half writes backends only.
  have early : ∀ {w c}, w ∈ ws₁ → w.cell = c → (∀ k, c ≠ .backend k) → (∀ id, c ≠ .health id) → False := by
    intro w c member cell notBackend notHealth
    rcases (removed.released w member).cell with ⟨k, this⟩ | ⟨id, this⟩
    · exact notBackend k (cell.symm.trans this)
    · exact notHealth id (cell.symm.trans this)
  have cleared : ∀ {w}, w ∈ vipDeletes entry.vip ip ∨ w = .setServiceConfig entry.serviceID .zero →
      w.Holds (replay (ws₁ ++ ws₂) m) := fun stored =>
    removed.cleared reliable able.address able.range stored m
  refine { owned := removed.owned, keyed := ?_, compatible := ?_, exact := ?_, programmed := ?_,
           keys := ?_, idle := ?_, backends := ?_ }
  · exact fun after => imaged.keyed (stored after).2
  · exact fun after after' => imaged.compatible (stored after).2 (stored after').2
  · exact fun after named => imaged.exact (stored after).2 named
  · intro k e after
    obtain ⟨differ, before⟩ := stored after
    exact (imaged.programmed before).frame dp cpus fun w member =>
      removed.apart imaged.owned found mine differ before (imaged.keyed before).2
        (imaged.compatible before found) member
  · intro w isKey holds
    by_cases listed : w.cell ∈ vipCells entry.vip ip
    · -- The removed VIP's endpoints are empty now.
      rw [← vipDeletes_cells] at listed
      obtain ⟨v, member, cell⟩ := List.mem_map.mp listed
      exact absurd holds (isKey.not_deleted member cell (cleared (Or.inl member)))
    · have untouched : w.cell.Agree m (replay (ws₁ ++ ws₂) m) := by
        refine removed.spares isKey.cell (fun ip' parsed => ?_) m
        rw [able.address] at parsed
        cases parsed
        exact listed
      obtain ⟨k, e, ip', before, parsed, member⟩ := imaged.keys isKey (holds.of_agree untouched.symm)
      refine ⟨k, e, ip', (removed.others k ?_).trans before, parsed, member⟩
      rintro rfl
      cases found.symm.trans before
      rw [able.address] at parsed
      cases parsed
      refine listed ?_
      rw [← vipWrites_cells entry.vip ip entry.serviceID]
      exact List.mem_map_of_mem member
  · intro sid unused
    by_cases freed : sid = entry.serviceID
    · rw [freed]
      exact cleared (Or.inr rfl)
    · have same : (replay (ws₁ ++ ws₂) m).serviceConfig sid = m.serviceConfig sid := by
        refine replay_agree (c := .config sid) ?_ m
        intro v member same
        rcases List.mem_append.mp member with first | second
        · exact early first same nofun nofun
        · rcases (removed.kinds v second).cell with ⟨ip', _, inside⟩ | cell | cell | cell
          · rcases vipCells_kind inside with ⟨_, this⟩ | ⟨_, this⟩ <;> rw [this] at same <;> cases same
          all_goals
            rw [cell] at same
            cases same
          exact freed rfl
      rw [same]
      refine imaged.idle sid fun k e before => ?_
      by_cases here : k = key
      · subst here
        cases found.symm.trans before
        exact fun same => freed same.symm
      · exact unused k e ((removed.others k here).trans before)
  · rw [replay_append]
    refine (removed.image reliable m imaged.backends).frame fun w member => ?_
    rcases (removed.kinds w member).cell with ⟨ip, _, listed⟩ | cell | cell | cell
    · rcases vipCells_kind listed with ⟨_, this⟩ | ⟨_, this⟩ <;> rw [this] <;>
        exact ⟨fun _ => nofun, fun _ => nofun⟩
    all_goals
      rw [cell]
      exact ⟨fun _ => nofun, fun _ => nofun⟩

theorem BackendState.mark_fields (st : BackendState) (value : Bool) (kind : Mark) :
    (st.mark value kind).address = st.address ∧ (st.mark value kind).port = st.port ∧
      (st.mark value kind).isV4 = st.isV4 ∧ (st.mark value kind).storedMAC = st.storedMAC ∧
      (st.mark value kind).refCount = st.refCount := by
  cases kind <;> exact ⟨rfl, rfl, rfl, rfl, rfl⟩

theorem Owned.mark (owned : Owned leak p) (id : Nat)
    (value : Bool) (kind : Mark) :
    Owned leak (p.modifyBackend id fun st => st.mark value kind) := by
  have rest := modifyBackend_rest p id fun st => st.mark value kind
  refine ⟨owned.backends.congr (fun _ => by rw [rest]) ?_ (by rw [rest]),
    owned.services.congr (fun _ => by rw [rest]) (by rw [rest]),
    owned.tiled.congr (fun _ => by rw [rest]) (by rw [rest]), ?_⟩
  · intro j
    rw [modifyBackend_get?]
    split
    · rename_i same
      subst same
      rw [Option.map_map]
      refine congrArg (fun f => Option.map f _) (funext fun st => ?_)
      obtain ⟨address, port, isV4, _, refs⟩ := st.mark_fields value kind
      simp only [Function.comp_apply, BackendState.name, address, port, isV4, refs]
    · rfl
  · intro k e found
    rw [rest] at found
    exact owned.sized found

theorem BackendImage.mark (image : BackendImage p m) {id : Nat}
    {st : BackendState} (known : p.backendStates.get? id = some st) (value : Bool) (kind : Mark) :
    BackendImage (p.modifyBackend id fun st => st.mark value kind)
      ((MapWrite.setHealth id (st.mark value kind).health).apply m) := by
  refine ⟨?_, ?_, ?_⟩
  · intro j st' found
    rw [modifyBackend_get?] at found
    split at found
    · rename_i same
      subst same
      rw [known, Option.map_some] at found
      cases found
      obtain ⟨address, port, isV4, mac, _⟩ := st.mark_fields value kind
      rw [address, port, isV4, mac]
      exact image.described known
    · exact image.described found
  · intro key info stored
    obtain ⟨st', found, family⟩ := image.only stored
    rw [modifyBackend_get?]
    split
    · rename_i same
      rw [same, known] at found
      cases found
      exact ⟨_, by rw [known]; rfl, by rw [(st.mark_fields value kind).2.2.1]; exact family⟩
    · exact ⟨st', found, family⟩
  · intro j
    rw [modifyBackend_get?]
    by_cases same : j = id
    · rw [if_pos same, same, known]
      exact arraySet_same _ _ _
    · rw [if_neg same, ← image.health j]
      exact arraySet_of_ne _ _ same

theorem Imaged.mark (imaged : Imaged p m) {id : Nat} {st : BackendState}
    (known : p.backendStates.get? id = some st) (value : Bool) (kind : Mark) :
    Imaged (p.modifyBackend id fun st => st.mark value kind)
      ((MapWrite.setHealth id (st.mark value kind).health).apply m) := by
  have rest := modifyBackend_rest p id fun st => st.mark value kind
  have services : (p.modifyBackend id fun st => st.mark value kind).services = p.services := by
    rw [rest]
  -- A health entry belongs to no VIP.
  have frame : ∀ {e}, Programmed p e m → Programmed (p.modifyBackend id fun st => st.mark value kind) e
      (replay [.setHealth id (st.mark value kind).health] m) := by
    intro e programmed
    refine programmed.frame (by rw [rest]) (by rw [rest]) fun w member owns => ?_
    rw [List.mem_singleton.mp member] at owns
    exact owns
  refine { owned := imaged.owned.mark id value kind, keyed := ?_, compatible := ?_, exact := ?_,
           programmed := ?_, keys := ?_, idle := ?_, backends := imaged.backends.mark known value kind }
  · rw [services]
    exact imaged.keyed
  · rw [services]
    exact imaged.compatible
  · rw [services]
    exact imaged.exact
  · intro k e found
    rw [services] at found
    exact frame (imaged.programmed found)
  · intro w isKey holds
    rw [services]
    refine imaged.keys isKey (holds.of_agree (MapWrite.apply_agree ?_ m).symm)
    rcases isKey.cell with ⟨_, this⟩ | ⟨_, this⟩ <;> rw [this] <;> nofun
  · rw [services]
    exact imaged.idle

theorem Imaged.modifyEntry (imaged : Imaged p m) (key : String)
    {f : ServiceEntry → ServiceEntry}
    (hidden : ∀ e, f e = { e with weightOverrides := (f e).weightOverrides }) :
    Imaged (p.modifyEntry key f) m := by
  have rest := modifyEntry_rest p key f
  -- Every entry shows what it showed before.
  have stored : ∀ {k e}, (p.modifyEntry key f).services.get? k = some e →
      ∃ e₀, p.services.get? k = some e₀ ∧ e = { e₀ with weightOverrides := e.weightOverrides } := by
    intro k e found
    by_cases here : k = key
    · subst here
      cases before : p.services.get? k with
      | none =>
        rw [Dataplane.modifyEntry, before] at found
        rw [before] at found
        cases found
      | some e₀ =>
        rw [modifyEntry_get?_self before] at found
        cases found
        exact ⟨e₀, rfl, hidden e₀⟩
    · rw [modifyEntry_get?_of_ne _ _ here] at found
      exact ⟨e, found, rfl⟩
  have kept : ∀ {k e₀}, p.services.get? k = some e₀ → ∃ e, (p.modifyEntry key f).services.get? k =
      some e ∧ e = { e₀ with weightOverrides := e.weightOverrides } := by
    intro k e₀ before
    by_cases here : k = key
    · subst here
      exact ⟨f e₀, modifyEntry_get?_self before f, hidden e₀⟩
    · exact ⟨e₀, (modifyEntry_get?_of_ne _ _ here).trans before, rfl⟩
  refine { owned := imaged.owned.modifyEntry key (fun e => by rw [hidden]) (fun e => by rw [hidden])
             fun e => by rw [hidden],
           keyed := ?_, compatible := ?_, exact := ?_, programmed := ?_, keys := ?_, idle := ?_,
           backends := imaged.backends.congr (by rw [rest]) }
  · intro k e found
    obtain ⟨e₀, before, same⟩ := stored found
    have keyed := imaged.keyed before
    rw [same]
    exact keyed
  · intro k k' e e' found found'
    obtain ⟨e₀, before, same⟩ := stored found
    obtain ⟨e₁, before', same'⟩ := stored found'
    have compatible := imaged.compatible before before'
    rw [same, same']
    exact compatible
  · intro k e name id found named
    obtain ⟨e₀, before, same⟩ := stored found
    have exact := @Imaged.exact _ _ imaged k e₀ name id before
    rw [same] at named ⊢
    exact exact named
  · intro k e found
    obtain ⟨e₀, before, same⟩ := stored found
    have shown : Programmed (p.modifyEntry key f) e₀ (replay [] m) :=
      (imaged.programmed before).frame (by rw [rest]) (by rw [rest]) fun _ member => by cases member
    rw [same]
    exact ⟨shown.config, shown.limit, shown.keys, shown.listed, shown.sized, shown.table⟩
  · intro w isKey holds
    obtain ⟨k, e₀, ip, before, parsed, member⟩ := imaged.keys isKey holds
    obtain ⟨e, found, same⟩ := kept before
    exact ⟨k, e, ip, found, by rw [same]; exact parsed, by rw [same]; exact member⟩
  · intro sid unused
    refine imaged.idle sid fun k e₀ before => ?_
    obtain ⟨e, found, same⟩ := kept before
    have := unused k e found
    rw [same] at this
    exact this

theorem Imaged.part {part : Part} {s s' : World}
    (imaged : Imaged s.plane (replay s.writes m)) (reliable : env.Reliable)
    (run : part.run env s = (.ok (), s'))
    (beside : ∀ spec, part = .upsert spec →
      ∀ {k e}, s.plane.services.get? k = some e → e.vip.Compatible spec) :
    Imaged s'.plane (replay s'.writes m) := by
  cases part with
  | upsert spec =>
    obtain ⟨f, ip, ws, ws', up, logged⟩ := upsertVIP_ok imaged.owned run
    rw [logged, replay_append]
    exact imaged.upsert up reliable (beside spec rfl)
  | remove key =>
    rcases removeVIP_run key env imaged.owned with
      ⟨_, same⟩ | ⟨entry, t, ws₁, ws₂, found, run', logged, removed⟩
    · cases same.symm.trans run
      exact imaged
    · cases run'.symm.trans run
      rw [logged, replay_append]
      exact imaged.remove found removed reliable
  | reweigh key name weight =>
    have run' := (reweighVIP_eq key name weight env s).symm.trans run
    have imaged' : Imaged (s.plane.reweighed key name weight) (replay s.writes m) :=
      imaged.modifyEntry key fun _ => rfl
    obtain ⟨f, ip, ws, ws', up, logged⟩ := upsertVIP_ok (s := s.withPlane (s.plane.reweighed key name weight)) imaged'.owned run'
    rw [logged, replay_append]
    refine imaged'.upsert up reliable fun {k e} stored => ?_
    cases found : s.plane.services.get? key with
    | some e₀ =>
      -- The VIP programmed again stands beside the others already.
      have mine := modifyEntry_get?_self found fun e => e.overrideWeight name weight
      refine (imaged'.compatible stored mine).of_keys rfl ?_
      have recorded : s.plane.recordedSpec key = e₀.vipSpec := by
        rw [Dataplane.recordedSpec, found]
        rfl
      rw [recorded, (imaged.keyed found).1]
      exact (imaged.keyed found).2.symm
    | none =>
      -- The zero value of a VIP has no address, so it cannot have been programmed.
      have recorded : s.plane.recordedSpec key = default := by
        rw [Dataplane.recordedSpec, found]
        rfl
      have address := up.able.address
      rw [up.vip, recorded] at address
      cases address
  | mark kind id value =>
    rcases setMark_run kind id value env imaged.owned.backends with
      ⟨_, same⟩ | ⟨st, t, known, plane, ⟨run', logged⟩ | ⟨_, _, fails⟩⟩
    · cases same.symm.trans run
      exact imaged
    · cases run'.symm.trans run
      rw [logged, replay_append, plane]
      exact imaged.mark known value kind
    · exact absurd fails (reliable _)

end Rivora

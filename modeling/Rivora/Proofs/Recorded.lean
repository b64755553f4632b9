import Rivora.Proofs.ImageRuns
import Rivora.System

/-! Runs in which nothing fails. -/

namespace Rivora

variable {leak : String → Nat} {env : Env} {spec : VIP} {p : Dataplane} {n : Node}

/-- Every VIP is programmed as its spec and its overrides say. -/
def Recorded (p : Dataplane) : Prop :=
  ∀ ⦃k e⦄, p.services.get? k = some e → e.vip = e.vipSpec.overrideWeights e.weightOverrides

theorem overrideWeights_prune (spec : VIP) (overrides : FMap String Nat) :
    spec.overrideWeights (pruneOverrides spec overrides) = spec.overrideWeights overrides := by
  unfold VIP.overrideWeights
  have same : ∀ b ∈ spec.backends, (pruneOverrides spec overrides).get? (backendName b) =
      overrides.get? (backendName b) := by
    intro b member
    rw [pruneOverrides, FMap.get?_filterKeys, if_pos]
    exact List.any_eq_true.mpr ⟨b, member, by simp⟩
  congr 1
  refine List.map_congr_left fun b member => ?_
  rw [same b member]

theorem Upserted.recorded {q : Dataplane}
    {f : ServiceEntry} {ip : IP} {ws ws' : List MapWrite}
    (up : Upserted leak env spec p q f ip ws ws') :
    f.vip = f.vipSpec.overrideWeights f.weightOverrides := by
  rw [up.vip, up.vipSpec, up.overrides, overrideWeights_prune]
  rfl

theorem Upserted.recordedAll {q : Dataplane}
    {f : ServiceEntry} {ip : IP} {ws ws' : List MapWrite}
    (up : Upserted leak env spec p q f ip ws ws')
    (before : ∀ {k e}, k ≠ vipKeyString spec → p.services.get? k = some e →
      e.vip = e.vipSpec.overrideWeights e.weightOverrides) : Recorded q := by
  intro k e found
  by_cases here : k = vipKeyString spec
  · subst here
    cases up.entry.symm.trans found
    exact up.recorded
  · exact before here ((up.others k here).symm.trans found)

theorem Recorded.part {part : Part} {s s' : World} {m : Maps}
    (recorded : Recorded s.plane) (imaged : Imaged s.plane m)
    (run : part.run env s = (.ok (), s')) : Recorded s'.plane := by
  cases part with
  | upsert spec =>
    obtain ⟨f, ip, ws, ws', up, _⟩ := upsertVIP_ok imaged.owned run
    exact up.recordedAll fun _ found => recorded found
  | remove key =>
    rcases removeVIP_run key env imaged.owned with ⟨_, same⟩ | ⟨entry, t, ws₁, ws₂, _, run', _, removed⟩
    · cases same.symm.trans run
      exact recorded
    · cases run'.symm.trans run
      intro k e found
      by_cases here : k = key
      · rw [here, removed.gone] at found
        cases found
      · exact recorded ((removed.others k here).symm.trans found)
  | reweigh key name weight =>
    have run' := (reweighVIP_eq key name weight env s).symm.trans run
    have imaged' : Imaged (s.plane.reweighed key name weight) m := imaged.modifyEntry key fun _ => rfl
    obtain ⟨f, ip, ws, ws', up, _⟩ := upsertVIP_ok (s := s.withPlane (s.plane.reweighed key name weight)) imaged'.owned run'
    refine up.recordedAll fun {k e} differ found => ?_
    -- Only the VIP that is programmed again had its overrides changed.
    cases known : s.plane.services.get? key with
    | some e₀ =>
      have spec : s.plane.recordedSpec key = e₀.vipSpec := by
        rw [Dataplane.recordedSpec, known]
        rfl
      rw [spec, (imaged.keyed known).1] at differ
      exact recorded ((modifyEntry_get?_of_ne _ _ differ).symm.trans found)
    | none =>
      have same : s.plane.reweighed key name weight = s.plane := by
        unfold Dataplane.reweighed Dataplane.modifyEntry
        rw [known]
      rw [withPlane_plane, same] at found
      exact recorded found
  | mark kind id value =>
    rcases setMark_run kind id value env imaged.owned.backends with
      ⟨_, same⟩ | ⟨st, t, known, plane, ⟨run', _⟩ | ⟨⟨e, run'⟩, _, _⟩⟩
    · cases same.symm.trans run
      exact recorded
    · cases run'.symm.trans run
      have services : s'.plane.services = s.plane.services := by
        rw [plane, modifyBackend_rest]
      intro k e found
      rw [services] at found
      exact recorded found
    · cases run'.symm.trans run

theorem Imaged.receive {m : Maps} (imaged : Imaged p m) (ctx : Context)
    (pkt : Packet) : Imaged p (m.receive ctx pkt) := by
  have same : ∀ c, (∀ sid, c ≠ .drops sid) → Cell.Agree c m (m.receive ctx pkt) := by
    intro c notDrops
    cases c with
    | drops sid => exact absurd rfl (notDrops sid)
    | _ => exact Eq.refl _
  refine ⟨imaged.owned, imaged.keyed, imaged.compatible, imaged.exact, ?_, ?_, imaged.idle,
    ⟨imaged.backends.described, imaged.backends.only, imaged.backends.health⟩⟩
  · intro k e found
    refine (imaged.programmed found).congr rfl rfl fun c mine => same c ?_
    rintro sid rfl
    exact mine
  · intro w isKey holds
    refine imaged.keys isKey (holds.of_agree (same _ ?_).symm)
    intro sid drops
    rcases isKey.cell with ⟨_, this⟩ | ⟨_, this⟩ <;> rw [drops] at this <;> cases this

/-- The invariant of runs in which nothing fails. -/
structure Node.Sound (n : Node) : Prop where
  imaged : Imaged n.plane n.maps
  recorded : Recorded n.plane

/-- Nothing goes wrong in an event, and a VIP it adds can stand beside those programmed then. -/
def Clean (n : Node) : Event → Prop
  | .packet _ _ => True
  | .op op env => env.Reliable ∧ op.Succeeds env n.plane ∧
    ∀ q spec, op.Begins env n.plane q (.upsert spec) →
      ∀ k e, q.services.get? k = some e → e.vip.Compatible spec

theorem Node.step_upsert (owned : Owned leak n.plane)
    (succeeds : (Op.upsertVIP spec).Succeeds env n.plane) :
    ∃ f ip ws ws',
      Upserted leak env spec n.plane (n.step (.op (.upsertVIP spec) env)).plane f ip ws ws' ∧
      (n.step (.op (.upsertVIP spec) env)).maps = replay (upsertWrites n.plane f ip ws ws') n.maps := by
  unfold Op.Succeeds at succeeds
  cases run : (Op.upsertVIP spec).outcome env n.plane with
  | mk result s' =>
    rw [run] at succeeds
    cases succeeds
    obtain ⟨f, ip, ws, ws', up, logged⟩ := upsertVIP_ok (s := ⟨n.plane, [], 0⟩) owned run
    have after : n.step (.op (.upsertVIP spec) env) = ⟨s'.plane, replay s'.writes n.maps⟩ := by
      rw [Node.step, Node.after, run]
    rw [after]
    refine ⟨f, ip, ws, ws', up, ?_⟩
    rw [show s'.writes = [] ++ upsertWrites n.plane f ip ws ws' from logged]
    rfl

theorem Node.step_remove (owned : Owned leak n.plane) (key : String)
    (env : Env) :
    (n.plane.services.get? key = none ∧ n.step (.op (.removeVIP key) env) = n) ∨
    ∃ entry ws₁ ws₂, n.plane.services.get? key = some entry ∧
      Removed leak env key entry n.plane (n.step (.op (.removeVIP key) env)).plane ws₁ ws₂ ∧
      (n.step (.op (.removeVIP key) env)).maps = replay (ws₁ ++ ws₂) n.maps := by
  rcases removeVIP_run (s := ⟨n.plane, [], 0⟩) key env owned with
    ⟨absent, run⟩ | ⟨entry, s', ws₁, ws₂, found, run, logged, removed⟩
  · refine Or.inl ⟨absent, ?_⟩
    rw [Node.step, Node.after, Op.outcome, Op.run, run]
    rfl
  · have after : n.step (.op (.removeVIP key) env) = ⟨s'.plane, replay s'.writes n.maps⟩ := by
      rw [Node.step, Node.after, Op.outcome, Op.run, run]
    rw [after]
    refine Or.inr ⟨entry, ws₁, ws₂, found, removed, ?_⟩
    rw [show s'.writes = [] ++ (ws₁ ++ ws₂) from logged]
    rfl

theorem Owned.new (config : NodeConfig) : Owned (fun _ => 0) (.new config) := by
  refine ⟨⟨rfl, ?_, ?_, ?_, ?_, ?_⟩, ⟨rfl, fun _ => rfl⟩, ?_, ?_⟩
  · intro key entry name id found
    cases found
  · intro name id found
    cases found
  · intro id st found
    cases found
  · intro id st found
    cases found
  · intro name leaked
    exact absurd leaked (Nat.lt_irrefl 0)
  · unfold Tiled
    rw [List.range_eq_range']
    exact .of_eq (by simp [Dataplane.new, ExtentAllocator.slots, ExtentAllocator.new, Extent.slots,
      Dataplane.extents, FMap.values])
  · intro key entry found
    cases found

theorem Node.sound_start (config : NodeConfig) (maps : StartMaps) : (Node.start config maps).Sound := by
  refine ⟨⟨Owned.new config, ?_, ?_, ?_, ?_, ?_, fun _ _ => rfl, ⟨?_, ?_, fun _ => rfl⟩⟩, ?_⟩
  · intro k e found
    cases found
  · intro k k' e e' found
    cases found
  · intro k e name id found
    cases found
  · intro k e found
    cases found
  · intro w isKey holds
    cases isKey <;> cases holds
  · intro id st found
    cases found
  · intro key info found
    cases found
  · intro k e found
    cases found

theorem Node.Sound.step {e : Event} (sound : n.Sound) (clean : Clean n e) :
    (n.step e).Sound := by
  cases e with
  | packet ctx pkt => exact ⟨sound.imaged.receive ctx pkt, sound.recorded⟩
  | op op env =>
    obtain ⟨reliable, succeeds, beside⟩ := clean
    have after : Imaged (op.outcome env n.plane).2.plane
        (replay (op.outcome env n.plane).2.writes n.maps) ∧ Recorded (op.outcome env n.plane).2.plane :=
      Op.invariant (P := fun s => Imaged s.plane (replay s.writes n.maps) ∧ Recorded s.plane)
        sound.imaged.owned.backends
        (fun same holds => by rw [same.plane, same.writes]; exact holds)
        (fun {s part result s'} holds begins run ok => by
          rw [ok succeeds] at run
          refine ⟨holds.1.part reliable run ?_, holds.2.part holds.1 run⟩
          rintro spec rfl k e found
          exact beside _ spec begins k e found)
        ⟨sound.imaged, sound.recorded⟩
    exact ⟨after.1, after.2⟩

theorem Node.sound_run {config : NodeConfig} {maps : StartMaps} {events : List Event}
    (clean : Run.Along Node.step Clean (Node.start config maps) events) :
    ((Node.start config maps).run events).Sound :=
  Run.invariant Node.Sound.step (Node.sound_start config maps) clean

end Rivora

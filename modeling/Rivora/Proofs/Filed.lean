import Rivora.Proofs.Attempts
import Rivora.Proofs.Recorded

/-! Every programmed VIP stands under its own key, whatever has failed before. -/

namespace Rivora

variable {env : Env} {s s' : World} {r : Except GoError Unit}

/-- Each entry holds a VIP of its key, or none yet. -/
def Filed (p : Dataplane) : Prop :=
  ∀ k e, p.services.get? k = some e → parseIP e.vip.address = none ∨ vipKeyString e.vip = k

/-- Each entry holds a spec and a VIP that are as they should be under its key. -/
def HoldsVIPs (V : String → VIP → VIP → Prop) (p : Dataplane) : Prop :=
  ∀ k e, p.services.get? k = some e → V k e.vipSpec e.vip

/-- An entry may hold the VIP without an address, or an addressable one of its key with weights replaced. -/
structure Fileable (V : String → VIP → VIP → Prop) : Prop where
  unset : ∀ k, V k default default
  own : ∀ {v ip}, parseIP v.address = some ip → ∀ overrides, V (vipKeyString v) v (v.overrideWeights overrides)

section Upserts

variable {V : String → VIP → VIP → Prop} {leak : String → Nat} {spec : VIP} {p q : Dataplane} {e : ServiceEntry}
  {ws : List MapWrite}

/-- What is filed under a key. -/
theorem HoldsVIPs.at_key (fileable : Fileable V) (filed : HoldsVIPs V p) (key : String) :
    V key (p.recordedSpec key) (p.programmed key) := by
  unfold Dataplane.recordedSpec Dataplane.programmed
  cases found : p.services.get? key with
  | none => exact fileable.unset key
  | some e => exact filed key e found

theorem HoldsVIPs.of_entry (filed : HoldsVIPs V p) {key : String}
    (others : ∀ k, k ≠ key → q.services.get? k = p.services.get? k) (entry : q.services.get? key = some e)
    (own : V key e.vipSpec e.vip) : HoldsVIPs V q := by
  intro k e' found
  by_cases here : k = key
  · subst here
    cases entry.symm.trans found
    exact own
  · exact filed k e' ((others k here).symm.trans found)

/-- An entry holds the spec and the VIP that stood under its key, with the overrides the spec still names. -/
structure ServiceEntry.Holds (e : ServiceEntry) (spec : VIP) (p : Dataplane) : Prop where
  overrides : e.weightOverrides = pruneOverrides spec (p.overrides (vipKeyString spec))
  vipSpec : e.vipSpec = p.recordedSpec (vipKeyString spec)
  vip : e.vip = p.programmed (vipKeyString spec)

theorem Arranged.holds (arranged : Arranged leak spec p q e ws) : e.Holds spec p := by
  have known := @arranged.known
  have fresh := arranged.fresh
  cases before : p.services.get? (vipKeyString spec) with
  | none =>
    rw [(fresh before).1]
    constructor <;> simp [Dataplane.overrides, Dataplane.recordedSpec, Dataplane.programmed, before,
      ServiceEntry.prune, ServiceEntry.new]
  | some e₀ =>
    rw [known before]
    constructor <;> simp [Dataplane.overrides, Dataplane.recordedSpec, Dataplane.programmed, before,
      ServiceEntry.prune]

/-- An upsert is refused at once, leaves the entry with what it held, or records what it programmed. -/
theorem upsertVIP_entry (owned : Owned leak s.plane) (run : upsertVIP spec env s = (r, s')) :
    (EnterRefused spec s.plane ∧ r ≠ .ok () ∧ s' = s) ∨
    (r ≠ .ok () ∧ ∃ e, s'.plane.services.get? (vipKeyString spec) = some e ∧ e.Holds spec s.plane) ∨
    (r = .ok () ∧ ∃ e, s'.plane.services.get? (vipKeyString spec) = some e ∧ (parseIP spec.address).isSome ∧
      e.weightOverrides = pruneOverrides spec (s.plane.overrides (vipKeyString spec)) ∧
      e.vipSpec = spec ∧ e.vip = s.plane.effective spec) := by
  have ends := upsertVIP_run spec env owned
  rw [run] at ends
  cases ends with
  | refused reason => exact Or.inl ⟨reason, by simp, rfl⟩
  | unsettled arranged logged reason => exact Or.inr (Or.inl ⟨by simp, _, arranged.entry, arranged.holds⟩)
  | unbuilt settled logged rest tiled stop =>
    refine Or.inr (Or.inl ⟨by simp, _, ?_, settled.toArranged.holds⟩)
    rw [rest]
    exact settled.entry
  | unprogrammed settled logged built logged' plane stop =>
    have entry := built.entry settled
    have holds := settled.toArranged.holds
    rw [← plane] at entry
    refine Or.inr (Or.inl ⟨by simp, _, entry, ?_⟩)
    -- The table may have moved; what the entry holds otherwise is the same.
    rw [(built.rest).2.2]
    exact ⟨holds.overrides, holds.vipSpec, holds.vip⟩
  | done settled logged built logged' able logged'' plane =>
    obtain ⟨f, ip, _, _, up, _⟩ := upsertVIP_ok owned run
    have address : (parseIP spec.address).isSome := by
      have parsed := up.able.address
      rw [up.vip] at parsed
      exact Option.isSome_of_eq_some parsed
    exact Or.inr (Or.inr ⟨rfl, f, up.entry, address, up.overrides, up.vipSpec, up.vip⟩)

/-- An upsert keeps what is filed. -/
theorem upsertVIP_filed (fileable : Fileable V)
    (owned : Owned leak s.plane) (filed : HoldsVIPs V s.plane) (run : upsertVIP spec env s = (r, s')) :
    HoldsVIPs V s'.plane := by
  have others := (upsertVIP_attempted owned run).others
  rcases upsertVIP_entry owned run with
    ⟨_, _, rfl⟩ | ⟨_, e, entry, holds⟩ | ⟨_, e, entry, parsed, _, own, programmed⟩
  · exact filed
  · refine filed.of_entry others entry ?_
    rw [holds.vipSpec, holds.vip]
    exact filed.at_key fileable _
  · obtain ⟨ip, parsed⟩ := Option.isSome_iff_exists.mp parsed
    refine filed.of_entry others entry ?_
    rw [own, programmed]
    exact fileable.own parsed _

end Upserts

theorem HoldsVIPs.reweighed {V : String → VIP → VIP → Prop} {p : Dataplane} (filed : HoldsVIPs V p)
    (key name : String) (weight : Nat) : HoldsVIPs V (p.reweighed key name weight) := by
  unfold Dataplane.reweighed
  cases before : p.services.get? key with
  | none =>
    rw [Dataplane.modifyEntry, before]
    exact filed
  | some e₀ =>
    exact filed.of_entry (fun k other => modifyEntry_get?_of_ne p _ other) (modifyEntry_get?_self before _)
      (filed key e₀ before)

/-- So does every part of an operation. -/
theorem Part.holdsVIPs {V : String → VIP → VIP → Prop} (fileable : Fileable V) {part : Part}
    (owned : ∃ leak, Owned leak s.plane)
    (filed : HoldsVIPs V s.plane) (run : part.run env s = (r, s')) :
    (∃ leak, Owned leak s'.plane) ∧ HoldsVIPs V s'.plane := by
  obtain ⟨leak, owned⟩ := owned
  cases part with
  | upsert spec => exact ⟨(upsertVIP_attempted owned run).owned, upsertVIP_filed fileable owned filed run⟩
  | remove key =>
    have ran : removeVIP key env s = (r, s') := run
    rcases removeVIP_run key env owned with ⟨_, nothing⟩ | ⟨entry, _, ws₁, ws₂, _, done, _, removed⟩
    · cases ran.symm.trans nothing
      exact ⟨⟨leak, owned⟩, filed⟩
    · cases ran.symm.trans done
      refine ⟨⟨leak, removed.owned⟩, fun k e found => ?_⟩
      by_cases here : k = key
      · subst here
        cases removed.gone.symm.trans found
      · exact filed k e ((removed.others k here).symm.trans found)
  | reweigh key name weight =>
    have ran : reweighVIP key name weight env s = (r, s') := run
    rw [reweighVIP_eq] at ran
    have kept : Owned leak (s.plane.reweighed key name weight) :=
      owned.modifyEntry key (fun _ => rfl) (fun _ => rfl) fun _ => rfl
    exact ⟨(upsertVIP_attempted kept ran).owned,
      upsertVIP_filed fileable kept (filed.reweighed key name weight) ran⟩
  | mark kind id value =>
    have ran : setMark kind id value env s = (r, s') := run
    have marked : s'.plane = s.plane ∨
        s'.plane = s.plane.modifyBackend id fun st => st.mark value kind := by
      rcases setMark_run kind id value env owned.backends with
        ⟨_, same⟩ | ⟨st, t, _, plane, ⟨done, _⟩ | ⟨⟨_, failed⟩, _⟩⟩
      · cases ran.symm.trans same
        exact Or.inl rfl
      · cases ran.symm.trans done
        exact Or.inr plane
      · cases ran.symm.trans failed
        exact Or.inr plane
    rcases marked with same | plane
    · rw [same]
      exact ⟨⟨leak, owned⟩, filed⟩
    · rw [plane]
      refine ⟨⟨leak, owned.mark id value kind⟩, fun k e found => filed k e ?_⟩
      rwa [modifyBackend_rest] at found

/-- So does every run. -/
theorem Node.holdsVIPs_from {V : String → VIP → VIP → Prop} (fileable : Fileable V) {n : Node}
    (start : (∃ leak, Owned leak n.plane) ∧ HoldsVIPs V n.plane) (events : List Event) :
    (∃ leak, Owned leak (n.run events).plane) ∧ HoldsVIPs V (n.run events).plane := by
  have along : Run.Along Node.step (fun _ _ => True) n events := Run.along_of_forall (fun _ _ => trivial) _
  refine Run.invariant (P := fun n : Node => (∃ leak, Owned leak n.plane) ∧ HoldsVIPs V n.plane) ?_ start along
  intro n event ⟨⟨leak, owned⟩, filed⟩ _
  cases event with
  | op op env =>
    exact Op.invariant (P := fun s : World => (∃ leak, Owned leak s.plane) ∧ HoldsVIPs V s.plane)
      owned.backends (fun same holds => same.plane ▸ holds)
      (fun holds _ run _ => Part.holdsVIPs fileable holds.1 holds.2 run) ⟨⟨leak, owned⟩, filed⟩
  | packet ctx pkt => exact ⟨⟨leak, owned⟩, filed⟩

theorem Node.holdsVIPs_run {V : String → VIP → VIP → Prop} (fileable : Fileable V) (config : NodeConfig)
    (maps : StartMaps) (events : List Event) :
    (∃ leak, Owned leak ((Node.start config maps).run events).plane) ∧
      HoldsVIPs V ((Node.start config maps).run events).plane :=
  Node.holdsVIPs_from fileable ⟨⟨_, .new config⟩, fun k e found => by cases found⟩ events

theorem fileable_key : Fileable fun k _ v => parseIP v.address = none ∨ vipKeyString v = k where
  unset := fun _ => Or.inl (by decide)
  own := fun _ _ => Or.inr (vipKeyString_congr rfl rfl rfl rfl)

theorem Part.filed {part : Part}
    (owned : ∃ leak, Owned leak s.plane) (filed : Filed s.plane) (run : part.run env s = (r, s')) :
    (∃ leak, Owned leak s'.plane) ∧ Filed s'.plane :=
  Part.holdsVIPs fileable_key owned filed run

theorem Node.filed_run (config : NodeConfig) (maps : StartMaps) (events : List Event) :
    (∃ leak, Owned leak ((Node.start config maps).run events).plane) ∧
      Filed ((Node.start config maps).run events).plane :=
  Node.holdsVIPs_run fileable_key config maps events

end Rivora

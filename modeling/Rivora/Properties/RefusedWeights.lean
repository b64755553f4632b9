import Rivora.Proofs.Filed
import Rivora.Proofs.Rehearsal

/-! When a weight change that fails leaves every weight as it was. -/

namespace Rivora

/--
The override of a backend `n` in a VIP `k` once a weight change has reached a backend `name` of a VIP `key`.

The new override is stored first. The VIP is then programmed from its recorded spec, which drops the overrides
of backends that this spec does not name.
-/
def Dataplane.overrideLeft (p : Dataplane) (key name : String) (weight : Nat) (k n : String) : Option Nat :=
  if k = vipKeyString (p.recordedSpec key) ∧ (p.checkTunnelReady (p.recordedSpec key)).toOption = some () ∧
      ((p.recordedSpec key).backends.any fun b => backendName b = n) = false then none
  else if k = key ∧ n = name then (if weight = 0 then none else some weight)
  else (p.overrides k).get? n

/-- Every VIP has the overrides, the recorded spec and the weights it had. -/
structure Dataplane.KeepsWeights (p q : Dataplane) : Prop where
  overrides : ∀ k n, (q.overrides k).get? n = (p.overrides k).get? n
  spec : ∀ k, q.recordedSpec k = p.recordedSpec k
  /-- A VIP that an earlier failure left behind may have caught up with its own spec and overrides. -/
  programmed : ∀ k, q.programmed k = p.programmed k ∨ q.programmed k = p.effective (p.recordedSpec k)

section Steps

variable {leak : String → Nat} {spec : VIP} {p q : Dataplane} {env : Env} {s s' : World}
  {r : Except GoError Unit} {key name : String} {weight : Nat}

/-- Weights come out the same where the overrides read the same. -/
theorem effective_congr (same : ∀ k n, (q.overrides k).get? n = (p.overrides k).get? n) (spec : VIP) :
    q.effective spec = p.effective spec := by
  simp only [Dataplane.effective, VIP.overrideWeights, same]

/-- Storing an override changes nothing else about a VIP. -/
theorem overrides_reweighed (known : p.services.contains key = true) (k n : String) :
    ((p.reweighed key name weight).overrides k).get? n =
      if k = key ∧ n = name then (if weight = 0 then none else some weight) else (p.overrides k).get? n := by
  obtain ⟨e, found⟩ := Option.isSome_iff_exists.mp known
  unfold Dataplane.overrides Dataplane.reweighed
  by_cases here : k = key
  · subst here
    rw [modifyEntry_get?_self found, found]
    by_cases zero : weight = 0 <;> simp [ServiceEntry.overrideWeight, zero, FMap.get?_erase, FMap.get?_insert]
  · rw [modifyEntry_get?_of_ne p _ here, if_neg fun both => here both.1]

/-- What does not look at overrides does not see a new one. -/
theorem reweighed_view {α : Type} (view : ServiceEntry → α)
    (blind : ∀ e, view (e.overrideWeight name weight) = view e) (k : String) :
    ((p.reweighed key name weight).services.get? k).map view = (p.services.get? k).map view := by
  unfold Dataplane.reweighed
  by_cases here : k = key
  · subst here
    cases found : p.services.get? k with
    | none => rw [Dataplane.modifyEntry, found, found]
    | some e => rw [modifyEntry_get?_self found, Option.map_some, Option.map_some, blind]
  · rw [modifyEntry_get?_of_ne p _ here]

theorem recordedSpec_eq (p : Dataplane) (k : String) :
    p.recordedSpec k = ((p.services.get? k).map ServiceEntry.vipSpec).getD default := by
  unfold Dataplane.recordedSpec
  cases p.services.get? k <;> rfl

/-- An upsert drops the overrides its spec does not name, unless it is refused at once. -/
theorem upsertVIP_overrides (owned : Owned leak s.plane) (run : upsertVIP spec env s = (r, s')) (k n : String) :
    (s'.plane.overrides k).get? n =
      if k = vipKeyString spec ∧ (s.plane.checkTunnelReady spec).toOption = some () ∧
        (spec.backends.any fun b => backendName b = n) = false then none
      else (s.plane.overrides k).get? n := by
  by_cases here : k = vipKeyString spec
  · subst here
    cases ready : s.plane.checkTunnelReady spec with
    | error err =>
      simp only [upsertVIP, enterService, Effect.bind_apply, getPlane_apply, ready, liftExcept, Effect.mapError,
        Effect.fail_apply] at run
      cases run
      simp [Except.toOption]
    | ok _ =>
      have dropped : ∀ e, s'.plane.services.get? (vipKeyString spec) = some e →
          e.weightOverrides = pruneOverrides spec (s.plane.overrides (vipKeyString spec)) →
          (s'.plane.overrides (vipKeyString spec)).get? n =
            if (spec.backends.any fun b => backendName b = n) then
              (s.plane.overrides (vipKeyString spec)).get? n else none := by
        intro e entry pruned
        rw [Dataplane.overrides, entry, Option.map_some, Option.getD_some, pruned, pruneOverrides,
          FMap.get?_filterKeys]
      simp only [Except.toOption, true_and]
      rcases upsertVIP_entry owned run with ⟨refused, _, rfl⟩ | ⟨_, e, entry, holds⟩ | ⟨_, e, entry, _, pruned, _⟩
      · -- A VIP that gets no entry has no override either.
        rcases refused with ⟨err, unready⟩ | ⟨absent, _⟩
        · cases ready.symm.trans unready
        · simp [Dataplane.overrides, absent]
      · rw [dropped e entry holds.overrides]
        cases spec.backends.any fun b => backendName b = n <;> simp
      · rw [dropped e entry pruned]
        cases spec.backends.any fun b => backendName b = n <;> simp
  · rw [Dataplane.overrides, (upsertVIP_attempted owned run).others k here, if_neg fun both => here both.1]
    rfl

/-- What a weight change of one VIP leaves, whether or not it fails. -/
structure Reweighed (key name : String) (weight : Nat) (p q : Dataplane) : Prop where
  owned : ∃ leak, Owned leak q
  tunnel : q.checkTunnelReady = p.checkTunnelReady
  stays : ∀ k, p.services.contains k = true → q.services.contains k = true
  overrides : ∀ k n, (q.overrides k).get? n = p.overrideLeft key name weight k n
  spec : ∀ k, q.recordedSpec k = p.recordedSpec k
  programmed : ∀ k, q.programmed k = p.programmed k ∨ q.programmed k = q.effective (p.recordedSpec k)

/-- What a weight change of one VIP leaves, whether it fails or not. -/
theorem reweighVIP_weights (owned : Owned leak s.plane)
    (filed : parseIP (s.plane.recordedSpec key).address = none ∨ vipKeyString (s.plane.recordedSpec key) = key)
    (known : s.plane.services.contains key = true) (run : reweighVIP key name weight env s = (r, s')) :
    Reweighed key name weight s.plane s'.plane := by
  rw [reweighVIP_eq] at run
  have owned' : Owned leak (s.plane.reweighed key name weight) :=
    owned.modifyEntry key (fun _ => rfl) (fun _ => rfl) fun _ => rfl
  have specs : ∀ k, (s.plane.reweighed key name weight).recordedSpec k = s.plane.recordedSpec k := fun k => by
    rw [recordedSpec_eq, recordedSpec_eq, reweighed_view _ fun _ => rfl]
  have programmed : ∀ k, (s.plane.reweighed key name weight).programmed k = s.plane.programmed k := fun k => by
    rw [Dataplane.programmed, Dataplane.programmed, reweighed_view _ fun _ => rfl]
  have tunnel : (s.plane.reweighed key name weight).checkTunnelReady = s.plane.checkTunnelReady := by
    unfold Dataplane.reweighed Dataplane.modifyEntry
    split <;> rfl
  have left : ∀ k n, (s'.plane.overrides k).get? n = s.plane.overrideLeft key name weight k n := fun k n => by
    rw [upsertVIP_overrides owned' run, withPlane_plane, overrides_reweighed known, tunnel]
    rfl
  have contains : ∀ k, (s.plane.reweighed key name weight).services.contains k = s.plane.services.contains k :=
    fun k => by
      have same := congrArg Option.isSome
        (@reweighed_view s.plane key name weight Unit (fun _ => ()) (fun _ => rfl) k)
      rwa [Option.isSome_map, Option.isSome_map] at same
  have attempted := upsertVIP_attempted owned' run
  have aside : ∀ k, k ≠ vipKeyString (s.plane.recordedSpec key) →
      s'.plane.recordedSpec k = s.plane.recordedSpec k ∧ s'.plane.programmed k = s.plane.programmed k := by
    intro k other
    rw [← specs, ← programmed, Dataplane.recordedSpec, Dataplane.programmed, attempted.others k other]
    exact ⟨rfl, rfl⟩
  have stays : ∀ k, s.plane.services.contains k = true → s'.plane.services.contains k = true := by
    intro k before
    rw [← contains] at before
    by_cases here : k = vipKeyString (s.plane.recordedSpec key)
    · rw [here] at before ⊢
      exact attempted.stays before
    · rwa [FMap.contains, attempted.others k here]
  suffices held : ∀ k, s'.plane.recordedSpec k = s.plane.recordedSpec k ∧
      (s'.plane.programmed k = s.plane.programmed k ∨
        s'.plane.programmed k = s'.plane.effective (s.plane.recordedSpec k)) from
    ⟨attempted.owned, attempted.tunnel.trans tunnel, stays, left, fun k => (held k).1, fun k => (held k).2⟩
  intro k
  by_cases here : k = vipKeyString (s.plane.recordedSpec key)
  · rcases upsertVIP_entry owned' run with
      ⟨_, _, same⟩ | ⟨_, e, entry, holds⟩ | ⟨_, e, entry, parsed, pruned, own, vip⟩
    · rw [same]
      exact ⟨specs k, Or.inl (programmed k)⟩
    · rw [← specs, ← programmed, here, Dataplane.recordedSpec, Dataplane.programmed, entry]
      exact ⟨holds.vipSpec, Or.inl holds.vip⟩
    · -- Only a VIP with an address can be programmed, and its spec stands under its own key.
      rcases filed with unset | filed
      · rw [unset] at parsed
        cases parsed
      · rw [filed] at here
        rw [here]
        rw [filed] at entry
        rw [Dataplane.recordedSpec, Dataplane.programmed, entry]
        refine ⟨own, Or.inr (vip.trans ?_)⟩
        have overrides : s'.plane.overrides key = e.weightOverrides := by rw [Dataplane.overrides, entry]; rfl
        rw [Dataplane.effective, Dataplane.effective, filed, overrides, pruned, overrideWeights_prune, filed]
  · exact ⟨(aside k here).1, Or.inl (aside k here).2⟩

end Steps

section Adverse

/-- A list with one of its items moved to the front. -/
def frontOf (x : String) (l : List String) : List String := if x ∈ l then x :: l.erase x else l

theorem frontOf_perm (x : String) (l : List String) : (frontOf x l).Perm l := by
  unfold frontOf
  split
  · rename_i member
    exact (List.perm_cons_erase member).symm
  · exact List.Perm.refl l

/-- Every write fails, VIPs are walked from one of them on, and their backends from one name on. -/
def adverse (key name : String) : Env where
  fails _ _ := some "failed"
  order time keys := frontOf (if time = 0 then key else name) keys
  order_perm _ keys := frontOf_perm _ keys

variable {leak : String → Nat} {key name vipKey : String} {backendID weight : Nat} {s s' : World} {p : Dataplane}

/-- No VIP can be programmed while every write fails. -/
theorem upsertVIP_adverse (spec : VIP) : upsertVIP spec (adverse key name) s ≠ (.ok (), s') := by
  intro run
  obtain ⟨_, _, _, run⟩ := Effect.bind_eq_ok.mp run
  obtain ⟨_, _, _, run⟩ := Effect.bind_eq_ok.mp run
  obtain ⟨_, _, _, run⟩ := Effect.bind_eq_ok.mp run
  obtain ⟨_, _, _, run⟩ := Effect.bind_eq_ok.mp run
  obtain ⟨_, _, programmed, _⟩ := Effect.bind_eq_ok.mp run
  obtain ⟨_, _, _, config⟩ := Effect.bind_eq_ok.mp programmed
  obtain ⟨_, _, written, _⟩ := Effect.bind_eq_ok.mp config
  cases Effect.mapError_eq_ok.mp written

/-- Any backend a weight change reaches may be the first, and the change may fail there. -/
theorem setBackendWeight_adverse (owned : Owned leak p) (small : ¬ weight > maxBackendWeight)
    (present : ¬ (vipKey ≠ "" ∧ p.services.contains vipKey = false))
    (reaches : p.Reaches backendID vipKey key name) :
    ∃ e s s', s.plane = p ∧ reweighVIP key name weight (adverse key name) s = (.error e, s') ∧
      (Op.setBackendWeight backendID vipKey weight).outcome (adverse key name) p = (.error e, s') := by
  obtain ⟨entry, stored, listed⟩ := reaches.lists
  -- The VIP is walked first.
  obtain ⟨rest, walked⟩ : ∃ rest, ((frontOf key p.services.keys).filter fun k => vipKey = "" || k = vipKey).filter
      (fun k => !(p.unclaimed.get? k).getD false) = key :: rest := by
    rw [frontOf, if_pos (FMap.mem_keys.mpr ⟨entry, stored⟩),
      List.filter_cons_of_pos (by simpa using reaches.asked),
      List.filter_cons_of_pos (by simpa using reaches.claimed)]
    exact ⟨_, rfl⟩
  have distinct : (key :: rest).Nodup :=
    walked ▸ (((frontOf_perm key _).nodup_iff.mpr p.services.keys_nodup).filter _).filter _
  -- And so is the backend among its backends.
  obtain ⟨targets, t, run, same⟩ : ∃ targets t, weightTargets backendID (key :: rest) (adverse key name)
      (World.tick ⟨p, [], 0⟩) = (.ok ((key, name) :: targets), t) ∧ t.plane = p := by
    obtain ⟨later, t, run, alike, _⟩ := @weightTargets_run (World.tick (World.tick ⟨p, [], 0⟩)) leak backendID
      (adverse key name) rest owned.backends (List.nodup_cons.mp distinct).2
    obtain ⟨others, first⟩ : ∃ others, ((frontOf name entry.backendIDs.keys).filter fun n =>
        entry.backendIDs.get? n = some backendID).map (key, ·) = (key, name) :: others := by
      rw [frontOf, if_pos (FMap.mem_keys.mpr ⟨_, listed⟩), List.filter_cons_of_pos (by simpa using listed)]
      exact ⟨_, rfl⟩
    refine ⟨others ++ later, t, ?_, alike.plane⟩
    rw [← List.cons_append, ← first]
    simp only [weightTargets, Effect.bind_apply, getEntry, Effect.read_apply, iterate, run]
    rw [show (World.tick ⟨p, [], 0⟩).plane = p from rfl, stored]
    rfl
  cases failed : reweighVIP key name weight (adverse key name) t with
  | mk result s' =>
    cases result with
    | ok _ =>
      rw [reweighVIP_eq] at failed
      exact absurd failed (upsertVIP_adverse _)
    | error e =>
      refine ⟨e, t, s', same, failed, ?_⟩
      simp only [Op.outcome, Op.run, setBackendWeight, if_neg small, Effect.bind_apply, getPlane,
        Effect.read_apply, if_neg present, iterate]
      rw [show (adverse key name).order 0 p.services.keys = frontOf key p.services.keys from rfl, walked, run]
      simp only [List.cons_ne_nil, if_false, Effect.bind_apply, Effect.forEach, failed]

end Adverse

/-- A recorded spec stands under its own key, unless nothing has been recorded yet. -/
def SpecFiled (key : String) (spec _ : VIP) : Prop := parseIP spec.address = none ∨ vipKeyString spec = key

/-- A recorded spec is filed under its own key. -/
theorem fileable_spec : Fileable SpecFiled where
  unset := fun _ => Or.inl (by decide)
  own := fun _ _ => Or.inr rfl

section Calls

variable {leak : String → Nat} {p : Dataplane} {backendID weight : Nat} {vipKey : String}

/-- What holds along the VIPs of a call that changes no override. -/
structure Unmoved (p q : Dataplane) : Prop extends p.KeepsWeights q where
  owned : ∃ leak, Owned leak q
  tunnel : q.checkTunnelReady = p.checkTunnelReady
  stays : ∀ k, p.services.contains k = true → q.services.contains k = true

/-- A call keeps every weight if no VIP it reaches gets another override. -/
theorem weights_kept (owned : Owned leak p) (filed : HoldsVIPs SpecFiled p)
    (harmless : ∀ key name, p.Reaches backendID vipKey key name →
      ∀ k n, p.overrideLeft key name weight k n = (p.overrides k).get? n) (env : Env) :
    Unmoved p ((Op.setBackendWeight backendID vipKey weight).outcome env p).2.plane := by
  refine Op.invariant (P := fun s : World => Unmoved p s.plane) owned.backends
    (fun same holds => same.plane ▸ holds) ?_
    ⟨⟨fun _ _ => rfl, fun _ => rfl, fun _ => Or.inl rfl⟩, ⟨leak, owned⟩, rfl, fun _ known => known⟩
  rintro s part result s' before ⟨ran, rest, _, ⟨targets, parts, _, reached⟩, _⟩ run _
  obtain ⟨⟨key, name⟩, target, rfl⟩ : ∃ t ∈ targets, Part.reweigh t.1 t.2 weight = part :=
    List.mem_map.mp (parts ▸ List.mem_append_right _ List.mem_cons_self)
  have reaches := reached _ target
  obtain ⟨entry, stored, _⟩ := reaches.lists
  obtain ⟨leak', owned'⟩ := before.owned
  have filed' := filed.at_key fileable_spec key
  rw [← before.spec key] at filed'
  have after := reweighVIP_weights owned' filed' (before.stays key (Option.isSome_of_eq_some stored)) run
  -- The VIP was programmed from what it would have been at the start of the call.
  have overrides : ∀ k n, (s'.plane.overrides k).get? n = (p.overrides k).get? n := fun k n => by
    rw [after.overrides, ← harmless key name reaches, Dataplane.overrideLeft, Dataplane.overrideLeft, before.spec,
      before.tunnel, before.overrides]
  refine ⟨⟨overrides, fun k => (after.spec k).trans (before.spec k), fun k => ?_⟩, after.owned,
    after.tunnel.trans before.tunnel, fun k known => after.stays k (before.stays k known)⟩
  rcases after.programmed k with same | caught
  · rw [same]
    exact before.programmed k
  · rw [caught, before.spec, effective_congr overrides]
    exact Or.inr rfl

/-- A weight above the largest and a VIP that does not exist are refused at once. -/
theorem setBackendWeight_refused (env : Env)
    (refused : weight > maxBackendWeight ∨ (vipKey ≠ "" ∧ p.services.contains vipKey = false)) :
    ((Op.setBackendWeight backendID vipKey weight).outcome env p).2.plane = p := by
  simp only [Op.outcome, Op.run, setBackendWeight, Effect.bind_apply]
  by_cases large : weight > maxBackendWeight
  · rw [if_pos large]
    rfl
  · rw [if_neg large]
    simp only [Effect.bind_apply, getPlane_apply]
    rw [if_pos (refused.resolve_left large)]
    rfl

end Calls

section Inputs

/-- A VIP with a heavy and a light backend, whose weights just fit the smallest table. -/
def heavyVIP : VIP :=
  { plainVIP "10.0.0.1" [] with
    backends := [⟨"10.0.1.1", 8080, "", 1000⟩, ⟨"10.0.1.2", 8080, "", 1⟩] }

/-- Two VIPs that share the light backend. -/
def lightOps : List Op := [.upsertVIP heavyVIP, .upsertVIP (plainVIP "10.0.0.2" ["10.0.1.2"])]

/-- A node that serves both VIPs, with no weight overridden. -/
def lightNode : Node := (Node.start plainNode plainMaps).run (calmly lightOps)

/-- A node with that VIP. -/
def heavyNode : Node := (Node.start plainNode plainMaps).run (calmly [.upsertVIP heavyVIP])

/-- What a later call finds of one override, and whether the VIP can still be programmed. -/
def weightOutlook (p : Dataplane) : Option Nat × Bool :=
  ((p.services.get? "10.0.0.1:80:tcp").bind fun e => e.weightOverrides.get? "10.0.1.2:8080",
    match (Op.upsertVIP heavyVIP).outcome calm p with
    | (.ok _, _) => true
    | (.error _, _) => false)

/-- The outlook a failed weight change leaves; nothing if it does not fail. -/
def weightAftermath (p : Dataplane) : Option (Option Nat × Bool) :=
  match (Op.setBackendWeight 0 "10.0.0.1:80:tcp" 100).outcome calm p with
  | (.ok _, _) => none
  | (.error _, s') => some (weightOutlook s'.plane)

end Inputs

end Rivora

import Rivora.Lib.Run
import Rivora.Maglev.Termination
import Rivora.Proofs.Kept
import Rivora.Proofs.Rehearsal

/-! Every table build comes to an end, as long as no recovered range has a composite size. -/

namespace Rivora

variable {m : Maps} {s : World} {size : Nat} {members : List Maglev.Member} {spec : VIP}

/-- A size a table can be built in, or one that is too small for any number of backends. -/
def UsableSize (size : Nat) : Prop := size < 1031 ∨ size.Prime

/-- Every service has a range of a usable size. -/
def UsableRanges (services : FMap String ServiceEntry) : Prop :=
  ∀ key e, services.get? key = some e → UsableSize e.extent.size

theorem UsableRanges.insert {services : FMap String ServiceEntry} (usable : UsableRanges services)
    (key : String) {e : ServiceEntry} (size : UsableSize e.extent.size) :
    UsableRanges (services.insert key e) := by
  intro k e' found
  rw [FMap.get?_insert] at found
  split at found
  · cases found
    exact size
  · exact usable k e' found

theorem usableRanges_closed : Closed fun services _ => UsableRanges services where
  entry services _ key e f found same usable := usable.insert key (same ▸ usable key e found)
  move services _ key e target _ sized usable := usable.insert key (Or.inr (prime_of_class sized))
  create services _ key id usable := usable.insert key (Or.inl (Nat.zero_lt_succ _))
  claim _ _ _ usable := usable
  gone services _ key usable := by
    intro k e found
    rw [FMap.get?_erase] at found
    split at found
    · cases found
    · exact usable k e found

theorem le_maglevClassFor (backendCount : Nat) : 1031 ≤ maglevClassFor backendCount := by
  have listed := maglevClassFor_mem backendCount
  simp only [maglevSizeClasses, List.mem_cons, List.not_mem_nil, or_false] at listed
  omega

/-- The size and the backends for which a rebuild of a VIP's table asks for one, if it gets so far. -/
def buildCall (s : World) (key : String) (desired : FMap String Backend) :
    Option (Nat × List Maglev.Member) :=
  let entry := (s.plane.services.get? key).getD (.new 0)
  let members := tableMembers entry.backendIDs desired
  let size := maglevClassFor members.length
  if entry.extent.size = 0 ∨ size > entry.extent.size then
    match s.plane.maglevAlloc.alloc size with
    | (.error _, _) => none
    | (.ok target, _) => some (target.size, members)
  else some (entry.extent.size, members)

/-- The table that programming a VIP from a world asks for, if it gets so far. -/
def upsertCall (spec : VIP) (env : Env) (s : World) : Option (Nat × List Maglev.Member) :=
  match enterService spec env s with
  | (.error _, _) => none
  | (.ok held, s₁) =>
    let vip := spec.overrideWeights held.weightOverrides
    match settleBackends (vipKeyString spec) vip env s₁ with
    | (.error _, _) => none
    | (.ok changed, s₂) =>
      if changed || weightsChanged held.vip (desiredBackends vip)
          || !s.plane.services.contains (vipKeyString spec) then
        buildCall s₂ (vipKeyString spec) (desiredBackends vip)
      else none

/-- The VIP that a part of an operation programs, and the world it programs it from. -/
def Part.programs : Part → World → Option (VIP × World)
  | .upsert spec, s => some (spec, s)
  | .reweigh key name weight, s =>
    some (s.plane.recordedSpec key, s.withPlane (s.plane.reweighed key name weight))
  | .remove _, _ => none
  | .mark _ _ _, _ => none

/-- An operation comes to build a table, after some of its parts. -/
def Op.BuildsTable (op : Op) (env : Env) (p : Dataplane) (size : Nat) (members : List Maglev.Member) : Prop :=
  ∃ ran rest part s spec s', op.Consists p (ran.map Prod.fst ++ part :: rest) ∧
    Ran env ran ⟨p, [], 0⟩ s ∧ part.programs s = some (spec, s') ∧ upsertCall spec env s' = some (size, members)

/-- Something that happens to a control plane that has been recovered. -/
inductive LifeEvent where
  | op (op : Op) (env : Env)
  /-- What nobody has claimed is removed. -/
  | prune (env : Env)

/-- The control plane after an event. -/
def Dataplane.live (p : Dataplane) : LifeEvent → Dataplane
  | .op op env => (op.outcome env p).2.plane
  | .prune env => p.pruned env

/-- Every service some key of the maps names has a range of a usable size. -/
def Maps.UsableSizes (m : Maps) : Prop :=
  (∀ entry ∈ m.vip.entries, UsableSize (m.serviceConfig entry.2).maglevSize) ∧
    ∀ entry ∈ m.vipRange.entries, UsableSize (m.serviceConfig entry.2).maglevSize

theorem mem_raws {scan : Scan m} {r : RawVIP} (member : r ∈ scan.raws) :
    (∃ entry ∈ m.vip.entries, entry.2 = r.sid) ∨ ∃ entry ∈ m.vipRange.entries, entry.2 = r.sid := by
  unfold Scan.raws at member
  rw [List.mem_insertionSort, List.mem_append] at member
  rcases member with exact | range
  · left
    obtain ⟨entry, listed, read⟩ := List.mem_filterMap.mp exact
    have there : entry ∈ scan.vips := by
      rcases List.mem_append.mp listed with left | right
      · exact List.mem_of_mem_filter left
      · exact List.mem_of_mem_filter right
    obtain ⟨proto, _, rfl⟩ := Option.map_eq_some_iff.mp read
    exact ⟨entry, scan.vips_perm.mem_iff.mp there, rfl⟩
  · right
    obtain ⟨group, listed, rfl⟩ := List.mem_map.mp range
    obtain ⟨entry, there, rfl⟩ := List.mem_map.mp (List.mem_eraseDups.mp listed)
    have there : entry ∈ scan.ranges := by
      rcases List.mem_append.mp there with left | right
      · exact List.mem_of_mem_filter left
      · exact List.mem_of_mem_filter right
    refine ⟨entry, scan.ranges_perm.mem_iff.mp there, ?_⟩
    unfold rawOfGroup
    split
    · split
      · rfl
      · rfl
    · rfl

theorem readService_extent {r : RawVIP} {service : RawService}
    (read : readService m r = .ok service) : service.extent.size = (m.serviceConfig r.sid).maglevSize := by
  unfold readService at read
  split at read
  · cases read
  dsimp only at read
  split at read
  · cases read
  split at read
  · cases read
  cases slots : readSlots m ⟨(m.serviceConfig r.sid).maglevOffset, (m.serviceConfig r.sid).maglevSize⟩ with
  | error e => simp [slots, bind, Except.bind] at read
  | ok slots' =>
    cases backends : (distinctIDs slots').mapM (readBackend m) with
    | error e => simp [slots, backends, bind, Except.bind] at read
    | ok backends' =>
      simp only [slots, backends, bind, Except.bind, pure, Except.pure, Except.ok.injEq] at read
      rw [← read]

theorem recovered_usable (config : NodeConfig) (scan : Scan m) (env : Env) (waiting : Bool)
    (usable : m.UsableSizes) : UsableRanges (Dataplane.recovered config scan env waiting).services := by
  have adopted : UsableRanges (adopt m scan env ⟨.new config, [], 0⟩).2.plane.services := by
    refine (Kept.adopt (P := fun services _ => UsableRanges services) ?_).after
      (by simp [UsableRanges, Dataplane.new])
    intro r member service services _ read holds
    refine holds.insert r.key ?_
    -- The range of the entry is the one that was read, and its service is named by some key.
    have size : (service.entry r).extent.size = (m.serviceConfig r.sid).maglevSize := readService_extent read
    rw [size]
    rcases mem_raws member with ⟨entry, listed, same⟩ | ⟨entry, listed, same⟩
    · exact same ▸ usable.1 entry listed
    · exact same ▸ usable.2 entry listed
  unfold Dataplane.recovered
  split
  · exact adopted
  · exact adopted

theorem live_usable {p : Dataplane} (usable : UsableRanges p.services) (event : LifeEvent) :
    UsableRanges (p.live event).services := by
  cases event with
  | op op env => exact (usableRanges_closed.op op).after usable
  | prune env => exact usableRanges_closed.pruneUnclaimed.after usable

theorem buildCall_prime {key : String} {desired : FMap String Backend}
    (usable : UsableRanges s.plane.services)
    (call : buildCall s key desired = some (size, members)) : size.Prime := by
  unfold buildCall at call
  dsimp only at call
  split at call
  · split at call
    · cases call
    · rename_i allocated
      cases call
      rw [(ExtentAllocator.alloc_slots allocated).1]
      exact prime_of_class (maglevClassFor_mem _)
  · -- The range the VIP has is no smaller than a class, so its size is one of the prime ones.
    rename_i fits
    cases call
    cases found : s.plane.services.get? key with
    | none => simp [found, ServiceEntry.new] at fits
    | some entry =>
      simp only [found, Option.getD_some, not_or, Nat.not_lt] at fits ⊢
      have := le_maglevClassFor (tableMembers entry.backendIDs desired).length
      rcases usable key entry found with small | prime
      · omega
      · exact prime

theorem upsertCall_prime {env : Env}
    (usable : UsableRanges s.plane.services) (call : upsertCall spec env s = some (size, members)) :
    size.Prime := by
  unfold upsertCall at call
  have entered := (@Closed.enterService _ env usableRanges_closed spec).after usable
  split at call
  · cases call
  rename_i held s₁ run₁
  rw [run₁] at entered
  have settled := (@Closed.settleBackends _ env usableRanges_closed (vipKeyString spec)
    (spec.overrideWeights held.weightOverrides)).after entered
  dsimp only at call
  split at call
  · cases call
  rename_i changed s₂ run₂
  rw [run₂] at settled
  split at call
  · exact buildCall_prime settled call
  · cases call

theorem programs_usable {part : Part} {s' : World} (usable : UsableRanges s.plane.services)
    (programs : part.programs s = some (spec, s')) : UsableRanges s'.plane.services := by
  cases part with
  | upsert => cases programs; exact usable
  | reweigh key name weight =>
    cases programs
    exact usableRanges_closed.entries s.plane key (f := fun e => e.overrideWeight name weight)
      (fun _ => rfl) usable
  | remove => cases programs
  | mark => cases programs

/--
After adoption and any operations, every table an operation asks for is built in full or refused.

The sizes recovered from the maps must be prime, or too small to be built into again.
-/
theorem table_builds_return (config : NodeConfig) {m : Maps} (scan : Scan m) (env : Env) (waiting : Bool)
    (usable : m.UsableSizes) (events : List LifeEvent) (op : Op) (env' : Env) {size : Nat}
    {members : List Maglev.Member}
    (builds : op.BuildsTable env' (Run.run Dataplane.live (.recovered config scan env waiting) events)
      size members) :
    (∃ table, Maglev.buildTable size members = .ok table ∧ table.length = size) ∨
      Maglev.buildTable size members = .error .noBackends ∨
      ∃ total, Maglev.buildTable size members = .error (.tooSmall size total) := by
  obtain ⟨ran, rest, part, s, spec, s', _, run, programs, call⟩ := builds
  have reached : UsableRanges
      (Run.run Dataplane.live (.recovered config scan env waiting) events).services :=
    @Run.invariant Dataplane LifeEvent Dataplane.live (fun _ _ => True) (fun p => UsableRanges p.services)
      (fun holds _ => live_usable holds _) _ _ (recovered_usable config scan env waiting usable)
      (Run.along_of_forall (fun _ _ => trivial) _)
  have begun := usableRanges_closed.ran run reached
  exact Maglev.buildTableWith_returns (upsertCall_prime (programs_usable begun programs) call) members

section Inputs

theorem upsert_builds {env : Env} {p : Dataplane}
    (call : upsertCall spec env ⟨p, [], 0⟩ = some (size, members)) :
    (Op.upsertVIP spec).BuildsTable env p size members :=
  ⟨[], [], .upsert spec, _, spec, _, rfl, .done (.refl _), rfl, call⟩

/-- A VIP left behind in a range of a prime size asks for a table of that size, and gets it or an error. -/
theorem recovered_table_is_built :
    (Op.upsertVIP leftBehindVIP).BuildsTable calm
        (Run.run Dataplane.live (.recovered plainNode (leftBehindScan 1031) calm true) [])
        1031 [⟨"10.1.0.2:8080", 0⟩] ∧
      ((∃ table, Maglev.buildTable 1031 [⟨"10.1.0.2:8080", 0⟩] = .ok table ∧ table.length = 1031) ∨
        Maglev.buildTable 1031 [⟨"10.1.0.2:8080", 0⟩] = .error .noBackends ∨
        ∃ total, Maglev.buildTable 1031 [⟨"10.1.0.2:8080", 0⟩] = .error (.tooSmall 1031 total)) := by
  have prime : UsableSize 1031 := Or.inr (prime_of_class (by decide))
  have builds : (Op.upsertVIP leftBehindVIP).BuildsTable calm
      (Run.run Dataplane.live (.recovered plainNode (leftBehindScan 1031) calm true) [])
      1031 [⟨"10.1.0.2:8080", 0⟩] := upsert_builds (by decide +kernel)
  exact ⟨builds, table_builds_return plainNode (leftBehindScan 1031) calm true
    ⟨fun _ _ => prime, fun _ _ => prime⟩ [] _ calm builds⟩

/--
A range of 1032 slots is recovered, and programming its VIP again never comes to an end.

The step of the backend's permutation is even, so that the odd slots are never met.
-/
theorem composite_range_hangs :
    (Op.upsertVIP leftBehindVIP).BuildsTable calm
        (.recovered plainNode (leftBehindScan 1032) calm true) 1032 [⟨"10.1.0.2:8080", 0⟩] ∧
      Maglev.buildTable 1032 [⟨"10.1.0.2:8080", 0⟩] = .error .diverges ∧
      ∃ ve ∈ Maglev.virtuals Maglev.hash 1032 [⟨"10.1.0.2:8080", 0⟩], ∃ table start, ∀ fuel,
        Maglev.probe 1032 table ve fuel start = none := by
  have diverges : Maglev.buildTable 1032 [⟨"10.1.0.2:8080", 0⟩] = .error .diverges :=
    Maglev.buildTableWith_diverges (by omega) rfl (by decide +kernel)
  exact ⟨upsert_builds (by decide +kernel), diverges, Maglev.buildTableWith_stuck diverges⟩

end Inputs

end Rivora

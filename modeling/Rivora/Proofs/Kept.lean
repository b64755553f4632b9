import Rivora.Dataplane.Adopt
import Rivora.Proofs.Parts

/-! What every operation of the control plane keeps, from what its changes of the entries keep. -/

namespace Rivora

/-- A computation keeps a property of the entries of the VIPs, whichever way it ends. -/
def Kept (P : FMap String ServiceEntry → FMap String Bool → Prop) (env : Env) {α : Type} (m : M α) : Prop :=
  Effect.Triple env (fun s => P s.plane.services s.plane.unclaimed) m (fun _ s => P s.plane.services s.plane.unclaimed) (fun s => P s.plane.services s.plane.unclaimed)

namespace Kept

variable {P : FMap String ServiceEntry → FMap String Bool → Prop} {env : Env} {α β : Type}

theorem after {m : M α} (kept : Kept P env m) {s : World} (start : P s.plane.services s.plane.unclaimed) : P (m env s).2.plane.services (m env s).2.plane.unclaimed :=
  Effect.Triple.keeps kept start

theorem of_after {m : M α} (kept : ∀ s, P s.plane.services s.plane.unclaimed → P (m env s).2.plane.services (m env s).2.plane.unclaimed) : Kept P env m := by
  intro s start
  have holds := kept s start
  rcases run : m env s with ⟨e | a, s'⟩
  · rwa [run] at holds
  · rwa [run] at holds

theorem pure (a : α) : Kept P env (Pure.pure a : M α) := Effect.Triple.pure fun _ start => start

theorem fail (e : GoError) : Kept P env (Effect.fail e : M α) := Effect.Triple.fail fun _ start => start

theorem liftExcept (r : Except GoError α) : Kept P env (Rivora.liftExcept r) := by
  cases r with
  | ok a => exact pure a
  | error e => exact fail e

theorem getPlane : Kept P env Rivora.getPlane := Effect.Triple.read fun _ start => start

theorem getEntry (key : String) : Kept P env (Rivora.getEntry key) := Effect.Triple.read fun _ start => start

theorem iterate (keys : List String) : Kept P env (Rivora.iterate keys) := fun _ start => start

theorem write (w : MapWrite) : Kept P env (Rivora.write w) := by
  apply of_after
  intro s start
  unfold Rivora.write
  split
  · exact start
  · split
    · exact start
    · exact start

/-- A change of the control plane that keeps the property. -/
theorem modifyPlane {f : Dataplane → Dataplane} (keeps : ∀ p, P p.services p.unclaimed → P (f p).services (f p).unclaimed) :
    Kept P env (Rivora.modifyPlane f) :=
  Effect.Triple.update fun s start => keeps s.plane start

/-- A change that touches neither table. -/
theorem silently {f : Dataplane → Dataplane} (same : ∀ p, (f p).services = p.services ∧ (f p).unclaimed = p.unclaimed) :
    Kept P env (Rivora.modifyPlane f) :=
  modifyPlane fun p holds => (same p).1.symm ▸ (same p).2.symm ▸ holds

theorem bind {m : M α} {f : α → M β} (first : Kept P env m) (second : ∀ a, Kept P env (f a)) :
    Kept P env (m >>= f) :=
  Effect.Triple.bind first second

theorem mapError {g : GoError → GoError} {m : M α} (kept : Kept P env m) :
    Kept P env (Effect.mapError g m) :=
  Effect.Triple.mapError kept

theorem ignoring {m : M Unit} (kept : Kept P env m) : Kept P env (Effect.ignoring m) :=
  Effect.Triple.ignoring kept

theorem outcome {m : M α} (kept : Kept P env m) : Kept P env (Effect.outcome m) :=
  of_after fun _ start => kept.after start

/-- A loop keeps what each of its rounds keeps. -/
theorem forEach_mem {items : List α} {f : α → M Unit} (each : ∀ x ∈ items, Kept P env (f x)) :
    Kept P env (Effect.forEach items f) := by
  induction items with
  | nil => exact pure ()
  | cons x rest ih =>
    exact (each x List.mem_cons_self).bind fun _ => ih fun y member => each y (List.mem_cons_of_mem x member)

theorem forEach {items : List α} {f : α → M Unit} (each : ∀ x, Kept P env (f x)) :
    Kept P env (Effect.forEach items f) :=
  forEach_mem fun x _ => each x

theorem attempt {items : List α} {f : α → M Unit} (each : ∀ x, Kept P env (f x)) :
    Kept P env (Effect.attempt items f) :=
  of_after fun _ start => Effect.attempt_keeps (P := fun s : World => P s.plane.services s.plane.unclaimed)
    (fun x _ holds => (each x).after holds) items start

theorem ite {c : Prop} [Decidable c] {m n : M α} (yes : Kept P env m) (no : Kept P env n) :
    Kept P env (if c then m else n) := by
  split
  · exact yes
  · exact no

theorem writeHealth (id : Nat) : Kept P env (Rivora.writeHealth id) := by
  refine getPlane.bind fun p => ?_
  split
  · exact pure ()
  · exact write _

theorem resetDropStats (id : Nat) : Kept P env (Rivora.resetDropStats id) :=
  getPlane.bind fun _ => ite (write _).ignoring (pure ())

theorem applyServiceRateLimit (id : Nat) (rl : VIPRateLimit) :
    Kept P env (Rivora.applyServiceRateLimit id rl) := by
  refine getPlane.bind fun p => ?_
  exact ite (ite (fail _) (pure ())) (write _).mapError

theorem rangeMapDeleteBlocks (ip : IP) (proto : UInt8) (blocks : List PortBlock) :
    Kept P env (Rivora.rangeMapDeleteBlocks ip proto blocks) :=
  getPlane.bind fun _ => ite (forEach fun _ => (write _).ignoring) (pure ())

theorem rangeMapWriteFrom (ip : IP) (proto : UInt8) (sid : Nat) (blocks : List PortBlock) :
    ∀ written, Kept P env (Rivora.rangeMapWriteFrom ip proto sid written blocks) := by
  induction blocks with
  | nil => exact fun _ => pure ()
  | cons b rest ih =>
    intro written
    refine (write _).outcome.bind fun result => ?_
    cases result with
    | ok _ => exact ih _
    | error e => exact (rangeMapDeleteBlocks ip proto written).bind fun _ => fail _

theorem vipMapWrite (vip : VIP) (sid : Nat) : Kept P env (Rivora.vipMapWrite vip sid) := by
  unfold Rivora.vipMapWrite
  split
  · exact fail _
  · refine ite ?_ (write _).mapError
    exact getPlane.bind fun _ => ite (fail _) (rangeMapWriteFrom _ _ _ _ _)

theorem vipMapDelete (vip : VIP) : Kept P env (Rivora.vipMapDelete vip) := by
  unfold Rivora.vipMapDelete
  split
  · exact fail _
  · exact ite (rangeMapDeleteBlocks _ _ _) (write _)

theorem writeSlots (target : Extent) (ids : List Nat) : Kept P env (Rivora.writeSlots target ids) :=
  forEach fun _ => (write _).mapError

theorem fillExtent (target : Extent) (backendIDs : FMap String Nat) (members : List Maglev.Member) :
    Kept P env (Rivora.fillExtent target backendIDs members) := by
  unfold Rivora.fillExtent
  split
  · exact fail _
  · exact writeSlots _ _

end Kept

/--
The changes of the entries by which a property must be kept.

An entry may change as long as its range stays or becomes one of the size classes; a VIP may get an empty
entry, may be claimed, and may go.
-/
structure Closed (P : FMap String ServiceEntry → FMap String Bool → Prop) : Prop where
  entry : ∀ services unclaimed key e (f : ServiceEntry → ServiceEntry), services.get? key = some e →
    (f e).extent = e.extent → P services unclaimed → P (services.insert key (f e)) unclaimed
  move : ∀ services unclaimed key e target, services.get? key = some e → target.size ∈ maglevSizeClasses →
    P services unclaimed → P (services.insert key { e with extent := target }) unclaimed
  create : ∀ services unclaimed key id, P services unclaimed → P (services.insert key (.new id)) unclaimed
  claim : ∀ services unclaimed key, P services unclaimed → P services (unclaimed.erase key)
  gone : ∀ services unclaimed key, P services unclaimed → P (services.erase key) unclaimed

/-- A change to a backend touches neither table. -/
theorem services_modifyBackend (p : Dataplane) (id : Nat) (f : BackendState → BackendState) :
    (p.modifyBackend id f).services = p.services ∧ (p.modifyBackend id f).unclaimed = p.unclaimed := by
  unfold Dataplane.modifyBackend
  split
  · exact ⟨rfl, rfl⟩
  · exact ⟨rfl, rfl⟩

namespace Kept

variable {P : FMap String ServiceEntry → FMap String Bool → Prop} {env : Env}

theorem writeBackendInfo (id : Nat) (b : Backend) : Kept P env (Rivora.writeBackendInfo id b) := by
  unfold Rivora.writeBackendInfo
  split
  · exact fail _
  refine bind ?_ fun mac => (write _).mapError
  -- The hardware address is remembered in the backend's state at most.
  unfold backendMAC
  split
  · split
    · exact fail _
    · exact (silently fun p => services_modifyBackend p id _).bind fun _ => pure _
  · refine getPlane.bind fun p => ?_
    split
    · exact pure _
    · exact pure _

theorem acquireBackend (name : String) (b : Backend) : Kept P env (Rivora.acquireBackend name b) := by
  refine getPlane.bind fun p => ?_
  split
  · exact fail _
  · exact (silently (by intros; exact ⟨rfl, rfl⟩)).bind fun _ => (writeBackendInfo _ b).bind fun _ =>
      (writeHealth _).bind fun _ => pure _

theorem releaseBackend (name : String) (id : Nat) : Kept P env (Rivora.releaseBackend name id) := by
  refine getPlane.bind fun p => ?_
  split
  · exact pure ()
  · refine ite (silently (by intros; exact ⟨rfl, rfl⟩)) ?_
    exact (silently (by intros; exact ⟨rfl, rfl⟩)).bind fun _ => (write _).ignoring.bind fun _ =>
      (write _).ignoring.bind fun _ => silently (by intros; exact ⟨rfl, rfl⟩)

theorem applyProbe (key : String) (probe : ProbeSpec) :
    Kept P env (Rivora.modifyPlane fun p => p.applyProbe key probe) := by
  refine silently fun p => ?_
  unfold Dataplane.applyProbe
  split
  · exact ⟨rfl, rfl⟩
  · rename_i entry found
    clear found
    -- Each backend of the VIP changes in turn.
    generalize entry.backendIDs.values = ids
    induction ids generalizing p with
    | nil => exact ⟨rfl, rfl⟩
    | cons id rest ih =>
      exact ⟨(ih _).1.trans (services_modifyBackend p id _).1, (ih _).2.trans (services_modifyBackend p id _).2⟩

theorem allocExtent (size : Nat) :
    Effect.Triple env (fun s => P s.plane.services s.plane.unclaimed) (Rivora.allocExtent size)
      (fun e s => P s.plane.services s.plane.unclaimed ∧ e.size = size) (fun s => P s.plane.services s.plane.unclaimed) := by
  refine Effect.Triple.bind (getPlane (P := P)) fun p => ?_
  split
  · exact Effect.Triple.fail fun _ start => start
  · rename_i extent alloc allocated
    exact Effect.Triple.bind (silently (by intros; exact ⟨rfl, rfl⟩)) fun _ =>
      Effect.Triple.pure fun s start => ⟨start, (ExtentAllocator.alloc_slots allocated).1⟩

theorem weightTargets (id : Nat) (keys : List String) : Kept P env (Rivora.weightTargets id keys) := by
  induction keys with
  | nil => exact pure []
  | cons key rest ih =>
    exact (getEntry key).bind fun _ => (iterate _).bind fun _ => ih.bind fun _ => pure _

theorem setMark (kind : Mark) (id : Nat) (value : Bool) : Kept P env (Rivora.setMark kind id value) := by
  refine getPlane.bind fun p => ?_
  split
  · exact pure ()
  · exact (silently fun p => services_modifyBackend p id _).bind fun _ => writeHealth id

theorem claimBackends (key : String) (service : RawService) (names : List String) :
    ∀ claimed, Kept P env (Rivora.claimBackends key service claimed names) := by
  induction names with
  | nil => exact fun _ => pure ()
  | cons name rest ih =>
    intro claimed
    refine getPlane.bind fun p => ?_
    split
    · exact ih claimed
    · split
      · exact (silently (by intros; exact ⟨rfl, rfl⟩)).bind fun _ => fail _
      · exact (silently (by intros; exact ⟨rfl, rfl⟩)).bind fun _ => ih _

theorem reserveService (key : String) (sid : Nat) (extent : Extent) :
    Kept P env (Rivora.reserveService key sid extent) := by
  refine getPlane.bind fun p => ?_
  split
  · exact fail _
  · split
    · exact (silently (by intros; exact ⟨rfl, rfl⟩)).bind fun _ => fail _
    · exact silently (by intros; exact ⟨rfl, rfl⟩)

theorem dropRawVIP (r : RawVIP) : Kept P env (Rivora.dropRawVIP r) := by
  unfold Rivora.dropRawVIP
  split
  · exact (write _).ignoring
  · exact forEach fun _ => (write _).ignoring

/-- A recovered VIP is entered into the table of services. -/
theorem services_recover (p : Dataplane) (r : RawVIP) (service : RawService) :
    (p.recover r service).services = p.services.insert r.key (service.entry r) ∧
      (p.recover r service).unclaimed = p.unclaimed := by
  have kept : ∀ (bs : List AdoptedBackend) (p : Dataplane),
      (bs.foldl Dataplane.adoptBackend p).services = p.services ∧
        (bs.foldl Dataplane.adoptBackend p).unclaimed = p.unclaimed := by
    intro bs
    induction bs with
    | nil => exact fun _ => ⟨rfl, rfl⟩
    | cons b rest ih => exact fun p => ih _
  exact ⟨congrArg (fun services => services.insert r.key (service.entry r)) (kept _ p).1, (kept _ p).2⟩

/-- The recovery of a VIP keeps what its entry keeps. -/
theorem adoptOne {m : Maps} {r : RawVIP}
    (entered : ∀ service services unclaimed, readService m r = .ok service → P services unclaimed →
      P (services.insert r.key (service.entry r)) unclaimed) : Kept P env (Rivora.adoptOne m r) := by
  unfold Rivora.adoptOne
  cases read : readService m r with
  | error e => exact fun _ start => start
  | ok service =>
    have recovered : Kept P env (recoverService r service) := by
      refine (reserveService _ _ _).bind fun _ => (iterate _).bind fun _ =>
        (claimBackends _ _ _ _).bind fun _ => bind ?_ fun _ => (iterate _).bind fun _ => ?_
      · refine modifyPlane fun p holds => ?_
        rw [(services_recover p r service).1, (services_recover p r service).2]
        exact entered service p.services p.unclaimed read holds
      · refine forEach fun name => ?_
        split
        · exact pure ()
        · exact (writeHealth _).ignoring
    exact fun s start => recovered s start

/-- So does the whole adoption. -/
theorem adopt {m : Maps} {scan : Scan m}
    (entered : ∀ r ∈ scan.raws, ∀ service services unclaimed, readService m r = .ok service →
      P services unclaimed → P (services.insert r.key (service.entry r)) unclaimed) : Kept P env (Rivora.adopt m scan) := by
  unfold Rivora.adopt
  generalize scan.raws = raws at entered
  induction raws with
  | nil => exact pure _
  | cons r rest ih =>
    refine bind ?_ fun recovered => (ih fun r' member => entered r' (List.mem_cons_of_mem r member)).bind
      fun _ => pure _
    refine ite ((dropRawVIP r).bind fun _ => pure _) ?_
    refine (adoptOne (entered r List.mem_cons_self)).outcome.bind fun result => ?_
    split
    · exact pure _
    · exact (dropRawVIP r).bind fun _ => pure _

/-- A removal claims its VIP and takes the entry away, and that is all it does to either. -/
theorem removeVIP {key : String}
    (claim : ∀ services unclaimed, P services unclaimed → P services (unclaimed.erase key))
    (gone : ∀ services unclaimed, P services unclaimed → P (services.erase key) unclaimed) :
    Kept P env (Rivora.removeVIP key) := by
  refine getPlane.bind fun p => ?_
  split
  · exact pure ()
  · rename_i entry _
    refine (iterate _).bind fun names => (forEach fun name => ?_).bind fun _ => ?_
    · unfold releaseListed
      split
      · exact pure ()
      · exact releaseBackend _ _
    refine (modifyPlane fun p holds => claim p.services p.unclaimed holds).bind fun _ => bind ?_ fun _ => ?_
    · exact (vipMapDelete _).ignoring.bind fun _ => (write _).ignoring.bind fun _ =>
        (applyServiceRateLimit _ _).ignoring.bind fun _ => resetDropStats _
    · exact modifyPlane fun p holds => gone p.services p.unclaimed holds

end Kept

namespace Closed

variable {P : FMap String ServiceEntry → FMap String Bool → Prop} {env : Env} (closed : Closed P)

include closed

theorem entries (p : Dataplane) (key : String) {f : ServiceEntry → ServiceEntry}
    (same : ∀ e, (f e).extent = e.extent) (holds : P p.services p.unclaimed) :
    P (p.modifyEntry key f).services (p.modifyEntry key f).unclaimed := by
  unfold Dataplane.modifyEntry
  split
  · exact holds
  · rename_i e found
    exact closed.entry p.services p.unclaimed key e f found (same e) holds

theorem modifyEntry {key : String} {f : ServiceEntry → ServiceEntry}
    (same : ∀ e, (f e).extent = e.extent) : Kept P env (Rivora.modifyEntry key f) :=
  Kept.modifyPlane fun p holds => closed.entries p key same holds

theorem enterService (spec : VIP) : Kept P env (Rivora.enterService spec) := by
  refine Kept.getPlane.bind fun p => (Kept.liftExcept _).mapError.bind fun _ => ?_
  refine Kept.bind (Kept.mapError (Kept.ite (Kept.pure ()) ?_)) fun _ =>
    (Kept.getEntry _).bind fun held =>
      (closed.modifyEntry (f := ServiceEntry.prune spec) fun _ => rfl).bind fun _ => Kept.pure held
  -- A new VIP gets an entry without a range.
  refine Kept.getPlane.bind fun p => ?_
  split
  · exact Kept.fail _
  · exact (Kept.modifyPlane fun p holds => closed.create p.services p.unclaimed _ _ holds).bind fun _ =>
      Kept.resetDropStats _

theorem settleBackends (key : String) (vip : VIP) : Kept P env (Rivora.settleBackends key vip) := by
  refine Kept.bind ?_ fun removed => Kept.bind ?_ fun added =>
    (Kept.applyProbe key vip.healthCheck).bind fun _ => Kept.pure _
  · refine (Kept.getEntry key).bind fun entry => (Kept.iterate _).bind fun names => ?_
    refine (Kept.forEach fun name => ?_).bind fun _ => Kept.pure _
    unfold releaseUnwanted
    split
    · exact Kept.pure ()
    · exact Kept.ite (Kept.pure ()) ((Kept.releaseBackend _ _).bind fun _ =>
        closed.modifyEntry (f := ServiceEntry.unlist name) fun _ => rfl)
  · refine (Kept.getEntry key).bind fun entry => (Kept.iterate _).bind fun names => ?_
    refine (Kept.forEach fun name => ?_).bind fun _ => Kept.pure _
    unfold acquireOrRefresh
    split
    · exact Kept.pure ()
    · split
      · exact Kept.writeBackendInfo _ _
      · exact (Kept.acquireBackend _ _).mapError.bind fun id =>
          closed.modifyEntry (f := ServiceEntry.list name id) fun _ => rfl

/-- A rebuild takes a range of a size class only. -/
theorem rebuildMaglev (key : String) (desired : FMap String Backend) :
    Kept P env (Rivora.rebuildMaglev key desired) := by
  refine (Kept.getEntry key).bind fun entry => Kept.ite ?_ (Kept.fillExtent _ _ _)
  -- A range that is newly taken has the size of its class.
  refine Effect.Triple.bind (Kept.allocExtent _) fun target => ?_
  have moved (sized : target.size ∈ maglevSizeClasses) : Kept P env (do
      Rivora.modifyEntry key fun e => { e with extent := target }
      if entry.extent.size > 0 then Effect.update fun s => s.freeExtent entry.extent
      else Pure.pure ()) := by
    refine (Kept.modifyPlane fun p holds => ?_).bind fun _ =>
      Kept.ite (Effect.Triple.update fun s holds => holds) (Kept.pure ())
    unfold Dataplane.modifyEntry
    split
    · exact holds
    · rename_i e found
      exact closed.move p.services p.unclaimed key e target found sized holds
  intro s start
  have filled := (@Kept.fillExtent P env target entry.backendIDs
    (tableMembers entry.backendIDs desired)).after start.1
  rw [Effect.bind_apply, Effect.onError]
  rcases run : Rivora.fillExtent target entry.backendIDs
      (tableMembers entry.backendIDs desired) env s with ⟨e | _, s'⟩
  · rw [run] at filled
    exact filled
  · rw [run] at filled
    exact moved (start.2 ▸ maglevClassFor_mem _) s' filled

/-- An upsert keeps the property. -/
theorem upsertVIP (spec : VIP) : Kept P env (Rivora.upsertVIP spec) := by
  refine Kept.getPlane.bind fun p => (closed.enterService spec).bind fun held => ?_
  refine (closed.settleBackends _ _).bind fun changed => ?_
  refine Kept.bind (Kept.ite (closed.rebuildMaglev _ _).mapError (Kept.pure ())) fun _ => ?_
  -- The parameters, the limit and the keys are writes alone.
  refine Kept.bind ?_ fun _ => Kept.modifyPlane fun p holds => closed.claim _ _ _
    (closed.entries p (vipKeyString spec) (f := ServiceEntry.record spec _) (fun _ => rfl) holds)
  exact (Kept.getEntry _).bind fun entry => (Kept.write _).mapError.bind fun _ =>
    (Kept.applyServiceRateLimit _ _).mapError.bind fun _ => (Kept.vipMapWrite _ _).mapError

theorem removeVIP (key : String) : Kept P env (Rivora.removeVIP key) :=
  Kept.removeVIP (fun services unclaimed => closed.claim services unclaimed key)
    fun services unclaimed => closed.gone services unclaimed key

theorem reweighVIP (key name : String) (weight : Nat) : Kept P env (Rivora.reweighVIP key name weight) :=
  (closed.modifyEntry (f := fun e => e.overrideWeight name weight) fun _ => rfl).bind fun _ =>
    (Kept.getEntry key).bind fun _ => closed.upsertVIP _

/-- Every part of an operation keeps the property. -/
theorem part (part : Part) : Kept P env part.run := by
  cases part with
  | upsert spec => exact closed.upsertVIP spec
  | remove key => exact closed.removeVIP key
  | reweigh key name weight => exact closed.reweighVIP key name weight
  | mark kind id value => exact Kept.setMark kind id value

/-- So do parts that run one after another. -/
theorem ran {parts : List (Part × Bool)} {s s' : World} (run : Ran env parts s s') (start : P s.plane.services s.plane.unclaimed) :
    P s'.plane.services s'.plane.unclaimed := by
  induction run with
  | done same => exact same.plane ▸ start
  | @step s s₀ _ _ part _ _ same first _ ih =>
    apply ih
    have kept := (@Closed.part P env closed part).after (same.plane.symm ▸ start : P s₀.plane.services s₀.plane.unclaimed)
    rwa [first] at kept

theorem reloadVIPs (desired : List VIP) : Kept P env (Rivora.reloadVIPs desired) :=
  Kept.getPlane.bind fun _ => (Kept.attempt fun _ => (closed.removeVIP _).mapError).bind fun _ =>
    (Kept.attempt fun _ => closed.upsertVIP _).bind fun _ => Kept.pure _

theorem setBackendWeight (id : Nat) (vipKey : String) (weight : Nat) :
    Kept P env (Rivora.setBackendWeight id vipKey weight) := by
  refine Kept.ite (Kept.fail _) (Kept.getPlane.bind fun p => Kept.ite (Kept.fail _) ?_)
  refine (Kept.iterate _).bind fun keys => (Kept.weightTargets _ _).bind fun targets => ?_
  refine Kept.ite ?_ ((Kept.forEach fun t => closed.reweighVIP _ _ _).bind fun _ => Kept.pure _)
  split
  · exact Kept.fail _
  · exact Kept.fail _

/-- So does every operation. -/
theorem op (op : Op) : Kept P env op.run := by
  cases op with
  | upsertVIP vip => exact closed.upsertVIP vip
  | removeVIP key => exact closed.removeVIP key
  | reloadVIPs desired =>
    refine (closed.reloadVIPs desired).bind fun result => ?_
    split
    · exact Kept.pure ()
    · exact Kept.fail _
  | setBackendWeight id key weight => exact (closed.setBackendWeight id key weight).bind fun _ => Kept.pure ()
  | setBackendHealth id healthy => exact Kept.setMark .probe id healthy
  | setBackendDraining id draining => exact Kept.setMark .drain id draining
  | setBackendDrainingByKey vipKey backendKey draining =>
    refine Kept.getPlane.bind fun p => ?_
    split
    · exact Kept.pure ()
    · split
      · exact Kept.pure ()
      · exact Kept.setMark .drain _ draining
  | setBackendAdminDraining id draining =>
    refine Kept.getPlane.bind fun p => ?_
    split
    · exact Kept.fail _
    · exact (Kept.silently fun p => services_modifyBackend p id _).bind fun _ => Kept.writeHealth id

theorem pruneUnclaimed : Kept P env Rivora.pruneUnclaimed :=
  Kept.getPlane.bind fun _ => (Kept.forEach fun _ => (closed.removeVIP _).ignoring).bind fun _ => Kept.pure _

end Closed

end Rivora

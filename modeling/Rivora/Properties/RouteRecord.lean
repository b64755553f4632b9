import Rivora.Bgp.RouteLaws
import Rivora.Bgp.SpeakerLaws
import Rivora.Lib.Run

/-! The record of the advertised routes against the paths in the server. -/

namespace Rivora.Bgp

open Interaction

/-- What the server answers, as far as its paths are concerned. -/
def ribSpec : Spec (fun _ : Call => Reply) Rib where
  may _ _ := True
  answers r c reply r' := (∃ e, reply = .error e) ∧ r' = r ∨ reply = .ok r.nextID ∧ r' = r.perform c

theorem Failures.obeys_rib (fails : Failures) (t : Gobgp × Nat) (c : Call) :
    ribSpec.answers t.1.rib c (fails.answer c t).1 (fails.answer c t).2.1.rib := by
  unfold Failures.answer Gobgp.answer
  cases fails t.2 c with
  | some text => exact Or.inl ⟨⟨text, rfl⟩, rfl⟩
  | none =>
    dsimp only
    split
    · exact Or.inr ⟨rfl, rfl⟩
    · exact Or.inl ⟨⟨_, rfl⟩, rfl⟩

theorem keeps_rib {α : Type} {p : Prog α} (calls : p.Calls Call.Ruling) (r : Rib) :
    p.Meets ribSpec (fun _ r' => r' = r) r := by
  refine calls.keeps (P := fun r' => r' = r) ?_ rfl
  rintro c _ ruling rfl
  refine ⟨trivial, fun reply r' answered => ?_⟩
  rcases answered with ⟨_, rfl⟩ | ⟨_, rfl⟩
  · rfl
  · exact Rib.perform_of_not_path _ ruling

/-- The server holds exactly the paths that are recorded, one for each prefix. -/
structure Recorded (advertised : FMap Netip.Prefix AdvertisedRoute) (r : Rib) : Prop where
  one : (r.paths.map fun path => path.pfx).Nodup
  ids : (r.paths.map Path.id).Nodup
  older : ∀ path ∈ r.paths, path.id < r.nextID
  record : ∀ p a, advertised.get? p = some a ↔ ∃ path ∈ r.paths, path.pfx = p ∧ a = ⟨path.id, path.route.sig⟩

namespace Recorded

variable {advertised : FMap Netip.Prefix AdvertisedRoute} {r : Rib}

theorem path_of_id (recorded : Recorded advertised r) {path path' : Path} (member : path ∈ r.paths)
    (member' : path' ∈ r.paths) (same : path.id = path'.id) : path = path' :=
  List.inj_on_of_nodup_map recorded.ids member member' same

/-- A withdrawal takes the path and its record. -/
theorem withdraw (recorded : Recorded advertised r) {p : Netip.Prefix} {a : AdvertisedRoute}
    (found : advertised.get? p = some a) : Recorded (advertised.erase p) (r.perform (.deletePath a.id)) := by
  have sub : (r.perform (.deletePath a.id)).paths.Sublist r.paths := List.filter_sublist
  refine ⟨recorded.one.sublist (sub.map _), recorded.ids.sublist (sub.map _),
    fun path member => recorded.older path (sub.subset member), fun q b => ?_⟩
  obtain ⟨mine, member, rfl, rfl⟩ := (recorded.record p a).mp found
  rw [FMap.get?_erase]
  by_cases here : q = mine.pfx
  · -- The path is gone, and there was no other for this prefix.
    subst here
    rw [if_pos rfl]
    refine ⟨nofun, fun ⟨path, kept, same, _⟩ => ?_⟩
    obtain ⟨kept, other⟩ := List.mem_filter.mp kept
    have one := List.inj_on_of_nodup_map recorded.one kept member same
    subst one
    exact absurd rfl (of_decide_eq_true other)
  · rw [if_neg here, recorded.record]
    constructor
    · rintro ⟨path, held, rfl, rfl⟩
      refine ⟨path, List.mem_filter.mpr ⟨held, decide_eq_true fun same => here ?_⟩, rfl, rfl⟩
      rw [recorded.path_of_id held member same]
    · rintro ⟨path, kept, rfl, rfl⟩
      exact ⟨path, (List.mem_filter.mp kept).1, rfl, rfl⟩

/-- An announcement adds both. -/
theorem advertise (recorded : Recorded advertised r) {request : PathRequest}
    (absent : advertised.get? request.pfx = none) :
    Recorded (advertised.insert request.pfx ⟨r.nextID, request.route.sig⟩) (r.perform (.addPath request)) := by
  have fresh : ∀ path ∈ r.paths, path.pfx ≠ request.pfx := by
    intro path member same
    have found := (recorded.record path.pfx _).mpr ⟨path, member, rfl, rfl⟩
    rw [same, absent] at found
    cases found
  refine ⟨?_, ?_, ?_, fun q b => ?_⟩
  · change ((r.paths ++ [_]).map _).Nodup
    rw [List.map_append, List.nodup_append]
    refine ⟨recorded.one, List.nodup_singleton _, fun p earlier q new => ?_⟩
    obtain ⟨path, member, rfl⟩ := List.mem_map.mp earlier
    cases List.mem_singleton.mp new
    exact fresh path member
  · change ((r.paths ++ [_]).map _).Nodup
    rw [List.map_append, List.nodup_append]
    refine ⟨recorded.ids, List.nodup_singleton _, fun i earlier j new => ?_⟩
    obtain ⟨path, member, rfl⟩ := List.mem_map.mp earlier
    cases List.mem_singleton.mp new
    exact Nat.ne_of_lt (recorded.older path member)
  · intro path member
    rcases List.mem_append.mp member with earlier | new
    · exact Nat.lt_succ_of_lt (recorded.older path earlier)
    · cases List.mem_singleton.mp new
      exact Nat.lt_succ_self _
  · rw [FMap.get?_insert]
    by_cases here : q = request.pfx
    · subst here
      rw [if_pos rfl]
      constructor
      · intro same
        cases same
        exact ⟨⟨request, r.nextID⟩, List.mem_append_right _ List.mem_cons_self, rfl, rfl⟩
      · rintro ⟨path, member, same, rfl⟩
        rcases List.mem_append.mp member with earlier | new
        · exact absurd same (fresh path earlier)
        · cases List.mem_singleton.mp new
          rfl
    · rw [if_neg here, recorded.record]
      constructor
      · rintro ⟨path, member, same, rfl⟩
        exact ⟨path, List.mem_append_left _ member, same, rfl⟩
      · rintro ⟨path, member, same, rfl⟩
        rcases List.mem_append.mp member with earlier | new
        · exact ⟨path, earlier, same, rfl⟩
        · cases List.mem_singleton.mp new
          exact absurd same.symm here

end Recorded

section Pass

variable {cfg : Settings} {desired : FMap Netip.Prefix Route} {Q : Route → Prop} {denyOK : Bool} {start h : Held}
  {finished : List Netip.Prefix} {r : Rib}

/-- Where the withdrawals of a pass stand, with some prefixes done. -/
structure Withdrawing (desired : FMap Netip.Prefix Route) (Q : Route → Prop) (start : Held)
    (finished : List Netip.Prefix) (h : Held) (r : Rib) : Prop where
  recorded : Recorded h.advertised r
  routes : ∀ path ∈ r.paths, Q path.route
  withdrawErrors : start.withdrawErrors ≤ h.withdrawErrors
  advertiseErrors : h.advertiseErrors = start.advertiseErrors
  shrinks : ∀ p a, h.advertised.get? p = some a → start.advertised.get? p = some a
  settled : h.withdrawErrors = start.withdrawErrors → ∀ p ∈ finished, ∀ a, h.advertised.get? p = some a →
    ∃ want, desired.get? p = some want ∧ want.sig = a.sig

theorem withdrawStale_meets (before : Withdrawing desired Q start finished h r) (p : Netip.Prefix) :
    (withdrawStale desired h p).Meets ribSpec (Withdrawing desired Q start (finished ++ [p])) r := by
  unfold withdrawStale
  split
  · -- It is not advertised any more.
    rename_i absent
    refine { before with settled := fun calm q done a found => ?_ }
    rcases List.mem_append.mp done with earlier | here
    · exact before.settled calm q earlier a found
    · cases List.mem_singleton.mp here
      rw [absent] at found
      cases found
  · rename_i cur held
    split
    · -- It stays, since it is wanted as it is.
      rename_i wanted
      refine { before with settled := fun calm q done a found => ?_ }
      rcases List.mem_append.mp done with earlier | here
      · exact before.settled calm q earlier a found
      · cases List.mem_singleton.mp here
        cases held.symm.trans found
        cases asked : desired.get? p with
        | none => rw [asked] at wanted; cases wanted
        | some want =>
          rw [asked] at wanted
          exact ⟨want, rfl, of_decide_eq_true wanted⟩
    · refine ⟨trivial, fun reply r' answered => ?_⟩
      rcases answered with ⟨⟨e, rfl⟩, rfl⟩ | ⟨rfl, rfl⟩
      · -- A failure is counted, and the record kept.
        refine { before with withdrawErrors := Nat.le_succ_of_le before.withdrawErrors, settled := ?_ }
        intro calm
        have grown : h.withdrawErrors + 1 = start.withdrawErrors := calm
        have := before.withdrawErrors
        omega
      · refine ⟨before.recorded.withdraw held, fun path member => ?_, before.withdrawErrors,
          before.advertiseErrors, fun q a found => ?_, fun calm q done a found => ?_⟩
        · exact before.routes path (List.mem_filter.mp member).1
        · rw [FMap.get?_erase] at found
          split at found
          · cases found
          · exact before.shrinks q a found
        · rw [FMap.get?_erase] at found
          split at found
          · cases found
          · rename_i other
            rcases List.mem_append.mp done with earlier | here
            · exact before.settled calm q earlier a found
            · exact absurd (List.mem_singleton.mp here) other

/-- Where the advertisements of a pass stand, with some prefixes done. -/
structure Advertising (desired : FMap Netip.Prefix Route) (Q : Route → Prop) (denyOK : Bool) (start : Held)
    (finished : List Netip.Prefix) (h : Held) (r : Rib) : Prop where
  recorded : Recorded h.advertised r
  routes : ∀ path ∈ r.paths, Q path.route
  withdrawErrors : h.withdrawErrors = start.withdrawErrors
  advertiseErrors : start.advertiseErrors ≤ h.advertiseErrors
  grows : ∀ p a, h.advertised.get? p = some a → start.advertised.get? p = some a ∨
    ∃ want, desired.get? p = some want ∧ want.sig = a.sig
  settled : denyOK = true → h.advertiseErrors = start.advertiseErrors → ∀ p ∈ finished,
    (desired.get? p).isSome → (h.advertised.get? p).isSome

theorem Advertising.skip (before : Advertising desired Q denyOK start finished h r) {p : Netip.Prefix}
    (done : denyOK = true → (desired.get? p).isSome → (h.advertised.get? p).isSome) :
    Advertising desired Q denyOK start (finished ++ [p]) h r := by
  refine { before with settled := fun inLine calm q finished => ?_ }
  rcases List.mem_append.mp finished with earlier | here
  · exact before.settled inLine calm q earlier
  · cases List.mem_singleton.mp here
    exact done inLine

theorem Advertising.failed (before : Advertising desired Q denyOK start finished h r) (p : Netip.Prefix) :
    Advertising desired Q denyOK start (finished ++ [p]) { h with advertiseErrors := h.advertiseErrors + 1 } r := by
  refine { before with advertiseErrors := Nat.le_succ_of_le before.advertiseErrors, settled := ?_ }
  intro _ calm
  have grown : h.advertiseErrors + 1 = start.advertiseErrors := calm
  have := before.advertiseErrors
  omega

theorem Advertising.advertised (before : Advertising desired Q denyOK start finished h r) (request : PathRequest)
    (wanted : desired.get? request.pfx = some request.route) (plain : Q request.route)
    (absent : h.advertised.get? request.pfx = none) :
    Advertising desired Q denyOK start (finished ++ [request.pfx])
      { h with advertised := h.advertised.insert request.pfx ⟨r.nextID, request.route.sig⟩ }
      (r.perform (.addPath request)) := by
  refine ⟨before.recorded.advertise absent, fun path member => ?_, before.withdrawErrors, before.advertiseErrors,
    fun q a found => ?_, fun inLine calm q done asked => ?_⟩
  · rcases List.mem_append.mp member with earlier | new
    · exact before.routes path earlier
    · cases List.mem_singleton.mp new
      exact plain
  · rw [FMap.get?_insert] at found
    split at found
    · rename_i here
      cases found
      exact Or.inr ⟨request.route, here ▸ wanted, rfl⟩
    · exact before.grows q a found
  · dsimp only
    rw [FMap.get?_insert]
    split
    · rfl
    · rename_i other
      rcases List.mem_append.mp done with earlier | here
      · exact before.settled inLine calm q earlier asked
      · exact absurd (List.mem_singleton.mp here) other

theorem advertiseMissing_meets (plain : ∀ p want, desired.get? p = some want → Q want)
    (before : Advertising desired Q denyOK start finished h r) (p : Netip.Prefix) :
    (advertiseMissing cfg desired denyOK h p).Meets ribSpec
      (Advertising desired Q denyOK start (finished ++ [p])) r := by
  unfold advertiseMissing
  split
  · rename_i want missing wanted
    have absent : h.advertised.get? p = none := by
      rw [FMap.contains, Option.isSome_eq_false_iff, Option.isNone_iff_eq_none] at missing
      exact missing
    split
    · -- A limited route waits for rules that are in line.
      rename_i waits
      exact before.skip fun inLine => absurd inLine waits.2
    · unfold advertise
      cases hop : cfg.nextHop p.addr with
      | error e => exact before.failed p
      | ok nextHop =>
        refine ⟨trivial, fun reply r' answered => ?_⟩
        rcases answered with ⟨⟨e, rfl⟩, rfl⟩ | ⟨rfl, rfl⟩
        · exact before.failed p
        · exact before.advertised ⟨p, nextHop, cfg.localPref, want⟩ wanted (plain p want wanted) absent
  · rename_i settled
    -- The prefix is advertised or not wanted.
    refine before.skip fun _ asked => ?_
    cases held : h.advertised.get? p with
    | some a => rfl
    | none =>
      obtain ⟨want, wanted⟩ := Option.isSome_iff_exists.mp asked
      exact absurd wanted (settled want (by rw [FMap.contains, held]; rfl))

/-- What a pass does about the routes, from a record that is right. -/
structure Passed (desired : FMap Netip.Prefix Route) (Q : Route → Prop) (denyOK : Bool) (start h : Held)
    (r : Rib) : Prop where
  recorded : Recorded h.advertised r
  routes : ∀ path ∈ r.paths, Q path.route
  withdrawErrors : start.withdrawErrors ≤ h.withdrawErrors
  advertiseErrors : start.advertiseErrors ≤ h.advertiseErrors
  settled : h.withdrawErrors = start.withdrawErrors → h.advertiseErrors = start.advertiseErrors → denyOK = true ∧
    ∀ p, (∀ a, h.advertised.get? p = some a → ∃ want, desired.get? p = some want ∧ want.sig = a.sig) ∧
      ((desired.get? p).isSome → (h.advertised.get? p).isSome)

/-- The routes are brought up to date, or as far as calls succeed. -/
theorem syncRoutes_meets (plain : ∀ p want, desired.get? p = some want → Q want)
    (recorded : Recorded start.advertised r) (routes : ∀ path ∈ r.paths, Q path.route)
    (order : Order Netip.Prefix) :
    (syncRoutes cfg order desired denyOK start).Meets ribSpec (Passed desired Q denyOK start) r := by
  unfold syncRoutes
  -- Rules that are out of line count as an error from the beginning.
  generalize counted : (if denyOK then start else { start with advertiseErrors := start.advertiseErrors + 1 }) =
    first
  have same : first.advertised = start.advertised ∧ first.withdrawErrors = start.withdrawErrors ∧
      start.advertiseErrors ≤ first.advertiseErrors ∧
      (first.advertiseErrors = start.advertiseErrors → denyOK = true) := by
    cases denyOK with
    | true => subst counted; exact ⟨rfl, rfl, Nat.le_refl _, fun _ => rfl⟩
    | false =>
      subst counted
      exact ⟨rfl, rfl, Nat.le_succ _, fun equal => absurd equal (Nat.succ_ne_self _)⟩
  obtain ⟨advertised, withdrawErrors, advertiseErrors, inLine⟩ := same
  have begins : Withdrawing desired Q first [] first r :=
    ⟨advertised ▸ recorded, routes, Nat.le_refl _, rfl, fun _ _ found => found, fun _ _ done => nomatch done⟩
  refine Prog.Meets.bind ((Prog.Meets.foldlM (I := Withdrawing desired Q first)
    (fun _ p _ _ _ held => withdrawStale_meets held p) begins).mono ?_)
  intro h' r' withdrawn
  have goesOn : Advertising desired Q denyOK h' [] h' r' :=
    ⟨withdrawn.recorded, withdrawn.routes, rfl, Nat.le_refl _, fun _ _ found => Or.inl found,
      fun _ _ _ done => nomatch done⟩
  refine (Prog.Meets.foldlM (I := Advertising desired Q denyOK h')
    (fun _ p _ _ _ held => advertiseMissing_meets plain held p) goesOn).mono ?_
  intro h'' r'' done
  have withdrawals := withdrawn.withdrawErrors
  have failures := withdrawn.advertiseErrors
  have withdrawals' := done.withdrawErrors
  have failures' := done.advertiseErrors
  refine ⟨done.recorded, done.routes, by omega, by omega, fun calm calm' => ?_⟩
  have ok : denyOK = true := inLine (by omega)
  refine ⟨ok, fun p => ⟨fun a found => ?_, fun asked => ?_⟩⟩
  · rcases done.grows p a found with earlier | new
    · -- Every prefix that was recorded has been looked at.
      refine withdrawn.settled (by omega) p ?_ a earlier
      exact (order.perm _).mem_iff.mpr (FMap.mem_keys.mpr ⟨a, withdrawn.shrinks p a earlier⟩)
    · exact new
  · refine done.settled ok (by omega) p ?_ asked
    exact (List.perm_insertionSort _ _).mem_iff.mpr (FMap.mem_keys.mpr (Option.isSome_iff_exists.mp asked))

/-- So is a whole pass. -/
theorem resync_meets (shortSum : String → String) (cfg : Settings)
    (plain : ∀ p want, desired.get? p = some want → Q want)
    (recorded : Recorded start.advertised r) (routes : ∀ path ∈ r.paths, Q path.route) (orders : PassOrders)
    (l : Limits) :
    (resync shortSum cfg orders desired l start).Meets ribSpec
      (fun result r' => ∃ denyOK, Passed desired Q denyOK start result.2 r') r := by
  refine Prog.Meets.bind ((keeps_rib (syncDenySets_calls orders.peers desired l) r).mono ?_)
  rintro ⟨result, l'⟩ _ rfl
  refine Prog.Meets.bind ((syncRoutes_meets plain recorded routes orders.held).mono ?_)
  exact fun h r' passed => ⟨_, passed⟩

end Pass

section Runs

variable {shortSum : String → String} {cfg : Settings} {Q : Route → Prop} {s : Speaker}

/-- The record is right, and every path belongs to a route with a property. -/
structure Speaker.Tracks (Q : Route → Prop) (s : Speaker) : Prop where
  recorded : Recorded s.held.advertised s.gobgp.rib
  routes : ∀ path ∈ s.gobgp.rib.paths, Q path.route

/-- Every route an event asks for has a property. -/
def Event.Desires (cfg : Settings) (Q : Route → Prop) : Event → Prop
  | .resync statuses orders _ => ∀ desired, cfg.desiredRoutes orders.addrs statuses = .ok desired →
    ∀ p want, desired.get? p = some want → Q want
  | .setPeers _ _ _ => True

theorem Speaker.Tracks.pass (shortSum : String → String) (tracks : s.Tracks Q) {statuses : List Status}
    {orders : PassOrders} (fails : Failures) {desired : FMap Netip.Prefix Route}
    (computed : cfg.desiredRoutes orders.addrs statuses = .ok desired)
    (plain : ∀ p want, desired.get? p = some want → Q want) :
    ∃ denyOK, Passed desired Q denyOK s.held (s.step shortSum cfg (.resync statuses orders fails)).held
      (s.step shortSum cfg (.resync statuses orders fails)).gobgp.rib := by
  have ends := (resync_meets shortSum cfg plain tracks.recorded tracks.routes orders s.limits).run_view
    (fun t : Gobgp × Nat => t.1.rib) (t := (s.gobgp, 0)) fun t c _ => fails.obeys_rib t c
  simp only [Speaker.step, computed]
  exact ends

/-- One event keeps the record in step with the server. -/
theorem Speaker.Tracks.step (tracks : s.Tracks Q) {e : Event} (plain : e.Desires cfg Q) :
    (s.step shortSum cfg e).Tracks Q := by
  cases e with
  | resync statuses orders fails =>
    cases computed : cfg.desiredRoutes orders.addrs statuses with
    | error e =>
      -- The pass has ended before it did anything.
      simp only [Speaker.step, computed]
      exact tracks
    | ok desired =>
      obtain ⟨denyOK, passed⟩ := tracks.pass shortSum fails computed (plain desired computed)
      exact ⟨passed.recorded, passed.routes⟩
  | setPeers desired choices fails =>
    have calls := @setPeers_calls shortSum cfg choices desired s.limits
    have rib : (s.step shortSum cfg (.setPeers desired choices fails)).gobgp.rib = s.gobgp.rib :=
      (keeps_rib calls s.gobgp.rib).run_view (fun t : Gobgp × Nat => t.1.rib) (t := (s.gobgp, 0))
        fun t c _ => fails.obeys_rib t c
    exact ⟨rib ▸ tracks.recorded, rib ▸ tracks.routes⟩

/-- A speaker before its first pass, with whatever neighbours and rules it was started. -/
def Speaker.start (exports : Exports) (limits : Limits) : Speaker := ⟨⟨⟨[], 1⟩, exports⟩, limits, .new⟩

theorem Speaker.tracks_start (exports : Exports) (limits : Limits) : (Speaker.start exports limits).Tracks Q where
  recorded := ⟨List.nodup_nil, List.nodup_nil, fun _ member => (nomatch member), fun _ _ =>
    ⟨fun found => (nomatch found), fun ⟨_, member, _⟩ => (nomatch member)⟩⟩
  routes := fun _ member => nomatch member

/-- So does a run. -/
theorem Speaker.tracks_run (shortSum : String → String) (exports : Exports) (limits : Limits) {events : List Event}
    (plain : ∀ e ∈ events, e.Desires cfg Q) :
    (Run.run (Speaker.step shortSum cfg) (Speaker.start exports limits) events).Tracks Q := by
  have along : Run.Along (Speaker.step shortSum cfg) (fun _ e => e.Desires cfg Q) (Speaker.start exports limits)
      events := Run.along_of_forall plain _
  exact Run.invariant (fun tracks plain => tracks.step plain) (Speaker.tracks_start exports limits) along

theorem Event.desires_true (e : Event) : e.Desires cfg fun _ => True := by
  cases e with
  | resync statuses orders fails => exact fun _ _ _ _ _ => trivial
  | setPeers desired choices fails => trivial

/-- No neighbour that a wanted route is limited to has a comma in its text. -/
def Event.CommaFree (cfg : Settings) (e : Event) : Prop :=
  e.Desires cfg fun want => ∀ peers, want.peers = some peers → ∀ t ∈ peers, ',' ∉ t.toList

theorem Event.CommaFree.desires {e : Event} (free : e.CommaFree cfg) : e.Desires cfg Route.Plain := by
  cases e with
  | setPeers desired choices fails => trivial
  | resync statuses orders fails =>
    intro desired computed p want wanted peers limited
    refine ⟨fun empty => ?_, free desired computed p want wanted peers limited⟩
    exact Settings.desiredRoutes_limited computed p want wanted (limited.trans (congrArg some empty))

/--
Between passes the server holds exactly the recorded paths, one for each prefix, whatever has failed.

After a pass in which nothing failed these are the desired routes, with their communities and limits, if no
limit of this pass or an earlier one names a neighbour with a comma in its text.
-/
theorem held_paths_follow_desired (shortSum : String → String) (cfg : Settings) (exports : Exports)
    (limits : Limits) (events : List Event) :
    let s := Run.run (Speaker.step shortSum cfg) (Speaker.start exports limits) events
    (s.gobgp.rib.paths.map fun path => path.pfx).Nodup ∧
      (∀ p a, s.held.advertised.get? p = some a ↔
        ∃ path ∈ s.gobgp.rib.paths, path.pfx = p ∧ a = ⟨path.id, path.route.sig⟩) ∧
      ∀ statuses orders fails desired, (∀ e ∈ events ++ [.resync statuses orders fails], e.CommaFree cfg) →
        cfg.desiredRoutes orders.addrs statuses = .ok desired →
        let s' := s.step shortSum cfg (.resync statuses orders fails)
        s'.held.withdrawErrors = s.held.withdrawErrors → s'.held.advertiseErrors = s.held.advertiseErrors →
        ∀ p route, desired.get? p = some route ↔ ∃ path ∈ s'.gobgp.rib.paths, path.pfx = p ∧ path.route = route := by
  intro s
  have recorded : Recorded s.held.advertised s.gobgp.rib :=
    (Speaker.tracks_run shortSum exports limits fun e _ => e.desires_true).recorded
  refine ⟨recorded.one, recorded.record, ?_⟩
  intro statuses orders fails desired free computed s' calm calm' p route
  -- Without commas the paths belong to plain routes, which their signatures tell apart.
  have tracks : s.Tracks Route.Plain := Speaker.tracks_run shortSum exports limits fun e member =>
    (free e (List.mem_append_left _ member)).desires
  have plain := (free _ (List.mem_append_right _ List.mem_cons_self)).desires desired computed
  obtain ⟨denyOK, passed⟩ := tracks.pass shortSum fails computed plain
  obtain ⟨_, settled⟩ := passed.settled calm calm'
  obtain ⟨held, wanted⟩ := settled p
  constructor
  · intro asked
    obtain ⟨a, found⟩ := Option.isSome_iff_exists.mp (wanted (by rw [asked]; rfl))
    obtain ⟨path, member, rfl, rfl⟩ := (passed.recorded.record p a).mp found
    obtain ⟨want, asked', same⟩ := held _ found
    cases asked.symm.trans asked'
    exact ⟨path, member, rfl, Route.sig_injective (passed.routes path member) (plain _ _ asked) same.symm⟩
  · rintro ⟨path, member, rfl, rfl⟩
    obtain ⟨want, asked, same⟩ := held _ ((passed.recorded.record path.pfx _).mpr ⟨path, member, rfl, rfl⟩)
    rw [asked, Route.sig_injective (plain _ _ asked) (passed.routes path member) same]

end Runs

/-- A map is walked through in the order it is written down. -/
def inOrder {α : Type} : Order α := ⟨id, fun _ => .refl _⟩

/-- So is every map of a pass. -/
def plainOrders : PassOrders := ⟨inOrder, inOrder, inOrder⟩

/-- A speaker's settings without neighbours. -/
def plainSettings : Settings := ⟨64512, "192.0.2.10", "", [], [], none, []⟩

/-- A healthy VIP whose route is limited to some neighbours. -/
def limitedVIP (peers : List String) : Status := ⟨"203.0.113.5", 80, [], peers, [⟨1, true⟩]⟩

/-- No call of the server fails. -/
def noFailures : Failures := fun _ _ => none

/-- A pass over this VIP alone. -/
def limitedPass (peers : List String) : Event := .resync [limitedVIP peers] plainOrders noFailures

/-- The speaker after passes over one VIP, one for each limit. -/
def afterPasses (limits : List (List String)) : Speaker :=
  Run.run (Speaker.step id plainSettings) (.start Gobgp.new.exports .new) (limits.map limitedPass)

/-- The route such a pass wants. -/
def limitedRoute : FMap Netip.Prefix Route :=
  FMap.empty.insert (Netip.hostPrefix (.v4 #v[203, 0, 113, 5])) ⟨[], some ["192.0.2.1"]⟩

/-- After a first pass the server holds the path of the VIP, with its limit. -/
theorem limited_path_is_held :
    ∃ path ∈ (afterPasses [["192.0.2.1"]]).gobgp.rib.paths,
      path.pfx = Netip.hostPrefix (.v4 #v[203, 0, 113, 5]) ∧ path.route = ⟨[], some ["192.0.2.1"]⟩ := by
  have computed : plainSettings.desiredRoutes inOrder [limitedVIP ["192.0.2.1"]] = .ok limitedRoute := by
    rfl
  have free : ∀ e ∈ [] ++ [limitedPass ["192.0.2.1"]], e.CommaFree plainSettings := by
    intro e only
    cases List.mem_singleton.mp only
    intro desired again p want wanted peers limited
    cases computed.symm.trans again
    have texts : ∀ entry ∈ limitedRoute.entries, ∀ l, entry.2.peers = some l → ∀ t ∈ l, ',' ∉ t.toList := by
      decide
    exact texts (p, want) (FMap.get?_eq_some.mp wanted) peers limited
  obtain ⟨-, -, follows⟩ := held_paths_follow_desired id plainSettings Gobgp.new.exports .new []
  exact (follows _ _ _ limitedRoute free computed (by decide +kernel) (by decide +kernel) _ _).mp (by decide +kernel)

/-- A limit to two neighbours has the signature of a limit to one whose zone has a comma in it. -/
theorem comma_hides_a_changed_limit :
    (afterPasses [["fe80::1%x,fe80::2"], ["fe80::1%x", "fe80::2"]]).gobgp.rib.paths.map
        (fun path => path.route.peers) = [some ["fe80::1%x,fe80::2"]] ∧
      (plainSettings.desiredRoutes inOrder [limitedVIP ["fe80::1%x", "fe80::2"]]).toOption.map
        (fun desired => desired.values.map Route.peers) = some [some ["fe80::1%x", "fe80::2"]] ∧
      (afterPasses [["fe80::1%x,fe80::2"], ["fe80::1%x", "fe80::2"]]).held.withdrawErrors = 0 ∧
      (afterPasses [["fe80::1%x,fe80::2"], ["fe80::1%x", "fe80::2"]]).held.advertiseErrors = 0 := by
  decide +kernel

end Rivora.Bgp

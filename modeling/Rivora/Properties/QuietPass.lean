import Rivora.Bgp.RouteOrder
import Rivora.Properties.RouteRecord
import Rivora.Proofs.Filed
import Rivora.Proofs.Rehearsal

/-! A pass over an unchanged node changes nothing. -/

namespace Rivora.Bgp

open Interaction

section Reports

theorem sorted_statuses (n : Node) (entries : List ServiceEntry) :
    (n.statuses entries).Pairwise fun st st' => ¬ st'.before st :=
  SortedBy.pairwise_insertionSort before_iff_sortKey _

theorem perm_statuses (n : Node) (entries : List ServiceEntry) :
    (n.statuses entries).Perm (entries.map n.status) := List.perm_insertionSort _ _

theorem zone_of_parseIP {s : String} {ip : IP} (parsed : parseIP s = some ip) {a : Netip.Addr}
    (read : Netip.parseAddr s = some a) : a.zone = "" := by
  unfold Netip.parseAddr at read
  unfold parseIP parseAddrBytes at parsed
  split at read
  · -- Four numbers with dots have no zone.
    obtain ⟨bytes, _, sized⟩ := Option.bind_eq_some_iff.mp read
    split at sized
    · cases sized
      rfl
    · cases sized
  · rename_i colon
    rw [colon] at parsed
    obtain ⟨bytes, six, _⟩ := Option.bind_eq_some_iff.mp parsed
    -- The data plane's reader refuses any percent sign.
    have free : '%' ∉ s.toList := by
      intro percent
      have refused : parseIPv6 s.toList = none := if_pos percent
      rw [refused] at six
      cases six
    have nothing : s.toList.dropWhile (· ≠ '%') = [] := by
      rw [← List.append_nil s.toList, List.dropWhile_append_of_pos, List.dropWhile_nil]
      exact fun c member => decide_eq_true fun same => free (same ▸ member)
    unfold Netip.parseZoned at read
    dsimp only at read
    split at read
    · cases read
    · obtain ⟨bytes, _, sized⟩ := Option.bind_eq_some_iff.mp read
      split at sized
      · cases sized
        rw [nothing]
        rfl
      · cases sized
  · cases read

end Reports

section Quiet

variable {shortSum : String → String} {cfg : Settings} {desired : FMap Netip.Prefix Route} {h : Held}

/-- The record is what is desired. -/
structure Held.Settled (h : Held) (desired : FMap Netip.Prefix Route) : Prop where
  held : ∀ p a, h.advertised.get? p = some a → ∃ want, desired.get? p = some want ∧ want.sig = a.sig
  wanted : ∀ p, (desired.get? p).isSome → (h.advertised.get? p).isSome

theorem foldlM_idle {α β : Type} {f : β → α → Prog β} {b : β} {items : List α}
    (idle : ∀ x ∈ items, f b x = pure b) : items.foldlM f b = pure b := by
  induction items with
  | nil => rfl
  | cons x rest ih =>
    rw [List.foldlM_cons, idle x List.mem_cons_self]
    exact ih fun y member => idle y (List.mem_cons_of_mem _ member)

theorem withdrawStale_idle (settled : h.Settled desired) (p : Netip.Prefix) :
    withdrawStale desired h p = pure h := by
  unfold withdrawStale
  split
  · rfl
  · rename_i cur found
    obtain ⟨want, asked, same⟩ := settled.held p cur found
    rw [asked, Option.any_some, decide_eq_true same, if_pos rfl]

theorem advertiseMissing_idle (settled : h.Settled desired) (denyOK : Bool) (p : Netip.Prefix) :
    advertiseMissing cfg desired denyOK h p = pure h := by
  unfold advertiseMissing
  split
  · rename_i want missing asked
    have held := settled.wanted p (by rw [asked]; rfl)
    rw [FMap.contains, held] at missing
    cases missing
  · rfl

theorem syncRoutes_idle (settled : h.Settled desired) (order : Order Netip.Prefix) (denyOK : Bool) :
    syncRoutes cfg order desired denyOK h =
      pure (if denyOK then h else { h with advertiseErrors := h.advertiseErrors + 1 }) := by
  unfold syncRoutes
  dsimp only
  have counted : (if denyOK then h else { h with advertiseErrors := h.advertiseErrors + 1 }).Settled desired := by
    cases denyOK with
    | true => exact settled
    | false => exact ⟨settled.held, settled.wanted⟩
  generalize (if denyOK then h else { h with advertiseErrors := h.advertiseErrors + 1 }) = h' at counted ⊢
  rw [foldlM_idle fun p _ => withdrawStale_idle counted p]
  exact foldlM_idle fun p _ => advertiseMissing_idle counted denyOK p

theorem resync_idle (settled : h.Settled desired) (orders : PassOrders) (l : Limits) (r : Rib) :
    (resync shortSum cfg orders desired l h).Meets ribSpec (fun result r' => r' = r ∧
      (result.2 = h ∨ result.2.advertiseErrors = h.advertiseErrors + 1)) r := by
  refine Prog.Meets.bind ((keeps_rib (syncDenySets_calls orders.peers desired l) r).mono ?_)
  rintro ⟨result, l'⟩ _ rfl
  dsimp only
  rw [syncRoutes_idle settled]
  cases result.isOk with
  | true => exact ⟨rfl, Or.inl rfl⟩
  | false => exact ⟨rfl, Or.inr rfl⟩

theorem Held.Settled.step (shortSum : String → String) {s : Speaker} (settled : s.held.Settled desired)
    {statuses : List Status} {orders : PassOrders} (fails : Failures)
    (computed : cfg.desiredRoutes orders.addrs statuses = .ok desired) :
    (s.step shortSum cfg (.resync statuses orders fails)).gobgp.rib = s.gobgp.rib ∧
      ((s.step shortSum cfg (.resync statuses orders fails)).held = s.held ∨
        (s.step shortSum cfg (.resync statuses orders fails)).held.advertiseErrors =
          s.held.advertiseErrors + 1) := by
  have idle := @resync_idle shortSum cfg desired s.held settled orders s.limits s.gobgp.rib
  have ends := idle.run_view (fun t : Gobgp × Nat => t.1.rib) (t := (s.gobgp, 0)) fun t c _ => fails.obeys_rib t c
  simp only [Speaker.step, computed]
  exact ends

end Quiet

theorem fileable_address : Fileable fun _ _ v => v = default ∨ (parseIP v.address).isSome where
  unset := fun _ => Or.inl rfl
  own := fun parsed _ => Or.inr (Option.isSome_of_eq_some parsed)

theorem zone_of_status (config : NodeConfig) (maps : StartMaps) (events : List Rivora.Event) {e : ServiceEntry}
    (member : e ∈ ((Node.start config maps).run events).plane.services.values) {a : Netip.Addr}
    (read : Netip.parseAddr e.vip.address = some a) : a.zone = "" := by
  obtain ⟨⟨key, _⟩, entry, rfl⟩ := List.mem_map.mp member
  rcases (Node.holdsVIPs_run fileable_address config maps events).2 key _ (FMap.get?_eq_some.mpr entry) with
    unset | programmed
  · have empty : Netip.parseAddr (default : VIP).address = none := by decide
    dsimp only at unset read
    rw [unset, empty] at read
    cases read
  · obtain ⟨ip, parsed⟩ := Option.isSome_iff_exists.mp programmed
    exact zone_of_parseIP parsed read

/--
The second of two passes over an unchanged node withdraws nothing and advertises nothing.

For this, VIPs that share an address and a port must agree on their communities, or all but one have none.
-/
theorem second_pass_is_quiet (shortSum : String → String) (cfg : Settings) (exports : Exports) (limits : Limits)
    (events : List Event) (config : NodeConfig) (maps : StartMaps) (programming : List Rivora.Event)
    (entries entries' : List ServiceEntry) (orders orders' : PassOrders) (fails fails' : Failures) :
    let n := (Node.start config maps).run programming
    let s := Run.run (Speaker.step shortSum cfg) (Speaker.start exports limits) events
    let s' := s.step shortSum cfg (.resync (n.statuses entries) orders fails)
    let s'' := s'.step shortSum cfg (.resync (n.statuses entries') orders' fails')
    entries.Perm n.plane.services.values → entries'.Perm n.plane.services.values →
    TiesAgree (n.plane.services.values.map n.status) →
    (∃ desired, cfg.desiredRoutes orders.addrs (n.statuses entries) = .ok desired) →
    s'.held.withdrawErrors = s.held.withdrawErrors → s'.held.advertiseErrors = s.held.advertiseErrors →
    s''.held.advertiseErrors = s'.held.advertiseErrors →
    s''.gobgp.rib = s'.gobgp.rib ∧ s''.held = s'.held := by
  intro n s s' s'' perm perm' agree ⟨desired, computed⟩ calm calm' calm''
  -- After the first pass the record is what was desired then.
  have tracks : s.Tracks fun _ => True := Speaker.tracks_run shortSum exports limits fun e _ => e.desires_true
  obtain ⟨denyOK, passed⟩ := tracks.pass shortSum fails computed fun _ _ _ => trivial
  have settled : s'.held.Settled desired :=
    ⟨fun p => ((passed.settled calm calm').2 p).1, fun p => ((passed.settled calm calm').2 p).2⟩
  cases computed' : cfg.desiredRoutes orders'.addrs (n.statuses entries') with
  | error e =>
    have same : s'' = s' := by
      change s'.step shortSum cfg _ = s'
      simp only [Speaker.step, computed']
    rw [same]
    exact ⟨rfl, rfl⟩
  | ok desired' =>
    -- What is desired in the second pass is the same.
    have reports := (perm_statuses n entries).trans (perm.map n.status)
    have reports' := (perm_statuses n entries').trans (perm'.map n.status)
    have ties : TiesAgree (n.statuses entries) := fun st mine st' mine' =>
      agree st (reports.mem_iff.mp mine) st' (reports.mem_iff.mp mine')
    have zoneless : ∀ st ∈ n.statuses entries, ∀ a, Netip.parseAddr st.vipAddress = some a → a.zone = "" := by
      intro st mine a read
      obtain ⟨e, member, rfl⟩ := List.mem_map.mp (reports.mem_iff.mp mine)
      exact zone_of_status config maps programming member read
    have same := desiredRoutes_eq_of_sorted (sorted_statuses n entries) (sorted_statuses n entries')
      (reports.trans reports'.symm) ties zoneless computed computed'
    have settled' : s'.held.Settled desired' :=
      ⟨fun p a found => same p ▸ settled.held p a found, fun p asked => settled.wanted p (same p ▸ asked)⟩
    obtain ⟨rib, same | grown⟩ := settled'.step shortSum fails' computed'
    · exact ⟨rib, same⟩
    · -- The rules could not be updated, so the pass was not free of errors.
      exact absurd (calm''.symm.trans grown) (Nat.ne_of_lt (Nat.lt_succ_self _))

section Rehearsed

/-- The report about a VIP as the control state has it. -/
def plannedStatus (p : Dataplane) (entry : ServiceEntry) : Status where
  vipAddress := entry.vip.address
  vipPort := entry.vip.port
  bgpCommunities := entry.vip.bgpCommunities.getD []
  bgpPeers := entry.vip.bgpPeers.getD []
  backends := (entry.backendIDs.values.map fun id =>
      ⟨id, id < maxBackends ∧ (p.backendStates.get? id).map BackendState.health = some .healthy⟩).insertionSort
    fun a b => ¬ b.id < a.id

theorem status_eq_planned {n : Node} (image : BackendImage n.plane n.maps) (entry : ServiceEntry) :
    n.status entry = plannedStatus n.plane entry := by
  have backends : ∀ id, (⟨id, n.maps.backendHealth? id = some .healthy⟩ : BackendStatus) =
      ⟨id, id < maxBackends ∧ (n.plane.backendStates.get? id).map BackendState.health = some .healthy⟩ := by
    intro id
    unfold Maps.backendHealth?
    rw [image.health]
    by_cases small : id < maxBackends
    · cases found : n.plane.backendStates.get? id with
      | none => simp [small]
      | some st => simp [small]
    · simp [small]
  unfold Node.status plannedStatus
  simp only [backends]

/-- VIPs programmed one after the other on a new node, with nothing failing. -/
def plainRun (vips : List VIP) : Node := (Node.start plainNode plainMaps).run (calmly (vips.map .upsertVIP))

theorem reports_of_rehearsal {vips : List VIP} {reports : List Status}
    (planned : (rehearse (.new plainNode) (vips.map .upsertVIP)).map
      (fun q => q.services.values.map (plannedStatus q)) = some reports) :
    (plainRun vips).plane.services.values.map (plainRun vips).status = reports := by
  obtain ⟨q, planes, rfl⟩ := Option.map_eq_some_iff.mp planned
  obtain ⟨_, sound, plane⟩ := rehearse_run (Node.sound_start plainNode plainMaps) planes
  have image : BackendImage (plainRun vips).plane (plainRun vips).maps := sound.imaged.backends
  rw [List.map_congr_left fun entry _ => status_eq_planned image entry]
  change (plainRun vips).plane = q at plane
  rw [plane]

theorem exists_ok_of_isOk {ε α : Type} {e : Except ε α} (ok : e.isOk = true) : ∃ a, e = .ok a := by
  cases e with
  | error _ => cases ok
  | ok a => exact ⟨a, rfl⟩

/-- A VIP with communities. -/
def taggedVIP (protocol : Protocol) (communities : List String) : VIP :=
  { plainVIP "203.0.113.5" ["10.0.0.1"] with protocol := protocol, bgpCommunities := some communities }

/-- The report of a healthy VIP with communities. -/
def taggedStatus (communities : List String) : Status := ⟨"203.0.113.5", 80, communities, [], [⟨0, true⟩]⟩

/-- A pass in which nothing fails. -/
def plainPass (statuses : List Status) : Event := .resync statuses plainOrders noFailures

/-- A speaker that has announced nothing. -/
def plainSpeaker : Speaker := .start Gobgp.new.exports .new

/-- A speaker after a pass over the reports of a node, taken in some order. -/
def Speaker.passOver (s : Speaker) (n : Node) (entries : List ServiceEntry) : Speaker :=
  s.step id plainSettings (plainPass (n.statuses entries))

end Rehearsed

/-- Two VIPs of one port that agree on their communities keep their path. -/
theorem agreeing_vips_keep_their_path :
    let n := plainRun [taggedVIP .tcp ["65000:1"], taggedVIP .udp ["65000:1"]]
    let first := plainSpeaker.passOver n n.plane.services.values
    first.gobgp.rib.paths.map Path.id = [1] ∧
      (first.passOver n n.plane.services.values.reverse).gobgp.rib = first.gobgp.rib := by
  have reports : (plainRun [taggedVIP .tcp ["65000:1"], taggedVIP .udp ["65000:1"]]).plane.services.values.map
      (plainRun [taggedVIP .tcp ["65000:1"], taggedVIP .udp ["65000:1"]]).status =
        [taggedStatus ["65000:1"], taggedStatus ["65000:1"]] := reports_of_rehearsal (by decide +kernel)
  have quiet := second_pass_is_quiet id plainSettings Gobgp.new.exports .new [] plainNode plainMaps
    (calmly ([taggedVIP .tcp ["65000:1"], taggedVIP .udp ["65000:1"]].map .upsertVIP))
  -- From here on only the reports of the node matter.
  unfold plainRun at reports ⊢
  generalize (Node.start plainNode plainMaps).run _ = n at quiet reports ⊢
  dsimp only
  have statuses : n.statuses n.plane.services.values = [taggedStatus ["65000:1"], taggedStatus ["65000:1"]] := by
    rw [Node.statuses, reports]
    decide
  have backwards : n.statuses n.plane.services.values.reverse =
      [taggedStatus ["65000:1"], taggedStatus ["65000:1"]] := by
    rw [Node.statuses, List.map_reverse, reports]
    decide
  have agree : TiesAgree (n.plane.services.values.map n.status) := by
    rw [reports]
    unfold TiesAgree
    decide
  have again := quiet n.plane.services.values n.plane.services.values.reverse plainOrders plainOrders noFailures
    noFailures (List.Perm.refl _) (List.reverse_perm _) agree
  simp only [Run.run_nil, statuses, backwards] at again
  simp only [Speaker.passOver, statuses, backwards, plainPass, plainSpeaker]
  have computed := exists_ok_of_isOk (e := plainSettings.desiredRoutes plainOrders.addrs
    [taggedStatus ["65000:1"], taggedStatus ["65000:1"]]) (by decide +kernel)
  exact ⟨by decide +kernel, (again computed (by decide +kernel) (by decide +kernel) (by decide +kernel)).1⟩

/-- Two VIPs of one port that differ in their communities have their path replaced when the order changes. -/
theorem differing_vips_lose_their_path :
    let n := plainRun [taggedVIP .tcp ["65000:1"], taggedVIP .udp ["65000:2"]]
    let first := plainSpeaker.passOver n n.plane.services.values
    let second := first.passOver n n.plane.services.values.reverse
    first.gobgp.rib.paths.map Path.id = [1] ∧ second.gobgp.rib.paths.map Path.id = [2] ∧
      second.held.withdrawErrors = 0 ∧ second.held.advertiseErrors = 0 := by
  intro n first second
  have reports : n.plane.services.values.map n.status = [taggedStatus ["65000:2"], taggedStatus ["65000:1"]] :=
    reports_of_rehearsal (by decide +kernel)
  have statuses : n.statuses n.plane.services.values = [taggedStatus ["65000:2"], taggedStatus ["65000:1"]] := by
    rw [Node.statuses, reports]
    decide
  have backwards : n.statuses n.plane.services.values.reverse =
      [taggedStatus ["65000:1"], taggedStatus ["65000:2"]] := by
    rw [Node.statuses, List.map_reverse, reports]
    decide
  simp only [first, second, Speaker.passOver, statuses, backwards]
  decide +kernel

end Rivora.Bgp

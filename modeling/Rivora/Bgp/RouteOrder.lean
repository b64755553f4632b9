import Mathlib.Data.List.Induction
import Rivora.Bgp.RouteLaws
import Rivora.Lib.SortedBy

/-! How far the desired routes depend on the order of what they are computed from. -/

namespace Rivora.Bgp

section Scopes

/-- The neighbours several VIPs name. -/
def scopeOf (lists : List (List String)) : PeerScope := lists.foldl PeerScope.add .none

theorem scopeOf_concat (lists : List (List String)) (peers : List String) :
    scopeOf (lists ++ [peers]) = (scopeOf lists).add peers := by
  unfold scopeOf
  rw [List.foldl_append, List.foldl_cons, List.foldl_nil]

theorem mem_foldl_insert {peers named : List String} {t : String} :
    t ∈ peers.foldl (fun named p => named.insert (normAddr p)) named ↔
      t ∈ named ∨ ∃ p ∈ peers, normAddr p = t := by
  induction peers generalizing named with
  | nil => simp
  | cons p rest ih =>
    rw [List.foldl_cons, ih, List.mem_insert_iff]
    constructor
    · rintro ((rfl | old) | ⟨q, member, rfl⟩)
      · exact Or.inr ⟨p, List.mem_cons_self, rfl⟩
      · exact Or.inl old
      · exact Or.inr ⟨q, List.mem_cons_of_mem _ member, rfl⟩
    · rintro (old | ⟨q, member, rfl⟩)
      · exact Or.inl (Or.inr old)
      · rcases List.mem_cons.mp member with rfl | later
        · exact Or.inl (Or.inl rfl)
        · exact Or.inr ⟨q, later, rfl⟩

theorem nodup_foldl_insert {peers named : List String} (distinct : named.Nodup) :
    (peers.foldl (fun named p => named.insert (normAddr p)) named).Nodup := by
  induction peers generalizing named with
  | nil => exact distinct
  | cons p rest ih => exact ih distinct.insert

/-- A route goes to all neighbours if some VIP asks for no limit. -/
theorem scopeOf_all (lists : List (List String)) : (scopeOf lists).all = true ↔ [] ∈ lists := by
  induction lists using List.reverseRecOn with
  | nil => exact ⟨nofun, nofun⟩
  | append_singleton lists peers ih =>
    rw [scopeOf_concat, PeerScope.add, List.mem_append, List.mem_singleton]
    split
    · rename_i empty
      exact ⟨fun _ => Or.inr empty.symm, fun _ => rfl⟩
    · rename_i named
      rw [ih]
      exact ⟨Or.inl, fun either => either.elim id fun empty => absurd empty.symm named⟩

/-- The neighbours named are those some VIP names. -/
theorem mem_scopeOf_named {lists : List (List String)} {t : String} :
    t ∈ (scopeOf lists).named ↔ ∃ peers ∈ lists, ∃ p ∈ peers, normAddr p = t := by
  induction lists using List.reverseRecOn with
  | nil => exact ⟨fun member => (nomatch member), fun ⟨_, member, _⟩ => (nomatch member)⟩
  | append_singleton lists peers ih =>
    have grown : t ∈ (scopeOf (lists ++ [peers])).named ↔
        t ∈ (scopeOf lists).named ∨ ∃ p ∈ peers, normAddr p = t := by
      rw [scopeOf_concat, PeerScope.add]
      split
      · rename_i empty
        subst empty
        exact ⟨Or.inl, fun either => either.elim id fun ⟨_, member, _⟩ => (nomatch member)⟩
      · exact mem_foldl_insert
    rw [grown, ih]
    constructor
    · rintro (⟨old, member, names⟩ | names)
      · exact ⟨old, List.mem_append_left _ member, names⟩
      · exact ⟨peers, List.mem_append_right _ List.mem_cons_self, names⟩
    · rintro ⟨list, member, names⟩
      rcases List.mem_append.mp member with old | new
      · exact Or.inl ⟨list, old, names⟩
      · cases List.mem_singleton.mp new
        exact Or.inr names

theorem scopeOf_named_nodup (lists : List (List String)) : (scopeOf lists).named.Nodup := by
  induction lists using List.reverseRecOn with
  | nil => exact List.nodup_nil
  | append_singleton lists peers ih =>
    rw [scopeOf_concat, PeerScope.add]
    split
    · exact ih
    · exact nodup_foldl_insert ih

/-- The order of the VIPs does not matter to the limit. -/
theorem scopeOf_list_perm {lists lists' : List (List String)} (perm : lists.Perm lists') :
    (scopeOf lists).list = (scopeOf lists').list := by
  have all : (scopeOf lists).all = (scopeOf lists').all := by
    rw [Bool.eq_iff_iff, scopeOf_all, scopeOf_all]
    exact perm.mem_iff
  have named : (scopeOf lists).named.Perm (scopeOf lists').named := by
    refine (List.perm_ext_iff_of_nodup (scopeOf_named_nodup _) (scopeOf_named_nodup _)).mpr fun t => ?_
    rw [mem_scopeOf_named, mem_scopeOf_named]
    exact ⟨fun ⟨l, member, names⟩ => ⟨l, perm.mem_iff.mp member, names⟩,
      fun ⟨l, member, names⟩ => ⟨l, perm.mem_iff.mpr member, names⟩⟩
  -- Sorting forgets the order in which they were named.
  have sorted : (scopeOf lists).named.insertionSort (· ≤ ·) = (scopeOf lists').named.insertionSort (· ≤ ·) := by
    refine List.Perm.eq_of_pairwise' (r := (· ≤ ·)) (List.pairwise_insertionSort _ _)
      (List.pairwise_insertionSort _ _) ?_
    exact (List.perm_insertionSort _ _).trans (named.trans (List.perm_insertionSort _ _).symm)
  have none : (scopeOf lists).named = [] ↔ (scopeOf lists').named = [] := by
    rw [← List.length_eq_zero_iff, ← List.length_eq_zero_iff, named.length_eq]
  unfold PeerScope.list
  simp only [all, none, sorted]

end Scopes

section Asking

/-- Whether a report is about a healthy VIP of an address. -/
def speaksFor (a : Netip.Addr) (st : Status) : Bool :=
  anyHealthy st.backends && Netip.parseAddr st.vipAddress = some a

/-- What some VIPs ask for together. -/
def askedBy (reports : List Status) : Asked :=
  ⟨reports.flatMap Status.bgpCommunities, scopeOf (reports.map Status.bgpPeers)⟩

theorem askedBy_concat (reports : List Status) (st : Status) :
    askedBy (reports ++ [st]) =
      ⟨(askedBy reports).communities ++ st.bgpCommunities, (askedBy reports).peers.add st.bgpPeers⟩ := by
  unfold askedBy
  rw [List.map_append, List.map_singleton, scopeOf_concat, List.flatMap_append, List.flatMap_singleton]

/-- What is asked for an address comes from the reports about it. -/
theorem get?_noteStatus (statuses : List Status) (a : Netip.Addr) :
    (statuses.foldl noteStatus .empty).get? a =
      if statuses.filter (speaksFor a) = [] then none else some (askedBy (statuses.filter (speaksFor a))) := by
  induction statuses using List.reverseRecOn with
  | nil => rfl
  | append_singleton statuses st ih =>
    rw [List.foldl_append, List.foldl_cons, List.foldl_nil, List.filter_append]
    generalize statuses.foldl noteStatus .empty = vips at ih ⊢
    generalize statuses.filter (speaksFor a) = reports at ih ⊢
    have asked : (vips.get? a).getD ⟨[], .none⟩ = askedBy reports := by
      rw [ih]
      split
      · rename_i empty
        subst empty
        rfl
      · rfl
    cases speaks : speaksFor a st with
    | true =>
      -- One more report about the address.
      obtain ⟨healthy, parsed⟩ := Bool.and_eq_true_iff.mp speaks
      have parsed := of_decide_eq_true parsed
      rw [List.filter_cons_of_pos speaks, List.filter_nil, if_neg (by simp), askedBy_concat, noteStatus, healthy,
        parsed]
      simp only [Bool.not_true, Bool.false_eq_true, if_false, FMap.get?_insert_self, asked]
    | false =>
      rw [List.filter_cons_of_neg (by simp [speaks]), List.filter_nil, List.append_nil, ← ih]
      unfold noteStatus
      split
      · rfl
      · rename_i healthy
        split
        · rfl
        · -- It is about another address.
          rename_i b parsed
          refine FMap.get?_insert_of_ne _ _ fun same => ?_
          subst same
          rw [speaksFor, parsed, decide_eq_true rfl, Bool.and_true] at speaks
          rw [speaks] at healthy
          exact healthy rfl

theorem mem_keys_noteStatus {statuses : List Status} {a : Netip.Addr} :
    a ∈ (statuses.foldl noteStatus .empty).keys ↔ ∃ st ∈ statuses, speaksFor a st = true := by
  rw [FMap.mem_keys, get?_noteStatus]
  constructor
  · rintro ⟨asked, found⟩
    split at found
    · cases found
    · rename_i some_
      obtain ⟨st, member⟩ := List.exists_mem_of_ne_nil _ some_
      exact ⟨st, List.mem_filter.mp member⟩
  · rintro ⟨st, member, speaks⟩
    rw [if_neg (List.ne_nil_of_mem (List.mem_filter.mpr ⟨member, speaks⟩))]
    exact ⟨_, rfl⟩

/-- Two tables that ask for the same routes. -/
def SameAsked (vips vips' : FMap Netip.Addr Asked) : Prop :=
  ∀ a, (vips.get? a).map (fun asked => (asked.communities, asked.peers.list)) =
    (vips'.get? a).map fun asked => (asked.communities, asked.peers.list)

/-- Reports that can only differ in their order say the same about communities. -/
def TiesAgree (statuses : List Status) : Prop :=
  ∀ st ∈ statuses, ∀ st' ∈ statuses, st.vipAddress = st'.vipAddress → st.vipPort = st'.vipPort →
    anyHealthy st.backends = true → anyHealthy st'.backends = true →
    st.bgpCommunities ≠ [] → st'.bgpCommunities ≠ [] → st.bgpCommunities = st'.bgpCommunities

/-- What reports are sorted by. -/
def sortKey (st : Status) : Lex (String × Nat) := toLex (st.vipAddress, st.vipPort.toNat)

/-- The reports are sorted by a key. -/
theorem before_iff_sortKey (st st' : Status) : st.before st' ↔ sortKey st < sortKey st' := by
  rw [sortKey, sortKey, Prod.Lex.toLex_lt_toLex]
  exact Iff.rfl

/-- Sorted reports give the same communities in the same order. -/
theorem flatMap_communities_eq {reports reports' : List Status}
    (sorted : reports.Pairwise fun st st' => ¬ st'.before st)
    (sorted' : reports'.Pairwise fun st st' => ¬ st'.before st) (perm : reports.Perm reports')
    (healthy : ∀ st ∈ reports, anyHealthy st.backends = true) (agree : TiesAgree reports) :
    reports.flatMap Status.bgpCommunities = reports'.flatMap Status.bgpCommunities := by
  -- Reports without communities add nothing, and the others agree where they tie.
  let speaking (l : List Status) : List Status := l.filter fun st => st.bgpCommunities ≠ []
  have silent : ∀ l : List Status,
      l.flatMap Status.bgpCommunities = ((speaking l).map Status.bgpCommunities).flatten := by
    intro l
    induction l with
    | nil => rfl
    | cons st rest ih =>
      rw [List.flatMap_cons, ih]
      by_cases empty : st.bgpCommunities = []
      · have skipped : speaking (st :: rest) = speaking rest := List.filter_cons_of_neg (by simpa using empty)
        rw [skipped, empty, List.nil_append]
      · have kept : speaking (st :: rest) = st :: speaking rest := List.filter_cons_of_pos (by simpa using empty)
        rw [kept, List.map_cons, List.flatten_cons]
  rw [silent reports, silent reports']
  refine congrArg List.flatten ?_
  refine SortedBy.map_eq before_iff_sortKey (sorted.filter _) (sorted'.filter _) (perm.filter _) ?_
  intro st kept st' kept' keys
  obtain ⟨mine, speaks⟩ := List.mem_filter.mp kept
  obtain ⟨mine', speaks'⟩ := List.mem_filter.mp kept'
  obtain ⟨address, port⟩ := Prod.ext_iff.mp (toLex.injective keys)
  exact agree st mine st' mine' address (UInt16.toNat_inj.mp port) (healthy st mine) (healthy st' mine')
    (of_decide_eq_true speaks) (of_decide_eq_true speaks')

/-- Two sorted orders of the reports ask for the same. -/
theorem sameAsked_of_sorted {statuses statuses' : List Status}
    (sorted : statuses.Pairwise fun st st' => ¬ st'.before st)
    (sorted' : statuses'.Pairwise fun st st' => ¬ st'.before st) (perm : statuses.Perm statuses')
    (agree : TiesAgree statuses) :
    SameAsked (statuses.foldl noteStatus .empty) (statuses'.foldl noteStatus .empty) := by
  intro a
  rw [get?_noteStatus, get?_noteStatus]
  have same := perm.filter (speaksFor a)
  have empty : statuses.filter (speaksFor a) = [] ↔ statuses'.filter (speaksFor a) = [] := by
    rw [← List.length_eq_zero_iff, ← List.length_eq_zero_iff, same.length_eq]
  by_cases none : statuses.filter (speaksFor a) = []
  · rw [if_pos none, if_pos (empty.mp none)]
  · rw [if_neg none, if_neg (mt empty.mpr none)]
    have communities := flatMap_communities_eq (sorted.filter (speaksFor a)) (sorted'.filter (speaksFor a)) same
      (fun st member => (Bool.and_eq_true_iff.mp (List.mem_filter.mp member).2).1)
      fun st member st' member' => agree st (List.mem_filter.mp member).1 st' (List.mem_filter.mp member').1
    have peers := scopeOf_list_perm (same.map Status.bgpPeers)
    exact congrArg some (Prod.ext communities peers)

end Asking

section Desired

variable {global : List UInt32} {vips vips' : FMap Netip.Addr Asked}

theorem SameAsked.keys (same : SameAsked vips vips') (a : Netip.Addr) : a ∈ vips.keys ↔ a ∈ vips'.keys := by
  have views := congrArg Option.isSome (same a)
  rw [Option.isSome_map, Option.isSome_map] at views
  rw [FMap.mem_keys, FMap.mem_keys, ← Option.isSome_iff_exists, ← Option.isSome_iff_exists, views]

theorem SameAsked.asked (same : SameAsked vips vips') (a : Netip.Addr) :
    (askedOf vips a).communities = (askedOf vips' a).communities ∧
      (askedOf vips a).peers.list = (askedOf vips' a).peers.list := by
  have views := same a
  unfold askedOf
  cases found : vips.get? a with
  | none =>
    rw [found] at views
    rw [Option.map_eq_none_iff.mp views.symm]
    exact ⟨rfl, rfl⟩
  | some asked =>
    rw [found] at views
    obtain ⟨asked', found', equal⟩ := Option.map_eq_some_iff.mp views.symm
    rw [found']
    exact ⟨(congrArg Prod.fst equal).symm, (congrArg Prod.snd equal).symm⟩

/-- Aggregates gathered from two tables. -/
structure Gathered.Same (g g' : Gathered) : Prop where
  desired : g.desired = g'.desired
  suppressed : ∀ a, a ∈ g.suppressed ↔ a ∈ g'.suppressed

/-- An aggregate gathers the same from both. -/
theorem Gathered.Same.aggregate (same : SameAsked vips vips') {g g' h h' : Gathered} {a : Aggregate}
    (before : g.Same g') (taken : g.aggregate global vips a = .ok h)
    (taken' : g'.aggregate global vips' a = .ok h') : h.Same h' := by
  obtain ⟨p, parsed, result⟩ := Gathered.aggregate_ok taken
  obtain ⟨p', parsed', result'⟩ := Gathered.aggregate_ok taken'
  cases parsed.symm.trans parsed'
  have members : ∀ x, x ∈ coveredBy vips p ↔ x ∈ coveredBy vips' p := by
    intro x
    rw [coveredBy, coveredBy, List.mem_filter, List.mem_filter, same.keys]
  have covers : coveredBy vips p = [] ↔ coveredBy vips' p = [] := by
    rw [List.eq_nil_iff_forall_not_mem, List.eq_nil_iff_forall_not_mem]
    exact forall_congr' fun x => not_congr (members x)
  rcases result with ⟨nothing, rfl⟩ | ⟨something, specific, communities, rfl⟩
  · rcases result' with ⟨_, rfl⟩ | ⟨something', _⟩
    · exact before
    · exact absurd (covers.mp nothing) something'
  · rcases result' with ⟨nothing', _⟩ | ⟨_, specific', communities', rfl⟩
    · exact absurd (covers.mpr nothing') something
    · cases communities.symm.trans communities'
      refine ⟨by rw [before.desired], fun x => ?_⟩
      dsimp only
      split
      · rw [List.mem_append, List.mem_append, members, before.suppressed]
      · exact before.suppressed x

variable {suppressed suppressed' : List Netip.Addr} {table table' : FMap Netip.Prefix Route}

/-- The route of an address that gets one. -/
def RouteFor (global : List UInt32) (vips : FMap Netip.Addr Asked) (addr : Netip.Addr) (r : Route) : Prop :=
  ∃ specific, parseCommunities (askedOf vips addr).communities = .ok specific ∧
    r = ⟨mergeCommunities [global, specific], (askedOf vips addr).peers.list⟩

theorem hostRoutes_get? {addrs : List Netip.Addr}
    (apart : addrs.Pairwise fun a b => Netip.hostPrefix a ≠ Netip.hostPrefix b)
    (folded : addrs.foldlM (hostRoute global vips suppressed) table = .ok table') :
    (∀ a ∈ addrs, a ∉ suppressed → ∃ r, table'.get? (Netip.hostPrefix a) = some r ∧ RouteFor global vips a r) ∧
      ∀ q, (∀ a ∈ addrs, a ∉ suppressed → Netip.hostPrefix a ≠ q) → table'.get? q = table.get? q := by
  induction addrs generalizing table with
  | nil =>
    cases folded
    exact ⟨fun _ member => (nomatch member), fun _ _ => rfl⟩
  | cons addr rest ih =>
    rw [List.foldlM_cons] at folded
    cases first : hostRoute global vips suppressed table addr with
    | error e => rw [first] at folded; cases folded
    | ok next =>
      rw [first] at folded
      obtain ⟨others, later⟩ := List.pairwise_cons.mp apart
      obtain ⟨added, rest_⟩ := ih later folded
      rcases hostRoute_ok.mp first with ⟨quiet, rfl⟩ | ⟨loud, specific, communities, rfl⟩
      · refine ⟨fun a member here => ?_, fun q outside => ?_⟩
        · rcases List.mem_cons.mp member with rfl | behind
          · exact absurd quiet here
          · exact added a behind here
        · exact rest_ q fun a behind => outside a (List.mem_cons_of_mem _ behind)
      · refine ⟨fun a member here => ?_, fun q outside => ?_⟩
        · rcases List.mem_cons.mp member with rfl | behind
          · -- Nothing behind it has the same block.
            rw [rest_ _ fun b behind _ same => others b behind same.symm, FMap.get?_insert_self]
            exact ⟨_, rfl, specific, communities, rfl⟩
          · exact added a behind here
        · rw [rest_ q fun a behind => outside a (List.mem_cons_of_mem _ behind)]
          exact FMap.get?_insert_of_ne _ _ (outside addr List.mem_cons_self loud).symm

theorem hostPrefix_injective {a b : Netip.Addr} (plain : a.zone = "") (plain' : b.zone = "")
    (same : Netip.hostPrefix a = Netip.hostPrefix b) : a = b := by
  have addrs : a.withoutZone = b.withoutZone := congrArg Netip.Prefix.addr same
  have own : ∀ {c : Netip.Addr}, c.zone = "" → c.withoutZone = c := by
    intro c plain
    cases c with
    | v4 bytes => rfl
    | v6 bytes zone => cases plain; rfl
  rwa [own plain, own plain'] at addrs

/-- The same requests give the same routes. -/
theorem desired_eq_of_sameAsked (same : SameAsked vips vips') (plain : ∀ a ∈ vips.keys, a.zone = "")
    {g g' : Gathered} (gathered : g.Same g') {addrs addrs' : List Netip.Addr} (perm : addrs.Perm vips.keys)
    (perm' : addrs'.Perm vips'.keys)
    (folded : addrs.foldlM (hostRoute global vips g.suppressed) g.desired = .ok table)
    (folded' : addrs'.foldlM (hostRoute global vips' g'.suppressed) g'.desired = .ok table') (q : Netip.Prefix) :
    table.get? q = table'.get? q := by
  have members : ∀ a, a ∈ addrs ↔ a ∈ addrs' := fun a => by
    rw [perm.mem_iff, perm'.mem_iff, same.keys]
  have apart : ∀ {l : List Netip.Addr}, l.Nodup → (∀ a ∈ l, a.zone = "") →
      l.Pairwise fun a b => Netip.hostPrefix a ≠ Netip.hostPrefix b := by
    intro l distinct plain
    refine List.Pairwise.imp_of_mem ?_ distinct
    intro a b member member' differ equal
    exact differ (hostPrefix_injective (plain a member) (plain b member') equal)
  have zoneless : ∀ a ∈ addrs, a.zone = "" := fun a member => plain a (perm.mem_iff.mp member)
  have zoneless' : ∀ a ∈ addrs', a.zone = "" := fun a member => zoneless a ((members a).mpr member)
  obtain ⟨added, others⟩ := hostRoutes_get? (apart (perm.nodup_iff.mpr vips.keys_nodup) zoneless) folded
  obtain ⟨added', others'⟩ := hostRoutes_get? (apart (perm'.nodup_iff.mpr vips'.keys_nodup) zoneless') folded'
  by_cases mine : ∃ a ∈ addrs, a ∉ g.suppressed ∧ Netip.hostPrefix a = q
  · -- The block of an address: both tables have the route of that address.
    obtain ⟨a, member, loud, rfl⟩ := mine
    obtain ⟨r, found, specific, communities, rfl⟩ := added a member loud
    obtain ⟨r', found', specific', communities', rfl⟩ :=
      added' a ((members a).mp member) (mt (gathered.suppressed a).mpr loud)
    rw [found, found']
    obtain ⟨texts, peers⟩ := same.asked a
    rw [texts] at communities
    cases communities.symm.trans communities'
    rw [peers]
  · have outside : ∀ a ∈ addrs, a ∉ g.suppressed → Netip.hostPrefix a ≠ q :=
      fun a member loud equal => mine ⟨a, member, loud, equal⟩
    rw [others q outside, gathered.desired]
    refine (others' q fun a member loud => ?_).symm
    exact outside a ((members a).mpr member) (mt (gathered.suppressed a).mp loud)

/-- The routes do not depend on the order of the reports or of the addresses. -/
theorem desiredRoutes_eq_of_sorted {cfg : Settings} {order order' : Order Netip.Addr}
    {statuses statuses' : List Status} {desired desired' : FMap Netip.Prefix Route}
    (sorted : statuses.Pairwise fun st st' => ¬ st'.before st)
    (sorted' : statuses'.Pairwise fun st st' => ¬ st'.before st) (perm : statuses.Perm statuses')
    (agree : TiesAgree statuses)
    (plain : ∀ st ∈ statuses, ∀ a, Netip.parseAddr st.vipAddress = some a → a.zone = "")
    (computed : cfg.desiredRoutes order statuses = .ok desired)
    (computed' : cfg.desiredRoutes order' statuses' = .ok desired') (q : Netip.Prefix) :
    desired.get? q = desired'.get? q := by
  obtain ⟨global, g, parsed, aggregates, hosts⟩ := Settings.desiredRoutes_ok.mp computed
  obtain ⟨global', g', parsed', aggregates', hosts'⟩ := Settings.desiredRoutes_ok.mp computed'
  obtain rfl : global = global' := Except.ok.inj (parsed.symm.trans parsed')
  have same := sameAsked_of_sorted sorted sorted' perm agree
  have zoneless : ∀ a ∈ (statuses.foldl noteStatus .empty).keys, a.zone = "" := by
    intro a member
    obtain ⟨st, mine, speaks⟩ := mem_keys_noteStatus.mp member
    exact plain st mine a (of_decide_eq_true (Bool.and_eq_true_iff.mp speaks).2)
  generalize statuses.foldl noteStatus .empty = vips at same zoneless aggregates hosts
  generalize statuses'.foldl noteStatus .empty = vips' at same aggregates' hosts'
  have gathered : g.Same g' := by
    refine foldlM_keeps_both (R := Gathered.Same) ?_ ⟨rfl, fun _ => Iff.rfl⟩ aggregates aggregates'
    exact fun _ _ _ _ _ before taken taken' => before.aggregate same taken taken'
  exact desired_eq_of_sameAsked same zoneless gathered (order.perm _) (order'.perm _) hosts hosts' q

end Desired

end Rivora.Bgp

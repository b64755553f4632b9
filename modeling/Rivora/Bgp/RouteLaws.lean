import Mathlib.Data.List.Basic
import Rivora.ConfigLaws
import Rivora.Bgp.Routes

/-! What the signature of a route tells, and what every desired route is like. -/

namespace Rivora.Bgp

variable {desired : FMap Netip.Prefix Route}

/-- A route whose neighbours can be told apart in a list with commas. -/
def Route.Plain (r : Route) : Prop := ∀ peers, r.peers = some peers → peers ≠ [] ∧ ∀ t ∈ peers, ',' ∉ t.toList

section Signatures

/-- A text is split at a mark in one way. -/
theorem append_inj_at_mark {mark : Char} {A A' B B' : List Char} (free : mark ∉ A) (free' : mark ∉ A')
    (rest : ∀ c ∈ B.head?, c = mark) (rest' : ∀ c ∈ B'.head?, c = mark) (same : A ++ B = A' ++ B') :
    A = A' ∧ B = B' := by
  induction A generalizing A' with
  | nil =>
    cases A' with
    | nil => exact ⟨rfl, same⟩
    | cons c more =>
      -- The first list would begin with the mark, which the second does not hold.
      rw [List.nil_append] at same
      have marked : c = mark := rest c (by rw [same]; rfl)
      exact absurd (marked ▸ List.mem_cons_self) free'
  | cons c more ih =>
    cases A' with
    | nil =>
      rw [List.nil_append] at same
      have marked : c = mark := rest' c (by rw [← same]; rfl)
      exact absurd (marked ▸ List.mem_cons_self) free
    | cons c' more' =>
      obtain ⟨rfl, behind⟩ := List.cons.inj same
      obtain ⟨front, back⟩ := ih (fun m => free (List.mem_cons_of_mem _ m))
        (fun m => free' (List.mem_cons_of_mem _ m)) behind
      exact ⟨congrArg _ front, back⟩

/-- Lists of texts without commas are joined without a loss. -/
theorem joined_injective {l l' : List (List Char)} (some_ : l ≠ []) (some' : l' ≠ [])
    (free : ∀ t ∈ l, ',' ∉ t) (free' : ∀ t ∈ l', ',' ∉ t)
    (same : [','].intercalate l = [','].intercalate l') : l = l' := by
  rw [← List.splitOn_intercalate ',' free some_, same, List.splitOn_intercalate ',' free' some']

/-- The characters of some communities with commas between them. -/
def communityChars (cs : List UInt32) : List Char :=
  [','].intercalate (cs.map fun c => (toString c.toNat).toList)

theorem mem_communityChars {cs : List UInt32} {c : Char} (member : c ∈ communityChars cs) :
    c = ',' ∨ c.isDigit = true := by
  unfold communityChars at member
  induction cs with
  | nil => cases member
  | cons first rest ih =>
    cases rest with
    | nil => exact Or.inr (digit_of_mem_toString (by simpa using member))
    | cons second more =>
      rw [List.map_cons, List.map_cons, List.intercalate_cons_cons] at member
      -- The character is of the first number, the comma behind it, or of the rest.
      rcases List.mem_append.mp member with front | behind
      · rcases List.mem_append.mp front with digit | comma
        · exact Or.inr (digit_of_mem_toString digit)
        · exact Or.inl (List.mem_singleton.mp comma)
      · exact ih behind

theorem communityChars_cons_ne_nil (c : UInt32) (cs : List UInt32) : communityChars (c :: cs) ≠ [] := by
  unfold communityChars
  cases cs with
  | nil => simp
  | cons second more => simp [List.intercalate_cons_cons]

/-- Communities are read back from their text. -/
theorem communityChars_injective {cs cs' : List UInt32} (same : communityChars cs = communityChars cs') :
    cs = cs' := by
  cases cs with
  | nil =>
    cases cs' with
    | nil => rfl
    | cons c more => exact absurd same.symm (communityChars_cons_ne_nil c more)
  | cons c more =>
    cases cs' with
    | nil => exact absurd same (communityChars_cons_ne_nil c more)
    | cons c' more' =>
      have free : ∀ cs : List UInt32, ∀ t ∈ cs.map (fun c => (toString c.toNat).toList), ',' ∉ t := by
        intro cs t member
        obtain ⟨n, _, rfl⟩ := List.mem_map.mp member
        exact separator_not_mem_toString rfl _
      have numbers := joined_injective (by simp) (by simp) (free (c :: more)) (free (c' :: more')) same
      refine List.map_injective_iff.mpr (fun x y texts => ?_) numbers
      exact UInt32.toNat_inj.1 (toString_nat_inj texts)

/-- What the limit of a route adds to its signature. -/
def limitChars : Option (List String) → List Char
  | none => []
  | some peers => '|' :: [','].intercalate (peers.map String.toList)

theorem toList_sig (r : Route) : r.sig.toList = communityChars r.communities ++ limitChars r.peers := by
  obtain ⟨communities, peers⟩ := r
  cases peers with
  | none => simp [Route.sig, communityChars, limitChars, String.toList_intercalate, Function.comp_def]
  | some peers => simp [Route.sig, communityChars, limitChars, String.toList_intercalate, Function.comp_def]

/-- Routes with one signature are the same. -/
theorem Route.sig_injective {r r' : Route} (plain : r.Plain) (plain' : r'.Plain) (same : r.sig = r'.sig) :
    r = r' := by
  have chars := congrArg String.toList same
  rw [toList_sig, toList_sig] at chars
  -- The first bar is where the limit begins, because communities have none.
  have barFree : ∀ cs, '|' ∉ communityChars cs := by
    intro cs bar
    rcases mem_communityChars bar with comma | digit
    · exact absurd comma (by decide)
    · exact absurd digit (by decide)
  have begins : ∀ peers, ∀ c ∈ (limitChars peers).head?, c = '|' := by
    intro peers c first
    cases peers with
    | none => cases first
    | some peers => exact (Option.some.inj first).symm
  obtain ⟨front, back⟩ := append_inj_at_mark (barFree _) (barFree _) (begins _) (begins _) chars
  obtain ⟨communities, peers⟩ := r
  obtain ⟨communities', peers'⟩ := r'
  cases communityChars_injective front
  cases peers with
  | none =>
    cases peers' with
    | none => rfl
    | some l' => cases back
  | some l =>
    cases peers' with
    | none => cases back
    | some l' =>
      obtain ⟨some_, free⟩ := plain l rfl
      obtain ⟨some', free'⟩ := plain' l' rfl
      have texts := joined_injective (mt List.map_eq_nil_iff.mp some_) (mt List.map_eq_nil_iff.mp some')
        (List.forall_mem_map.mpr free) (List.forall_mem_map.mpr free') (List.cons.inj back).2
      cases List.map_injective_iff.mpr (fun _ _ => String.toList_injective) texts
      rfl

end Signatures

section Desired

theorem foldlM_keeps {ε α β : Type} {f : β → α → Except ε β} {P : β → Prop}
    (each : ∀ b x b', P b → f b x = .ok b' → P b') {items : List α} {b b' : β} (start : P b)
    (folded : items.foldlM f b = .ok b') : P b' := by
  induction items generalizing b with
  | nil => cases folded; exact start
  | cons x rest ih =>
    rw [List.foldlM_cons] at folded
    cases first : f b x with
    | error e => rw [first] at folded; cases folded
    | ok next =>
      rw [first] at folded
      exact ih (each b x next start first) folded

theorem foldlM_keeps_both {ε α β : Type} {f f' : β → α → Except ε β} {R : β → β → Prop}
    (each : ∀ b b' x c c', R b b' → f b x = .ok c → f' b' x = .ok c' → R c c') {items : List α} {b b' c c' : β}
    (start : R b b') (folded : items.foldlM f b = .ok c) (folded' : items.foldlM f' b' = .ok c') : R c c' := by
  induction items generalizing b b' with
  | nil => cases folded; cases folded'; exact start
  | cons x rest ih =>
    rw [List.foldlM_cons] at folded folded'
    cases first : f b x with
    | error e => rw [first] at folded; cases folded
    | ok next =>
      cases first' : f' b' x with
      | error e => rw [first'] at folded'; cases folded'
      | ok next' =>
        rw [first] at folded
        rw [first'] at folded'
        exact ih (each b b' x next next' start first first') folded folded'

theorem PeerScope.list_ne_nil (scope : PeerScope) : scope.list ≠ some [] := by
  unfold PeerScope.list
  split
  · nofun
  · rename_i named
    intro empty
    have length := congrArg List.length (Option.some.inj empty)
    rw [List.length_insertionSort] at length
    exact named (Or.inr (List.eq_nil_of_length_eq_zero length))

/-- No route of a table is limited to nobody. -/
def LimitedToSome (desired : FMap Netip.Prefix Route) : Prop := ∀ p r, desired.get? p = some r → r.peers ≠ some []

theorem LimitedToSome.insert (before : LimitedToSome desired)
    (p : Netip.Prefix) (communities : List UInt32) (scope : PeerScope) :
    LimitedToSome (desired.insert p ⟨communities, scope.list⟩) := by
  intro q r found
  rw [FMap.get?_insert] at found
  split at found
  · cases found
    exact scope.list_ne_nil
  · exact before q r found

/-- The addresses an aggregate covers. -/
def coveredBy (vips : FMap Netip.Addr Asked) (p : Netip.Prefix) : List Netip.Addr :=
  vips.keys.filter fun addr => p.masked.contains addr

/-- What an aggregate adds to the routes. -/
theorem Gathered.aggregate_ok {global : List UInt32} {vips : FMap Netip.Addr Asked} {g g' : Gathered}
    {a : Aggregate} (taken : g.aggregate global vips a = .ok g') :
    ∃ p, Netip.parsePrefix a.pfx = some p ∧ ((coveredBy vips p = [] ∧ g' = g) ∨
      (coveredBy vips p ≠ [] ∧ ∃ specific, parseCommunities a.communities = .ok specific ∧
        g' = ⟨g.desired.insert p.masked ⟨mergeCommunities [global, specific], (PeerScope.none.add a.peers).list⟩,
          if a.suppressSpecifics then coveredBy vips p ++ g.suppressed else g.suppressed⟩)) := by
  unfold Gathered.aggregate at taken
  split at taken
  · cases taken
  · rename_i p parsed
    refine ⟨p, parsed, ?_⟩
    dsimp only at taken
    rw [← coveredBy] at taken
    generalize coveredBy vips p = covered at taken ⊢
    split at taken
    · rename_i nothing
      exact Or.inl ⟨nothing, (Except.ok.inj taken).symm⟩
    · rename_i something
      cases specific : parseCommunities a.communities with
      | error e => rw [specific] at taken; cases taken
      | ok cs =>
        rw [specific] at taken
        exact Or.inr ⟨something, cs, rfl, (Except.ok.inj taken).symm⟩

/-- What the VIPs of an address ask for. -/
def askedOf (vips : FMap Netip.Addr Asked) (addr : Netip.Addr) : Asked := (vips.get? addr).getD ⟨[], .none⟩

/-- What the route of an address adds. -/
theorem hostRoute_ok {global : List UInt32} {vips : FMap Netip.Addr Asked} {suppressed : List Netip.Addr}
    {table table' : FMap Netip.Prefix Route} {addr : Netip.Addr} :
    hostRoute global vips suppressed table addr = .ok table' ↔
      (addr ∈ suppressed ∧ table' = table) ∨
        (addr ∉ suppressed ∧ ∃ specific, parseCommunities (askedOf vips addr).communities = .ok specific ∧
          table' = table.insert (Netip.hostPrefix addr)
            ⟨mergeCommunities [global, specific], (askedOf vips addr).peers.list⟩) := by
  unfold hostRoute
  by_cases quiet : addr ∈ suppressed
  · rw [if_pos quiet]
    constructor
    · intro same
      cases same
      exact Or.inl ⟨quiet, rfl⟩
    · rintro (⟨_, rfl⟩ | ⟨loud, _⟩)
      · rfl
      · exact absurd quiet loud
  · rw [if_neg quiet]
    change (parseCommunities (askedOf vips addr).communities >>= _) = _ ↔ _
    cases specific : parseCommunities (askedOf vips addr).communities with
    | error e => exact ⟨nofun, fun either => either.elim (fun h => absurd h.1 quiet) fun ⟨_, _, h, _⟩ => nomatch h⟩
    | ok cs =>
      constructor
      · intro same
        cases same
        exact Or.inr ⟨quiet, cs, rfl, rfl⟩
      · rintro (⟨loud, _⟩ | ⟨_, _, same, rfl⟩)
        · exact absurd loud quiet
        · cases same
          rfl

/-- The routes are gathered from the aggregates, then from the addresses. -/
theorem Settings.desiredRoutes_ok {cfg : Settings} {order : Order Netip.Addr} {statuses : List Status} :
    cfg.desiredRoutes order statuses = .ok desired ↔
      ∃ global gathered, parseCommunities cfg.communities = .ok global ∧
        cfg.aggregates.foldlM (Gathered.aggregate global (statuses.foldl noteStatus .empty)) ⟨.empty, []⟩ =
          .ok gathered ∧
        (order.walk (statuses.foldl noteStatus .empty).keys).foldlM
          (hostRoute global (statuses.foldl noteStatus .empty) gathered.suppressed) gathered.desired =
          .ok desired := by
  unfold Settings.desiredRoutes
  cases global : parseCommunities cfg.communities with
  | error e => exact ⟨nofun, fun ⟨_, _, same, _⟩ => nomatch same⟩
  | ok communities =>
    dsimp only [bind, Except.bind]
    split
    · rename_i stopped
      exact ⟨nofun, fun ⟨_, _, same, gathered, _⟩ => by cases same; rw [stopped] at gathered; cases gathered⟩
    · rename_i found
      constructor
      · intro computed
        exact ⟨communities, _, rfl, found, computed⟩
      · rintro ⟨_, gathered, same, taken, computed⟩
        cases same
        cases found.symm.trans taken
        exact computed

theorem Settings.desiredRoutes_limited {cfg : Settings} {order : Order Netip.Addr} {statuses : List Status}
    (computed : cfg.desiredRoutes order statuses = .ok desired) :
    LimitedToSome desired := by
  obtain ⟨global, gathered, _, aggregates, hosts⟩ := Settings.desiredRoutes_ok.mp computed
  -- Each table grows by a route whose limit is the list of a scope.
  have first : LimitedToSome gathered.desired := by
    refine foldlM_keeps (P := fun g => LimitedToSome g.desired) ?_ ?_ aggregates
    case refine_2 => exact fun _ _ found => absurd found (by simp)
    intro g a g' before taken
    obtain ⟨p, _, ⟨_, rfl⟩ | ⟨_, specific, _, rfl⟩⟩ := Gathered.aggregate_ok taken
    · exact before
    · exact before.insert _ _ _
  refine foldlM_keeps (P := LimitedToSome) ?_ first hosts
  intro table addr table' before taken
  rcases hostRoute_ok.mp taken with ⟨_, rfl⟩ | ⟨_, specific, _, rfl⟩
  · exact before
  · exact before.insert _ _ _

end Desired

end Rivora.Bgp

import Mathlib.Data.Prod.Lex
import Mathlib.Data.String.Basic
import Rivora.Bgp.Peers
import Rivora.Lib.FirstSeen
import Rivora.Lib.SortedBy

/-! Which of several objects for one neighbour is applied. -/

namespace Rivora.Bgp

variable {o : PeerObject} {p : Peer}

open FirstSeen
open GatewayApi (SelectorReader)

variable {asSelector : SelectorReader} {inp : Inputs} {objs objs' : List PeerObject}

section Order

/-- Objects are compared by age, and by name where they are equally old. -/
def ageKey (o : PeerObject) : Lex (Int × String) := toLex (o.creationTimestamp, o.name)

/-- The order of the objects is that of their keys. -/
theorem before_iff_ageKey (a b : PeerObject) : a.before b ↔ ageKey a < ageKey b := by
  rw [ageKey, ageKey, Prod.Lex.toLex_lt_toLex]
  exact Iff.rfl

theorem perm_sortObjects (objs : List PeerObject) : (sortObjects objs).Perm objs := List.perm_insertionSort _ _

theorem sorted_sortObjects (objs : List PeerObject) : (sortObjects objs).Pairwise fun a b => ¬ b.before a :=
  SortedBy.pairwise_insertionSort before_iff_ageKey objs

theorem eq_of_not_before (named : (objs.map PeerObject.name).Nodup) {a b : PeerObject} (mem : a ∈ objs)
    (mem' : b ∈ objs) (first : ¬ b.before a) (second : ¬ a.before b) : a = b := by
  have keys := toLex.injective (SortedBy.key_eq before_iff_ageKey first second)
  exact List.inj_on_of_nodup_map named mem mem' (Prod.ext_iff.mp keys).2

/-- Sorting forgets the order. -/
theorem sortObjects_perm (named : (objs.map PeerObject.name).Nodup) (perm : objs'.Perm objs) :
    sortObjects objs' = sortObjects objs := by
  have perm' := (perm_sortObjects objs').trans (perm.trans (perm_sortObjects objs).symm)
  refine perm'.eq_of_pairwise ?_ (sorted_sortObjects objs') (sorted_sortObjects objs)
  intro a b mem mem' first second
  exact eq_of_not_before named (perm.mem_iff.mp ((perm_sortObjects objs').mem_iff.mp mem))
    ((perm_sortObjects objs).mem_iff.mp mem') first second

end Order

section Decisions

/-- A usable object, with the neighbour it asks for. -/
abbrev Ask := PeerObject × Peer

/-- The address it asks for, as it is spelled. -/
def askAddress (ask : Ask) : String := ask.2.address

/-- The objects that ask for a neighbour on this node and may have it. -/
def asks (asSelector : SelectorReader) (inp : Inputs) (objs : List PeerObject) : List Ask :=
  objs.filterMap fun o =>
    match o.asked asSelector inp with
    | .ok (some peer) => some (o, peer)
    | _ => none

theorem mem_asks :
    (o, p) ∈ asks asSelector inp objs ↔ o ∈ objs ∧ o.asked asSelector inp = .ok (some p) := by
  unfold asks
  rw [List.mem_filterMap]
  constructor
  · rintro ⟨o', mem, found⟩
    split at found
    · next peer asked =>
      cases found
      exact ⟨mem, asked⟩
    · cases found
  · rintro ⟨mem, asked⟩
    exact ⟨o, mem, by rw [asked]⟩

/-- The objects that are applied: the first of each address that is not one of the speaker's own. -/
def winners (asSelector : SelectorReader) (inp : Inputs) (objs : List PeerObject) : List Ask :=
  firsts askAddress ((asks asSelector inp objs).filter fun ask => askAddress ask ∉ inp.static.map Peer.address)

theorem mem_of_mem_winners (won : (o, p) ∈ winners asSelector inp objs) :
    o ∈ objs ∧ o.asked asSelector inp = .ok (some p) ∧ p.address ∉ inp.static.map Peer.address := by
  obtain ⟨asks, own⟩ := List.mem_filter.mp (mem_of_mem_firsts won)
  obtain ⟨mem, asked⟩ := mem_asks.mp asks
  exact ⟨mem, asked, by simpa [askAddress] using own⟩

theorem taken_isSome {a : String} : (inp.taken.get? a).isSome ↔ a ∈ inp.static.map Peer.address := by
  unfold Inputs.taken
  induction inp.static using List.reverseRecOn with
  | nil => simp
  | append_singleton l p ih =>
    rw [List.foldl_append, List.foldl_cons, List.foldl_nil, FMap.get?_insert, List.map_append, List.mem_append, ← ih]
    by_cases same : a = p.address <;> simp [same]

/-- What is decided after some objects: the winners run, and all others that ask for something are reported. -/
structure Resolved.Decides (asSelector : SelectorReader) (inp : Inputs) (objs : List PeerObject) (r : Resolved) :
    Prop where
  peers : r.peers = (winners asSelector inp objs).map Prod.snd
  taken : ∀ a, (r.taken.get? a).isSome ↔ a ∈ inp.static.map Peer.address ∨ a ∈ (winners asSelector inp objs).map askAddress
  problems : ∀ n, n ∈ r.problems.map Problem.name ↔ ∃ o ∈ objs, o.name = n ∧ o.asked asSelector inp ≠ .ok none ∧
    ∀ p, (o, p) ∉ winners asSelector inp objs

theorem decides_start : Resolved.Decides asSelector inp [] ⟨inp.taken, [], []⟩ :=
  ⟨rfl, fun a => by simp [winners, asks, taken_isSome], fun n => by simp⟩

theorem asks_concat (objs : List PeerObject) (o : PeerObject) :
    asks asSelector inp (objs ++ [o]) = asks asSelector inp objs ++
      match o.asked asSelector inp with
      | .ok (some peer) => [(o, peer)]
      | _ => [] := by
  rw [asks, List.filterMap_append, List.filterMap_cons, List.filterMap_nil]
  cases o.asked asSelector inp with
  | error e => rfl
  | ok found => cases found <;> rfl

theorem winners_concat (objs : List PeerObject) (o : PeerObject) :
    winners asSelector inp (objs ++ [o]) =
      match o.asked asSelector inp with
      | .ok (some peer) =>
        if peer.address ∈ inp.static.map Peer.address ∨ peer.address ∈ (winners asSelector inp objs).map askAddress then
          winners asSelector inp objs
        else winners asSelector inp objs ++ [(o, peer)]
      | _ => winners asSelector inp objs := by
  cases asked : o.asked asSelector inp with
  | error e => rw [winners, asks_concat, asked, List.append_nil]; rfl
  | ok found =>
    cases found with
    | none => rw [winners, asks_concat, asked, List.append_nil]; rfl
    | some peer =>
      rw [winners, asks_concat, asked, List.filter_append]
      by_cases static : peer.address ∈ inp.static.map Peer.address
      · -- The address is one of the speaker's own.
        rw [List.filter_cons_of_neg (by simpa [askAddress] using static), List.filter_nil, List.append_nil]
        exact (if_pos (.inl static)).symm
      · rw [List.filter_cons_of_pos (by simpa [askAddress] using static), List.filter_nil, firsts_concat, keep]
        by_cases kept : peer.address ∈ (winners asSelector inp objs).map askAddress
        · exact (if_pos kept).trans (if_pos (.inr kept)).symm
        · exact (if_neg kept).trans (if_neg (not_or.mpr ⟨static, kept⟩)).symm

theorem Resolved.Decides.take {r : Resolved} (decides : r.Decides asSelector inp objs)
    (new : o ∉ objs) : (r.take asSelector inp o).Decides asSelector inp (objs ++ [o]) := by
  -- An object that is not applied leaves the winners as they are and is reported.
  have reported : ∀ err, winners asSelector inp (objs ++ [o]) = winners asSelector inp objs →
      o.asked asSelector inp ≠ .ok none →
      Resolved.Decides asSelector inp (objs ++ [o]) { r with problems := r.problems ++ [⟨o.name, err⟩] } := by
    intro err same asked
    refine ⟨by rw [same]; exact decides.peers, by rw [same]; exact decides.taken, fun n => ?_⟩
    rw [same, List.map_append, List.mem_append, decides.problems, List.map_singleton, List.mem_singleton]
    constructor
    · rintro (⟨o', mem, rest⟩ | rfl)
      · exact ⟨o', List.mem_append_left _ mem, rest⟩
      · exact ⟨o, List.mem_append_right _ (List.mem_singleton.mpr rfl), rfl, asked,
          fun p won => new (mem_of_mem_winners won).1⟩
    · rintro ⟨o', mem, name, rest⟩
      rcases List.mem_append.mp mem with mem | mem
      · exact .inl ⟨o', mem, name, rest⟩
      · exact .inr (by rw [← name, List.mem_singleton.mp mem])
  have step := @winners_concat asSelector inp objs o
  cases asked : o.asked asSelector inp with
  | error e =>
    rw [asked] at step
    simp only [Resolved.take, asked]
    exact reported e step (by simp [asked])
  | ok found =>
    cases found with
    | none =>
      -- The object is for other nodes.
      rw [asked] at step
      simp only [Resolved.take, asked]
      refine ⟨by rw [step]; exact decides.peers, by rw [step]; exact decides.taken, fun n => ?_⟩
      rw [decides.problems, step]
      constructor
      · rintro ⟨o', mem, rest⟩
        exact ⟨o', List.mem_append_left _ mem, rest⟩
      · rintro ⟨o', mem, name, asks, lost⟩
        rcases List.mem_append.mp mem with mem | mem
        · exact ⟨o', mem, name, asks, lost⟩
        · rw [List.mem_singleton.mp mem] at asks
          exact absurd asked asks
    | some peer =>
      rw [asked] at step
      have holder := decides.taken peer.address
      simp only [Resolved.take, asked]
      cases who : r.taken.get? peer.address with
      | some name =>
        rw [who] at holder
        exact reported _ (step.trans (if_pos (holder.mp rfl))) (by simp [asked])
      | none =>
        rw [who] at holder
        have free : winners asSelector inp (objs ++ [o]) = winners asSelector inp objs ++ [(o, peer)] :=
          step.trans (if_neg (mt holder.mpr Bool.false_ne_true))
        refine ⟨?_, fun a => ?_, fun n => ?_⟩
        · rw [free, decides.peers, List.map_append, List.map_singleton]
        · rw [FMap.get?_insert, free, List.map_append, List.mem_append, List.map_singleton, List.mem_singleton,
            ← or_assoc, ← decides.taken]
          by_cases same : a = peer.address
          · rw [if_pos same]
            exact ⟨fun _ => .inr same, fun _ => rfl⟩
          · rw [if_neg same]
            exact ⟨.inl, fun either => either.elim id fun eq => absurd eq same⟩
        · rw [decides.problems, free]
          constructor
          · rintro ⟨o', mem, name, asks, lost⟩
            refine ⟨o', List.mem_append_left _ mem, name, asks, fun p won => ?_⟩
            rcases List.mem_append.mp won with won | won
            · exact lost p won
            · cases List.mem_singleton.mp won
              exact new mem
          · rintro ⟨o', mem, name, asks, lost⟩
            rcases List.mem_append.mp mem with mem | mem
            · exact ⟨o', mem, name, asks, fun p won => lost p (List.mem_append_left _ won)⟩
            · rw [List.mem_singleton.mp mem] at lost
              exact absurd (List.mem_append_right _ (List.mem_singleton.mpr rfl)) (lost peer)

/-- The loop decides every object. -/
theorem decides_all (distinct : objs.Nodup) :
    Resolved.Decides asSelector inp objs (objs.foldl (Resolved.take asSelector inp) ⟨inp.taken, [], []⟩) := by
  induction objs using List.reverseRecOn with
  | nil => exact decides_start
  | append_singleton objs o ih =>
    obtain ⟨before, -, apart⟩ := List.nodup_append.mp distinct
    rw [List.foldl_append]
    exact (ih before).take fun mem => apart o mem o (List.mem_singleton.mpr rfl) rfl

end Decisions

/-- No neighbour that the speaker was started with has the address of another one. -/
def Inputs.Free (inp : Inputs) (p : Peer) : Prop := ∀ s ∈ inp.static, parseIP s.address ≠ parseIP p.address

/-- Every other usable object for the address is younger, or as old and later by name. -/
def Oldest (asSelector : SelectorReader) (inp : Inputs) (objs : List PeerObject) (o : PeerObject) (p : Peer) : Prop :=
  ∀ o' ∈ objs, ∀ p', o'.asked asSelector inp = .ok (some p') → parseIP p'.address = parseIP p.address →
    o' = o ∨ o.before o'

/-- An object that is to be applied, with the neighbour it asks for. -/
structure Applies (asSelector : SelectorReader) (inp : Inputs) (objs : List PeerObject) (o : PeerObject) (p : Peer) :
    Prop where
  mem : o ∈ objs
  asked : o.asked asSelector inp = .ok (some p)
  free : inp.Free p
  oldest : Oldest asSelector inp objs o p

/-- Addresses that are the same are written the same, as far as their texts decide what is applied. -/
structure SpelledAlike (asSelector : SelectorReader) (inp : Inputs) (objs : List PeerObject) : Prop where
  /-- An address of the speaker's own is asked for in one of the ways the speaker spells it. -/
  static : ∀ o ∈ objs, ∀ p, o.asked asSelector inp = .ok (some p) → ¬ inp.Free p →
    p.address ∈ inp.static.map Peer.address
  objects : ∀ o ∈ objs, ∀ p, o.asked asSelector inp = .ok (some p) → inp.Free p → ∀ o' ∈ objs, ∀ p',
    o'.asked asSelector inp = .ok (some p') → parseIP p'.address = parseIP p.address → p'.address = p.address

section Winners

/-- The speaker has no neighbour with the text of a free address. -/
theorem Inputs.Free.text (free : inp.Free p) : p.address ∉ inp.static.map Peer.address := by
  intro own
  obtain ⟨s, static, same⟩ := List.mem_map.mp own
  exact free s static (by rw [same])

/-- A text that is asked for and is not the speaker's own has a winner. -/
theorem winner_of_text (mem : o ∈ objs) (asked : o.asked asSelector inp = .ok (some p))
    (own : p.address ∉ inp.static.map Peer.address) :
    ∃ won ∈ winners asSelector inp (sortObjects objs), won.2.address = p.address := by
  have asks : (o, p) ∈ (asks asSelector inp (sortObjects objs)).filter fun ask =>
      askAddress ask ∉ inp.static.map Peer.address :=
    List.mem_filter.mpr ⟨mem_asks.mpr ⟨(perm_sortObjects objs).mem_iff.mpr mem, asked⟩, by simpa [askAddress] using own⟩
  exact List.mem_map.mp (mem_keys_firsts.mpr (List.mem_map_of_mem (f := askAddress) asks))

variable (named : (objs.map PeerObject.name).Nodup) (spelled : SpelledAlike asSelector inp objs)

include named

theorem mem_winners :
    (o, p) ∈ winners asSelector inp (sortObjects objs) ↔
      (o ∈ objs ∧ o.asked asSelector inp = .ok (some p) ∧ p.address ∉ inp.static.map Peer.address) ∧
        ∀ o' ∈ objs, ∀ p', o'.asked asSelector inp = .ok (some p') → p'.address = p.address → o' = o ∨ o.before o' := by
  have sorted : ((asks asSelector inp (sortObjects objs)).filter fun ask =>
      askAddress ask ∉ inp.static.map Peer.address).Pairwise fun x y => ¬ y.1.before x.1 := by
    refine List.Pairwise.filter _ (List.Pairwise.filterMap _ ?_ (sorted_sortObjects objs))
    intro a b order x found y found'
    have first : x.1 = a := by split at found <;> cases found; rfl
    have second : y.1 = b := by split at found' <;> cases found'; rfl
    rw [first, second]
    exact order
  have member : ∀ {o p}, (o, p) ∈ ((asks asSelector inp (sortObjects objs)).filter fun ask =>
      askAddress ask ∉ inp.static.map Peer.address) ↔
        o ∈ objs ∧ o.asked asSelector inp = .ok (some p) ∧ p.address ∉ inp.static.map Peer.address := by
    intro o p
    rw [List.mem_filter, mem_asks, (perm_sortObjects objs).mem_iff, and_assoc, decide_eq_true_eq]
    rfl
  have antisymm : ∀ x ∈ ((asks asSelector inp (sortObjects objs)).filter fun ask =>
      askAddress ask ∉ inp.static.map Peer.address), ∀ y ∈ ((asks asSelector inp (sortObjects objs)).filter fun ask =>
      askAddress ask ∉ inp.static.map Peer.address), ¬ y.1.before x.1 → ¬ x.1.before y.1 → x = y := by
    rintro ⟨a, p⟩ mem ⟨b, q⟩ mem' first second
    obtain ⟨inside, asked, -⟩ := member.mp mem
    obtain ⟨inside', asked', -⟩ := member.mp mem'
    cases eq_of_not_before named inside inside' first second
    cases asked.symm.trans asked'
    rfl
  rw [winners, mem_firsts_of_sorted sorted antisymm, member]
  refine and_congr_right fun ⟨mem, asked, own⟩ => ⟨fun first o' mem' p' asked' same => ?_, ?_⟩
  · -- A usable object for the same text stands behind this one, or is this one.
    rcases first (o', p') (member.mpr ⟨mem', asked', same ▸ own⟩) same with eq | order
    · exact .inl (congrArg Prod.fst eq)
    · by_cases before : o.before o'
      · exact .inr before
      · exact .inl (eq_of_not_before named mem' mem before order)
  · rintro oldest ⟨o', p'⟩ inside same
    obtain ⟨mem', asked', -⟩ := member.mp inside
    rcases oldest o' mem' p' asked' same with rfl | before
    · cases asked.symm.trans asked'
      exact .inl rfl
    · exact .inr (SortedBy.asymm before_iff_ageKey before)

include spelled

/-- The winners are the objects that apply. -/
theorem mem_winners_iff :
    (o, p) ∈ winners asSelector inp (sortObjects objs) ↔ Applies asSelector inp objs o p := by
  rw [mem_winners named]
  constructor
  · rintro ⟨⟨mem, asked, own⟩, oldest⟩
    have free : inp.Free p := by_contra fun used => own (spelled.static o mem p asked used)
    exact ⟨mem, asked, free, fun o' mem' p' asked' same =>
      oldest o' mem' p' asked' (spelled.objects o mem p asked free o' mem' p' asked' same)⟩
  · rintro ⟨mem, asked, free, oldest⟩
    exact ⟨⟨mem, asked, free.text⟩, fun o' mem' p' asked' same => oldest o' mem' p' asked' (by rw [same])⟩

end Winners

/-- Where each free address has one neighbour at most and none of the speaker's own is declared again, texts agree. -/
theorem spelled_of_resolved (named : (objs.map PeerObject.name).Nodup)
    (different : (resolve asSelector objs inp).1.Pairwise fun p q => parseIP p.address ≠ parseIP q.address)
    (free : ∀ p ∈ (resolve asSelector objs inp).1, inp.Free p) : SpelledAlike asSelector inp objs := by
  have distinct : (sortObjects objs).Nodup := (perm_sortObjects objs).nodup_iff.mpr named.of_map
  have peers : (resolve asSelector objs inp).1 = (winners asSelector inp (sortObjects objs)).map Prod.snd :=
    (@decides_all asSelector inp _ distinct).peers
  rw [peers] at different free
  constructor
  · intro o mem p asked used
    by_contra own
    obtain ⟨won, member, same⟩ := winner_of_text mem asked own
    have := free won.2 (List.mem_map_of_mem member)
    rw [Inputs.Free, same] at this
    exact used this
  · intro o mem p asked unused o' mem' p' asked' equal
    have unused' : inp.Free p' := by rwa [Inputs.Free, equal]
    obtain ⟨won, member, same⟩ := winner_of_text mem asked unused.text
    obtain ⟨won', member', same'⟩ := winner_of_text mem' asked' unused'.text
    -- Two winners of one address are one neighbour.
    have : Std.Symm fun p q : Peer => parseIP p.address ≠ parseIP q.address := ⟨fun _ _ unequal => unequal.symm⟩
    have one : won'.2 = won.2 := by
      by_contra unequal
      exact different.forall (List.mem_map_of_mem member') (List.mem_map_of_mem member) unequal
        (by rw [same, same', equal])
    rw [← same, ← same', one]

/--
Exactly where no address is spelled in two ways that matter, each address has one neighbour at most, none of the
speaker's own is declared again, the oldest usable object of an address is applied and every other one for this node
reported, and the order of the objects does not matter.
-/
theorem resolve_applies_the_oldest (named : (objs.map PeerObject.name).Nodup) :
    ((resolve asSelector objs inp).1.Pairwise (fun p q => parseIP p.address ≠ parseIP q.address) ∧
      (∀ p ∈ (resolve asSelector objs inp).1, inp.Free p) ∧
      (∀ p, p ∈ (resolve asSelector objs inp).1 ↔ ∃ o, Applies asSelector inp objs o p) ∧
      (∀ n, n ∈ (resolve asSelector objs inp).2.map Problem.name ↔
        ∃ o ∈ objs, o.name = n ∧ o.asked asSelector inp ≠ .ok none ∧ ∀ p, ¬ Applies asSelector inp objs o p) ∧
      ∀ objs', objs'.Perm objs → resolve asSelector objs' inp = resolve asSelector objs inp) ↔
        SpelledAlike asSelector inp objs := by
  refine ⟨fun resolved => spelled_of_resolved named resolved.1 resolved.2.1, fun spelled => ?_⟩
  have distinct : (sortObjects objs).Nodup := (perm_sortObjects objs).nodup_iff.mpr named.of_map
  have decides := @decides_all asSelector inp _ distinct
  have peers : (resolve asSelector objs inp).1 = (winners asSelector inp (sortObjects objs)).map Prod.snd :=
    decides.peers
  have applied : ∀ p, p ∈ (resolve asSelector objs inp).1 ↔ ∃ o, Applies asSelector inp objs o p := by
    intro p
    rw [peers, List.mem_map]
    constructor
    · rintro ⟨⟨o, _⟩, won, rfl⟩
      exact ⟨o, (mem_winners_iff named spelled).mp won⟩
    · rintro ⟨o, applies⟩
      exact ⟨(o, p), (mem_winners_iff named spelled).mpr applies, rfl⟩
  refine ⟨?_, fun p mem => ?_, applied, fun n => ?_, fun objs' perm => ?_⟩
  · -- No text is applied twice, and different texts are different addresses.
    rw [peers, List.pairwise_map]
    have texts : (winners asSelector inp (sortObjects objs)).Pairwise fun x y => askAddress x ≠ askAddress y :=
      List.pairwise_map.mp (keys_firsts_nodup _)
    refine texts.imp_of_mem ?_
    rintro ⟨o, p⟩ ⟨o', p'⟩ won won' other same
    have applies := (mem_winners_iff named spelled).mp won
    have applies' := (mem_winners_iff named spelled).mp won'
    exact other (spelled.objects o' applies'.mem p' applies'.asked applies'.free o applies.mem p applies.asked same)
  · obtain ⟨o, applies⟩ := (applied p).mp mem
    exact applies.free
  · refine (decides.problems n).trans ?_
    simp only [(perm_sortObjects objs).mem_iff, mem_winners_iff named spelled]
  · rw [resolve, resolve, sortObjects_perm named perm]

/-- No label selector can be read. -/
def plainSelectors : SelectorReader := fun _ => .error "unsupported"

/-- A node without labels and neighbours of its own. -/
def plainInputs : Inputs := ⟨64512, .empty, true, [], fun _ _ => .error "not found"⟩

/-- An object for a neighbour in AS 64513. -/
def plainObject (name : String) (age : Int) (address : String) : PeerObject :=
  ⟨name, age, address, 64513, false, 0, none, none, none⟩

/-- A neighbour without special settings. -/
def plainPeer (address : String) : Peer := ⟨address, 64513, false, "", "", 0, none, []⟩

theorem asked_address (asked : o.asked asSelector inp = .ok (some p)) :
    p.address = o.address := by
  unfold PeerObject.asked at asked
  cases selects : o.selects asSelector inp with
  | error e => rw [selects] at asked; cases asked
  | ok here =>
    rw [selects] at asked
    cases here with
    | false => cases asked
    | true =>
      cases password : o.password inp with
      | error e => rw [password] at asked; cases asked
      | ok text =>
        rw [password] at asked
        -- What is left is the check, and the neighbour is what was checked.
        simp only [bind, Except.bind, if_true] at asked
        split at asked
        · cases asked
        · cases asked
          rfl

/-- Of two objects for one text, the older one is applied and the other reported, in either order. -/
theorem older_object_is_applied :
    plainPeer "192.0.2.1" ∈
        (resolve plainSelectors [plainObject "b" 1 "192.0.2.1", plainObject "a" 2 "192.0.2.1"] plainInputs).1 ∧
      resolve plainSelectors [plainObject "a" 2 "192.0.2.1", plainObject "b" 1 "192.0.2.1"] plainInputs =
        resolve plainSelectors [plainObject "b" 1 "192.0.2.1", plainObject "a" 2 "192.0.2.1"] plainInputs := by
  have text : ∀ o ∈ [plainObject "b" 1 "192.0.2.1", plainObject "a" 2 "192.0.2.1"], o.address = "192.0.2.1" := by
    decide
  have spelled : SpelledAlike plainSelectors plainInputs
      [plainObject "b" 1 "192.0.2.1", plainObject "a" 2 "192.0.2.1"] := by
    refine ⟨fun _ _ _ _ used => absurd (fun s static => (nomatch static)) used,
      fun o mem p asked _ o' mem' p' asked' _ => ?_⟩
    rw [asked_address asked, asked_address asked', text o mem, text o' mem']
  obtain ⟨-, -, -, -, order⟩ := (resolve_applies_the_oldest (by decide)).mpr spelled
  exact ⟨by decide +kernel, order _ (List.Perm.swap ..)⟩

/-- Two spellings of one address are two neighbours. -/
theorem two_spellings_are_both_applied :
    parseIP "2001:db8::1" = parseIP "2001:DB8::1" ∧
      resolve plainSelectors [plainObject "a" 1 "2001:db8::1", plainObject "b" 2 "2001:DB8::1"] plainInputs =
        ([plainPeer "2001:db8::1", plainPeer "2001:DB8::1"], []) := by
  decide +kernel

end Rivora.Bgp

import Mathlib.Algebra.Order.Ring.Int
import Mathlib.Data.List.Perm.Basic
import Mathlib.Data.List.Nodup
import Mathlib.Data.List.Count

/-! Finite maps with an exact, duplicate-free list of entries whose order carries no meaning. -/

/-- A finite map: an association list in which no key occurs twice. -/
structure FMap (κ ν : Type) where
  /-- The stored pairs, in an order no reader may rely on. -/
  entries : List (κ × ν)
  /-- Each key is stored at most once. -/
  nodup : (entries.map Prod.fst).Nodup
  deriving DecidableEq

namespace FMap

variable {κ ν : Type} [DecidableEq κ]

/-- The map with no entries. -/
def empty : FMap κ ν := ⟨[], by simp⟩

instance : Inhabited (FMap κ ν) := ⟨empty⟩

/-- The value stored under a key. -/
def get? (m : FMap κ ν) (k : κ) : Option ν :=
  (m.entries.find? fun entry => decide (entry.1 = k)).map Prod.snd

/-- Whether a key is stored. -/
def contains (m : FMap κ ν) (k : κ) : Bool := (m.get? k).isSome

/-- The map without one key. -/
def erase (m : FMap κ ν) (k : κ) : FMap κ ν :=
  ⟨m.entries.filter fun entry => decide (entry.1 ≠ k),
    m.nodup.sublist (List.filter_sublist.map Prod.fst)⟩

/-- The map with one key set, replacing what it held before. -/
def insert (m : FMap κ ν) (k : κ) (v : ν) : FMap κ ν :=
  ⟨(k, v) :: (m.erase k).entries, by
    -- Erasing first is what keeps the new head from being stored twice.
    refine List.nodup_cons.mpr ⟨?_, (m.erase k).nodup⟩
    simp [erase]⟩

/-- The map restricted to the keys that pass a test. -/
def filterKeys (m : FMap κ ν) (p : κ → Bool) : FMap κ ν :=
  ⟨m.entries.filter fun entry => p entry.1, m.nodup.sublist (List.filter_sublist.map Prod.fst)⟩

/-- The stored keys. -/
def keys (m : FMap κ ν) : List κ := m.entries.map Prod.fst

/-- The stored values. -/
def values (m : FMap κ ν) : List ν := m.entries.map Prod.snd

/-- How many keys are stored. -/
def size (m : FMap κ ν) : Nat := m.entries.length

/-- How many stored values satisfy a test. -/
def count (m : FMap κ ν) (p : ν → Bool) : Nat := m.entries.countP fun entry => p entry.2

/-- The map that results from storing a list of pairs in order, later pairs winning. -/
def ofList (pairs : List (κ × ν)) : FMap κ ν :=
  pairs.foldl (fun m pair => m.insert pair.1 pair.2) empty

omit [DecidableEq κ] in
theorem entries_unique (m : FMap κ ν) {k : κ} {v w : ν}
    (left : (k, v) ∈ m.entries) (right : (k, w) ∈ m.entries) : v = w := by
  -- Distinct pairs would repeat the key in the list of keys.
  have same := List.inj_on_of_nodup_map m.nodup left right rfl
  simpa using same

/-- A lookup finds what is entered. -/
theorem get?_eq_some {m : FMap κ ν} {k : κ} {v : ν} : m.get? k = some v ↔ (k, v) ∈ m.entries := by
  rw [get?, Option.map_eq_some_iff]
  constructor
  · rintro ⟨⟨j, w⟩, hit, rfl⟩
    have key : j = k := by simpa using List.find?_some hit
    exact key ▸ List.mem_of_find?_eq_some hit
  · intro stored
    -- Some pair with this key is hit, and no other pair has the key.
    have isHit : (m.entries.find? fun entry => decide (entry.1 = k)).isSome = true :=
      List.find?_isSome.mpr ⟨(k, v), stored, by simp⟩
    obtain ⟨⟨j, w⟩, hit⟩ := Option.isSome_iff_exists.mp isHit
    have key : j = k := by simpa using List.find?_some hit
    subst key
    exact ⟨(j, w), hit, m.entries_unique (List.mem_of_find?_eq_some hit) stored⟩

/-- It finds nothing under other keys. -/
theorem get?_eq_none {m : FMap κ ν} {k : κ} : m.get? k = none ↔ k ∉ m.keys := by
  constructor
  · intro missing stored
    obtain ⟨pair, member, same⟩ := List.mem_map.mp stored
    have found : m.get? k = some pair.2 := get?_eq_some.mpr (by cases pair; simpa using same ▸ member)
    simp [missing] at found
  · intro absent
    cases found : m.get? k with
    | none => rfl
    | some v => exact absurd (List.mem_map.mpr ⟨(k, v), get?_eq_some.mp found, rfl⟩) absent

theorem mem_keys {m : FMap κ ν} {k : κ} : k ∈ m.keys ↔ ∃ v, m.get? k = some v := by
  -- Both sides speak about the stored pairs with this key.
  simp only [keys, List.mem_map, get?_eq_some, Prod.exists, exists_and_right, exists_eq_right]

theorem contains_iff {m : FMap κ ν} {k : κ} : m.contains k = true ↔ k ∈ m.keys := by
  rw [contains, Option.isSome_iff_exists, mem_keys]

omit [DecidableEq κ] in
theorem keys_nodup (m : FMap κ ν) : m.keys.Nodup := m.nodup

omit [DecidableEq κ] in
theorem length_keys (m : FMap κ ν) : m.keys.length = m.size := by
  simp [keys, size]

@[simp] theorem get?_empty (k : κ) : (empty : FMap κ ν).get? k = none := rfl

omit [DecidableEq κ] in
@[simp] theorem keys_empty : (empty : FMap κ ν).keys = [] := rfl

omit [DecidableEq κ] in
@[simp] theorem entries_empty : (empty : FMap κ ν).entries = [] := rfl

@[simp] theorem entries_insert (m : FMap κ ν) (k : κ) (v : ν) :
    (m.insert k v).entries = (k, v) :: (m.erase k).entries := rfl

/-- What is erased is gone, and nothing else. -/
theorem get?_erase (m : FMap κ ν) (k j : κ) :
    (m.erase k).get? j = if j = k then none else m.get? j := by
  by_cases same : j = k
  · subst same
    rw [if_pos rfl, get?_eq_none]
    simp [keys, erase]
  · rw [if_neg same]
    -- Away from the erased key the filter keeps every pair.
    cases found : m.get? j with
    | none =>
      rw [get?_eq_none] at found ⊢
      intro member
      apply found
      simp only [keys, erase, List.mem_map, List.mem_filter] at member ⊢
      obtain ⟨pair, ⟨stored, _⟩, named⟩ := member
      exact ⟨pair, stored, named⟩
    | some v =>
      rw [get?_eq_some] at found ⊢
      exact List.mem_filter.mpr ⟨found, by simpa using same⟩

/-- What is inserted is found, and nothing else changes. -/
theorem get?_insert (m : FMap κ ν) (k j : κ) (v : ν) :
    (m.insert k v).get? j = if j = k then some v else m.get? j := by
  by_cases same : j = k
  · subst same
    rw [if_pos rfl, get?_eq_some]
    simp
  · have erased : (m.insert k v).get? j = (m.erase k).get? j := by
      unfold get?
      rw [entries_insert, List.find?_cons_of_neg (by simpa using Ne.symm same)]
    rw [erased, get?_erase, if_neg same, if_neg same]

@[simp] theorem get?_insert_self (m : FMap κ ν) (k : κ) (v : ν) :
    (m.insert k v).get? k = some v := by
  rw [get?_insert, if_pos rfl]

theorem get?_insert_of_ne (m : FMap κ ν) {k j : κ} (v : ν) (other : j ≠ k) :
    (m.insert k v).get? j = m.get? j := by
  rw [get?_insert, if_neg other]

@[simp] theorem get?_erase_self (m : FMap κ ν) (k : κ) : (m.erase k).get? k = none := by
  rw [get?_erase, if_pos rfl]

theorem get?_erase_of_ne (m : FMap κ ν) {k j : κ} (other : j ≠ k) :
    (m.erase k).get? j = m.get? j := by
  rw [get?_erase, if_neg other]

theorem entries_erase_of_absent {m : FMap κ ν} {k : κ} (absent : m.get? k = none) :
    (m.erase k).entries = m.entries := by
  -- No stored pair fails the filter's test.
  apply List.filter_eq_self.mpr
  intro pair member
  rw [get?_eq_none] at absent
  simp only [decide_eq_true_eq]
  intro same
  exact absent (List.mem_map.mpr ⟨pair, member, same⟩)

theorem erase_insert_self (m : FMap κ ν) (k : κ) (v : ν) : (m.insert k v).erase k = m.erase k := by
  have idempotent : ((m.erase k).erase k).entries = (m.erase k).entries :=
    entries_erase_of_absent (get?_erase_self m k)
  simp only [erase, entries_insert] at idempotent ⊢
  congr 1
  rw [List.filter_cons_of_neg (by simp), idempotent]

theorem insert_insert_self (m : FMap κ ν) (k : κ) (v w : ν) :
    (m.insert k v).insert k w = m.insert k w := by
  unfold insert
  congr 2
  exact congrArg entries (erase_insert_self m k v)

/-- An entry can be taken to the front. -/
theorem entries_perm_of_get? {m : FMap κ ν} {k : κ} {v : ν} (found : m.get? k = some v) :
    m.entries.Perm ((k, v) :: (m.erase k).entries) := by
  -- Both lists are duplicate-free and have the same members.
  have leftNodup : m.entries.Nodup := m.nodup.of_map
  have rightNodup : ((k, v) :: (m.erase k).entries).Nodup := (m.insert k v).nodup.of_map
  refine (List.perm_ext_iff_of_nodup leftNodup rightNodup).mpr ?_
  rintro ⟨j, w⟩
  rw [get?_eq_some] at found
  simp only [List.mem_cons, Prod.mk.injEq, erase, List.mem_filter, decide_eq_true_eq]
  constructor
  · intro member
    by_cases same : j = k
    · subst same
      exact Or.inl ⟨rfl, m.entries_unique member found⟩
    · exact Or.inr ⟨member, same⟩
  · rintro (⟨rfl, rfl⟩ | ⟨member, _⟩)
    · exact found
    · exact member

theorem count_insert (m : FMap κ ν) (k : κ) (v : ν) (p : ν → Bool) :
    (m.insert k v).count p = (m.erase k).count p + (p v).toNat := by
  cases passes : p v <;> simp [count, passes]

theorem count_of_get? {m : FMap κ ν} {k : κ} {v : ν} (found : m.get? k = some v) (p : ν → Bool) :
    m.count p = (m.erase k).count p + (p v).toNat := by
  unfold count
  rw [(entries_perm_of_get? found).countP_eq]
  cases passes : p v <;> simp [passes]

theorem count_erase_of_absent {m : FMap κ ν} {k : κ} (absent : m.get? k = none) (p : ν → Bool) :
    (m.erase k).count p = m.count p := by
  rw [count, entries_erase_of_absent absent, count]

/-- Something is counted if some entry passes the test. -/
theorem count_pos {m : FMap κ ν} {p : ν → Bool} :
    0 < m.count p ↔ ∃ k v, m.get? k = some v ∧ p v = true := by
  simp only [count, List.countP_pos_iff, Prod.exists, get?_eq_some]

theorem size_insert_of_absent {m : FMap κ ν} {k : κ} (absent : m.get? k = none) (v : ν) :
    (m.insert k v).size = m.size + 1 := by
  simp [size, entries_erase_of_absent absent]

theorem size_erase_le (m : FMap κ ν) (k : κ) : (m.erase k).size ≤ m.size :=
  List.length_filter_le _ _

theorem values_insert_of_absent {m : FMap κ ν} {k : κ} (absent : m.get? k = none) (v : ν) :
    (m.insert k v).values = v :: m.values := by
  simp [values, entries_erase_of_absent absent]

theorem values_perm_of_get? {m : FMap κ ν} {k : κ} {v : ν} (found : m.get? k = some v) :
    m.values.Perm (v :: (m.erase k).values) :=
  (entries_perm_of_get? found).map Prod.snd

theorem mem_values_of_get? {m : FMap κ ν} {k : κ} {v : ν} (found : m.get? k = some v) :
    v ∈ m.values :=
  List.mem_map.mpr ⟨(k, v), get?_eq_some.mp found, rfl⟩

/-- Maps that answer every key alike, up to a view of the values, list the same views. -/
theorem values_perm_of_views {ν' μ : Type} {m : FMap κ ν} {m' : FMap κ ν'} {f : ν → μ} {g : ν' → μ}
    (same : ∀ k, (m.get? k).map f = (m'.get? k).map g) :
    (m.values.map f).Perm (m'.values.map g) := by
  -- Paired with their keys the views are duplicate-free, and the same on both sides.
  have leftNodup : (m.entries.map fun e => (e.1, f e.2)).Nodup :=
    List.Nodup.of_map Prod.fst (by simpa [Function.comp_def] using m.nodup)
  have rightNodup : (m'.entries.map fun e => (e.1, g e.2)).Nodup :=
    List.Nodup.of_map Prod.fst (by simpa [Function.comp_def] using m'.nodup)
  have paired : (m.entries.map fun e => (e.1, f e.2)).Perm (m'.entries.map fun e => (e.1, g e.2)) := by
    refine (List.perm_ext_iff_of_nodup leftNodup rightNodup).mpr ?_
    rintro ⟨k, view⟩
    have left : (k, view) ∈ (m.entries.map fun e => (e.1, f e.2)) ↔ (m.get? k).map f = some view := by
      simp only [List.mem_map, Prod.mk.injEq, Prod.exists, Option.map_eq_some_iff, get?_eq_some]
      aesop
    have right : (k, view) ∈ (m'.entries.map fun e => (e.1, g e.2)) ↔
        (m'.get? k).map g = some view := by
      simp only [List.mem_map, Prod.mk.injEq, Prod.exists, Option.map_eq_some_iff, get?_eq_some]
      aesop
    rw [left, right, same]
  simpa [values, List.map_map, Function.comp_def] using paired.map Prod.snd

/-- Maps that look alike count alike. -/
theorem count_of_views {μ : Type} {m m' : FMap κ ν} {f : ν → μ}
    (same : ∀ k, (m.get? k).map f = (m'.get? k).map f) (test : μ → Bool) :
    m.count (fun v => test (f v)) = m'.count fun v => test (f v) := by
  have counted : ∀ n : FMap κ ν, n.count (fun v => test (f v)) = (n.values.map f).countP test := by
    intro n
    simp [count, values, List.countP_map, Function.comp_def]
  rw [counted, counted, (values_perm_of_views same).countP_eq]

theorem key_unique_of_nodup {m : FMap κ ν} (distinct : m.values.Nodup) {j k : κ} {v : ν}
    (left : m.get? j = some v) (right : m.get? k = some v) : j = k := by
  have same := List.inj_on_of_nodup_map distinct (get?_eq_some.mp left) (get?_eq_some.mp right) rfl
  simpa using same

theorem get?_filterKeys (m : FMap κ ν) (p : κ → Bool) (k : κ) :
    (m.filterKeys p).get? k = if p k then m.get? k else none := by
  by_cases kept : p k = true
  · rw [if_pos kept]
    -- A stored pair with this key passes the filter, whatever its value.
    refine Option.ext fun v => ?_
    rw [get?_eq_some, get?_eq_some, filterKeys, List.mem_filter]
    exact ⟨fun member => member.1, fun member => ⟨member, kept⟩⟩
  · rw [if_neg kept, get?_eq_none]
    intro member
    obtain ⟨pair, stored, same⟩ := List.mem_map.mp member
    exact kept (same ▸ (List.mem_filter.mp stored).2)

/-- Of the pairs with one key, the last is found. -/
theorem get?_ofList (pairs : List (κ × ν)) (k : κ) :
    (ofList pairs).get? k = (pairs.reverse.find? fun pair => decide (pair.1 = k)).map Prod.snd := by
  -- The fold starts from any map, whose own answer is the fallback.
  have general : ∀ (pairs : List (κ × ν)) (m : FMap κ ν),
      (pairs.foldl (fun m pair => m.insert pair.1 pair.2) m).get? k =
        ((pairs.reverse.find? fun pair => decide (pair.1 = k)).map Prod.snd).or (m.get? k) := by
    intro pairs
    induction pairs with
    | nil => intro m; simp
    | cons pair rest ih =>
      intro m
      rw [List.foldl_cons, ih, List.reverse_cons, List.find?_append, get?_insert]
      cases later : rest.reverse.find? fun pair => decide (pair.1 = k) with
      | some found => simp
      | none =>
        by_cases same : pair.1 = k
        · simp [same]
        · simp [same, Ne.symm same]
  simpa [ofList] using general pairs empty

theorem mem_keys_ofList {pairs : List (κ × ν)} {k : κ} :
    k ∈ (ofList pairs).keys ↔ k ∈ pairs.map Prod.fst := by
  rw [mem_keys]
  simp only [get?_ofList, Option.map_eq_some_iff]
  constructor
  · rintro ⟨v, pair, found, _⟩
    have member := List.mem_of_find?_eq_some found
    have named := List.find?_some found
    simp only [decide_eq_true_eq] at named
    exact List.mem_map.mpr ⟨pair, List.mem_reverse.mp member, named⟩
  · intro member
    obtain ⟨pair, stored, named⟩ := List.mem_map.mp member
    have some_found : (pairs.reverse.find? fun pair => decide (pair.1 = k)).isSome = true := by
      rw [List.find?_isSome]
      exact ⟨pair, List.mem_reverse.mpr stored, by simpa using named⟩
    obtain ⟨found, located⟩ := Option.isSome_iff_exists.mp some_found
    exact ⟨found.2, found, located, rfl⟩

theorem mem_of_get?_ofList {pairs : List (κ × ν)} {k : κ} {v : ν}
    (found : (ofList pairs).get? k = some v) : (k, v) ∈ pairs := by
  rw [get?_ofList, Option.map_eq_some_iff] at found
  obtain ⟨⟨j, w⟩, located, same⟩ := found
  have member := List.mem_reverse.mp (List.mem_of_find?_eq_some located)
  have named := List.find?_some located
  simp only [decide_eq_true_eq] at named same
  subst named same
  exact member

end FMap

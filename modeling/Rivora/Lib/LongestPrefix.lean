import Mathlib.Data.List.MinMax
import Mathlib.Data.Nat.Bitwise

/-!
Longest-prefix match over strings of bits.

Data are compared bit by bit, most significant bit first, the way a prefix trie walks its keys. For a
number of a known width that is a comparison of quotients.
-/

namespace Rivora.Bits

/-- A number as a string of `width` bits, most significant first. -/
def ofNat (width n : Nat) : List Bool := (List.range width).map fun i => n.testBit (width - 1 - i)

@[simp] theorem length_ofNat (width n : Nat) : (ofNat width n).length = width := by
  simp [ofNat]

/-- Two numbers begin with the same bits exactly if they agree without the bits that follow. -/
theorem take_ofNat_eq_iff {width count a b : Nat} (fits : count ≤ width) (small : a < 2 ^ width)
    (small' : b < 2 ^ width) :
    (ofNat width a).take count = (ofNat width b).take count ↔
      a / 2 ^ (width - count) = b / 2 ^ (width - count) := by
  constructor
  · intro same
    -- Bit by bit; beyond the width both have none.
    refine Nat.eq_of_testBit_eq fun j => ?_
    rw [Nat.testBit_div_two_pow, Nat.testBit_div_two_pow]
    by_cases inside : j + (width - count) < width
    · have at_ := congrArg (fun l => l[width - 1 - (j + (width - count))]?) same
      have first : width - 1 - (j + (width - count)) < count := by omega
      simp only [ofNat, List.getElem?_take_of_lt first] at at_
      rw [List.getElem?_map, List.getElem?_map, List.getElem?_range (by omega)] at at_
      simpa [show width - 1 - (width - 1 - (j + (width - count))) = j + (width - count) by omega]
        using at_
    · have wide : 2 ^ width ≤ 2 ^ (j + (width - count)) := Nat.pow_le_pow_right (by omega) (by omega)
      rw [Nat.testBit_lt_two_pow (by omega), Nat.testBit_lt_two_pow (by omega)]
  · intro same
    refine List.ext_getElem (by simp) fun i below _ => ?_
    have first : i < count := by
      simp only [List.length_take, length_ofNat] at below
      omega
    have bit := congrArg (fun n => n.testBit (count - 1 - i)) same
    simp only [Nat.testBit_div_two_pow,
      show count - 1 - i + (width - count) = width - 1 - i by omega] at bit
    simpa [ofNat] using bit

theorem ofNat_inj {width a b : Nat} (small : a < 2 ^ width) (small' : b < 2 ^ width)
    (same : ofNat width a = ofNat width b) : a = b := by
  have whole := (take_ofNat_eq_iff (Nat.le_refl width) small small').mp (congrArg _ same)
  simpa using whole

theorem ofNat_digits {w v a b : Nat} (small : b < 2 ^ v) :
    ofNat (w + v) (a * 2 ^ v + b) = ofNat w a ++ ofNat v b := by
  refine List.ext_getElem (by simp) fun i below _ => ?_
  have inside : i < w + v := by simpa using below
  rw [List.getElem_append]
  split
  · rename_i high
    have upper : i < w := by simpa using high
    simp only [ofNat, List.getElem_map, List.getElem_range]
    rw [Nat.mul_comm, Nat.testBit_two_pow_mul_add a small, if_neg (by omega)]
    congr 1
    omega
  · rename_i low
    have lower : w ≤ i := by simpa using low
    simp only [ofNat, List.getElem_map, List.getElem_range, List.length_map, List.length_range]
    rw [Nat.mul_comm, Nat.testBit_two_pow_mul_add a small, if_pos (by omega)]
    congr 1
    omega

/-- The bits of a sequence of bytes. -/
def ofBytes (bytes : List UInt8) : List Bool := bytes.flatMap fun b => ofNat 8 b.toNat

@[simp] theorem length_ofBytes (bytes : List UInt8) : (ofBytes bytes).length = 8 * bytes.length := by
  induction bytes with
  | nil => rfl
  | cons b rest ih =>
    simp only [ofBytes, List.flatMap_cons, List.length_append, length_ofNat, List.length_cons] at ih ⊢
    omega

theorem ofBytes_append (first second : List UInt8) :
    ofBytes (first ++ second) = ofBytes first ++ ofBytes second :=
  List.flatMap_append

/-- Bytes are determined by their bits. -/
theorem ofBytes_inj {a b : List UInt8} (same : ofBytes a = ofBytes b) : a = b := by
  have lengths := congrArg List.length same
  rw [length_ofBytes, length_ofBytes] at lengths
  induction a generalizing b with
  | nil =>
    cases b with
    | nil => rfl
    | cons y rest => simp at lengths
  | cons x rest ih =>
    cases b with
    | nil => simp at lengths
    | cons y rest' =>
      obtain ⟨first, later⟩ := List.append_inj same (by simp)
      have head : x = y := UInt8.toNat_inj.mp (ofNat_inj x.toNat_lt y.toNat_lt first)
      rw [head, ih later (by simp at lengths; omega)]

/-- A stored prefix: how many of its bits count, and the bits. -/
structure Prefixed where
  length : Nat
  bits : List Bool

/-- Data begin with a stored prefix. -/
def Prefixed.Begins (stored : Prefixed) (data : List Bool) : Prop :=
  stored.length ≤ data.length ∧ stored.bits.take stored.length = data.take stored.length

instance (stored : Prefixed) (data : List Bool) : Decidable (stored.Begins data) :=
  inferInstanceAs (Decidable (_ ∧ _))

/-- What the longest stored prefix of some data is mapped to. -/
def longest {ν : Type} (entries : List (Prefixed × ν)) (data : List Bool) : Option ν :=
  ((entries.filter fun e => e.1.Begins data).argmax fun e => e.1.length).map Prod.snd

section

variable {ν : Type} {entries : List (Prefixed × ν)} {data : List Bool}

/-- Nothing is found if no entry begins the data. -/
theorem longest_eq_none (missing : ∀ e ∈ entries, ¬ e.1.Begins data) : longest entries data = none := by
  unfold longest
  rw [List.filter_eq_nil_iff.mpr fun e member => by simpa using missing e member]
  rfl

/-- An entry that begins the data is found, unless a longer one has another value. -/
theorem longest_eq_some {e : Prefixed × ν} (member : e ∈ entries) (begins : e.1.Begins data)
    (decides : ∀ e' ∈ entries, e'.1.Begins data → e.1.length ≤ e'.1.length → e'.2 = e.2) :
    longest entries data = some e.2 := by
  unfold longest
  have listed : e ∈ entries.filter fun e => e.1.Begins data :=
    List.mem_filter.mpr ⟨member, by simpa using begins⟩
  cases best : (entries.filter fun e => e.1.Begins data).argmax fun e => e.1.length with
  | none =>
    rw [List.argmax_eq_none] at best
    rw [best] at listed
    cases listed
  | some e' =>
    obtain ⟨inside, begins'⟩ := List.mem_filter.mp (List.argmax_mem best)
    have longer : e.1.length ≤ e'.1.length :=
      List.le_of_mem_argmax (f := fun e : Prefixed × ν => e.1.length) listed best
    rw [Option.map_some, decides e' inside (by simpa using begins') longer]

end

theorem findSome?_reverse_range {ν : Type} {f : Nat → Option ν} {n : Nat} {v : ν}
    (found : (List.range n).reverse.findSome? f = some v) :
    ∃ i < n, f i = some v ∧ ∀ j, i < j → j < n → f j = none := by
  induction n with
  | zero => cases found
  | succ n ih =>
    rw [List.range_succ, List.reverse_append, List.reverse_singleton, List.singleton_append,
      List.findSome?_cons] at found
    cases top : f n with
    | some w =>
      rw [top] at found
      cases found
      exact ⟨n, Nat.lt_succ_self n, top, fun j above below => by omega⟩
    | none =>
      rw [top] at found
      obtain ⟨i, below, here, above⟩ := ih found
      refine ⟨i, by omega, here, fun j larger small => ?_⟩
      by_cases last : j = n
      · rw [last, top]
      · exact above j larger (by omega)

end Rivora.Bits

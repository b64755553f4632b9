import Mathlib.Algebra.Ring.Parity
import Mathlib.Data.ZMod.Basic
import Mathlib.Tactic.LinearCombination
import Mathlib.Tactic.Ring
import Rivora.Lib.Splice

/-!
The Internet checksum: bytes are added as 16-bit words in one's complement arithmetic.

A sum with end-around carry is a residue modulo 65535, of which zero has two representations.
-/

namespace InternetChecksum

open Splice

/-- The sum of the big-endian 16-bit words of a text; a last odd byte is padded with zero. -/
def wordSum : List UInt8 → Nat
  | [] => 0
  | [a] => a.toNat * 256
  | a :: b :: rest => a.toNat * 256 + b.toNat + wordSum rest

/-- The sum of the words as a little-endian machine loads them. -/
def hostSum : List UInt8 → Nat
  | [] => 0
  | [a] => a.toNat
  | a :: b :: rest => a.toNat + b.toNat * 256 + hostSum rest

/-- The addition of 16-bit words with end-around carry. -/
def onesAdd (a b : Nat) : Nat := (a + b) % 65536 + (a + b) / 65536

/-- The one's complement sum of the words of a text. -/
def onesSum : List UInt8 → Nat
  | [] => 0
  | [a] => a.toNat * 256
  | a :: b :: rest => onesAdd (a.toNat * 256 + b.toNat) (onesSum rest)

/-- A text with its checksum in place is valid: its words add up to all ones. -/
def Valid (text : List UInt8) : Prop := onesSum text = 65535

instance (text : List UInt8) : Decidable (Valid text) := inferInstanceAs (Decidable (_ = _))

/-- The residue of a text's sum. -/
def residue (text : List UInt8) : ZMod 65535 := (wordSum text : ZMod 65535)

theorem modulus_zero : ((65535 : Nat) : ZMod 65535) = 0 := ZMod.natCast_self 65535

theorem word_one : (65536 : ZMod 65535) = 1 := by
  have zero : (65535 : ZMod 65535) = 0 := by exact_mod_cast modulus_zero
  linear_combination zero

/-- The sum with its carry, modulo the largest word. -/
theorem onesAdd_spec {a b : Nat} (small : a ≤ 65535) (small' : b ≤ 65535) :
    onesAdd a b ≤ 65535 ∧ onesAdd a b % 65535 = (a + b) % 65535 ∧ (onesAdd a b = 0 ↔ a + b = 0) := by
  unfold onesAdd
  omega

/-- So the sum of a text. -/
theorem onesSum_spec : ∀ text : List UInt8,
    onesSum text ≤ 65535 ∧ onesSum text % 65535 = wordSum text % 65535 ∧
      (onesSum text = 0 ↔ wordSum text = 0)
  | [] => by simp [onesSum, wordSum]
  | [a] => by
    have := a.toNat_lt
    exact ⟨by rw [onesSum]; omega, rfl, Iff.rfl⟩
  | a :: b :: rest => by
    obtain ⟨bound, same, zero⟩ := onesSum_spec rest
    have := a.toNat_lt
    have := b.toNat_lt
    obtain ⟨bound', same', zero'⟩ := @onesAdd_spec (a.toNat * 256 + b.toNat) (onesSum rest)
      (by omega) bound
    simp only [onesSum, wordSum]
    omega

/-- A text is valid if it sums up to zero but is not all zeros. -/
theorem valid_iff {text : List UInt8} : Valid text ↔ residue text = 0 ∧ wordSum text ≠ 0 := by
  obtain ⟨bound, same, zero⟩ := onesSum_spec text
  rw [Valid, residue, ZMod.natCast_eq_zero_iff, Nat.dvd_iff_mod_eq_zero]
  omega

theorem wordSum_append : ∀ {front : List UInt8}, Even front.length → ∀ text : List UInt8,
    wordSum (front ++ text) = wordSum front + wordSum text
  | [], _, text => by simp [wordSum]
  | [a], even, text => by simp at even
  | a :: b :: rest, even, text => by
    have shorter : Even rest.length := by
      simp only [List.length_cons] at even
      exact (Nat.even_add.mp (show Even (rest.length + 2) from even)).mpr even_two
    simp only [List.cons_append, wordSum, wordSum_append shorter text]
    omega

/-- Texts of even length add up. -/
theorem residue_append {front : List UInt8} (even : Even front.length) (text : List UInt8) :
    residue (front ++ text) = residue front + residue text := by
  simp only [residue, wordSum_append even]
  push_cast
  rfl

/-- A new field replaces the share of the old one. -/
theorem residue_patch {text new : List UInt8} {off : Nat} (place : Even off) (size : Even new.length)
    (inside : off + new.length ≤ text.length) :
    residue (patch text off new) = residue text - residue (slice text off new.length) + residue new := by
  have front : Even (text.take off).length := by
    rw [List.length_take, Nat.min_eq_left (by omega)]
    exact place
  have middle : Even (slice text off new.length).length := by
    rw [length_slice inside]
    exact size
  have before : residue text = residue (text.take off) +
      (residue (slice text off new.length) + residue (text.drop (off + new.length))) := by
    conv_lhs => rw [split_at_slice text off new.length]
    rw [residue_append front, residue_append middle]
  rw [patch, List.append_assoc, residue_append front, residue_append size, before]
  ring

/-- The residue of a region of a text, with what is summed behind it. -/
def regionSum (text : List UInt8) (start stop : Nat) (tail : List UInt8) : ZMod 65535 :=
  residue (slice text start (stop - start) ++ tail)

section Regions

variable {text new : List UInt8} {start stop off : Nat}

/-- So it does in the sum of a region around it. -/
theorem regionSum_patch (tail : List UInt8) (before : start ≤ off) (behind : off + new.length ≤ stop)
    (inside : stop ≤ text.length) (aligned : off % 2 = start % 2) (size : new.length % 2 = 0) :
    regionSum (patch text off new) start stop tail =
      regionSum text start stop tail - residue (slice text off new.length) + residue new := by
  have length : (slice text start (stop - start)).length = stop - start := length_slice (by omega)
  have place : Even (off - start) := Nat.even_iff.mpr (by omega)
  have part : slice (slice text start (stop - start) ++ tail) (off - start) new.length =
      slice text off new.length := by
    rw [slice_append (by omega), slice_slice (by omega)]
    congr 1
    omega
  -- The part lies in front of the tail, so the region is changed in the same place.
  rw [regionSum, slice_patch_of_inside before (by omega) (by omega), ← patch_append (by omega),
    residue_patch place (Nat.even_iff.mpr size) (by rw [List.length_append]; omega), part]
  rfl

/-- Elsewhere it does not matter. -/
theorem regionSum_patch_of_apart (tail : List UInt8) (inside : off + new.length ≤ text.length)
    (apart : off + new.length ≤ start ∨ stop ≤ off) :
    regionSum (patch text off new) start stop tail = regionSum text start stop tail := by
  rcases Nat.le_total stop start with empty | proper
  · simp only [regionSum, Nat.sub_eq_zero_of_le empty, slice, List.take_zero]
  · rw [regionSum, slice_patch_of_apart inside (by omega)]
    rfl

theorem regionSum_confined {places : List (Nat × Nat)} {text' : List UInt8} (confined : Confined places text text')
    (tail : List UInt8) (apart : ∀ p ∈ places, stop ≤ p.1 ∨ p.1 + p.2 ≤ start) :
    regionSum text' start stop tail = regionSum text start stop tail := by
  rcases Nat.le_total stop start with empty | proper
  · simp only [regionSum, Nat.sub_eq_zero_of_le empty, slice, List.take_zero]
  · rw [regionSum, confined.slice]
    · rfl
    · intro p place
      have := apart p place
      omega

/-- A region in which two texts differ by one part alone. -/
theorem regionSum_replaced {places : List (Nat × Nat)} {text' : List UInt8} (confined : Confined places text text')
    (written : slice text' off new.length = new) (tail : List UInt8)
    (others : ∀ p ∈ places, p = (off, new.length) ∨ stop ≤ p.1 ∨ p.1 + p.2 ≤ start) (before : start ≤ off)
    (behind : off + new.length ≤ stop) (inside : stop ≤ text.length) (aligned : off % 2 = start % 2)
    (size : new.length % 2 = 0) :
    regionSum text' start stop tail =
      regionSum text start stop tail - residue (slice text off new.length) + residue new := by
  have same : slice text' start (stop - start) = slice (patch text off new) start (stop - start) := by
    apply List.ext_getElem?
    intro i
    rw [getElem?_slice, getElem?_slice]
    split
    · rw [getElem?_patch (by omega)]
      split
      · nth_rewrite 1 [← written]
        rw [getElem?_slice, if_pos (by omega), Nat.add_sub_cancel' (by omega)]
      · apply confined.same
        intro p place
        obtain rfl | apart := others p place <;> omega
    · rfl
  rw [← regionSum_patch tail before behind inside aligned size, regionSum, same]
  rfl

end Regions

theorem wordSum_pos_of_mem : ∀ {text : List UInt8} {b : UInt8}, b ∈ text → b ≠ 0 → 0 < wordSum text
  | [a], b, mem, nonzero => by
    rw [List.mem_singleton] at mem
    subst mem
    have : 0 < b.toNat := UInt8.pos_iff_ne_zero.mpr nonzero
    rw [wordSum]
    omega
  | a :: a' :: rest, b, mem, nonzero => by
    have : 0 < b.toNat := UInt8.pos_iff_ne_zero.mpr nonzero
    rw [wordSum]
    rcases List.mem_cons.mp mem with rfl | mem
    · omega
    · rcases List.mem_cons.mp mem with rfl | mem
      · omega
      · have := wordSum_pos_of_mem mem nonzero
        omega

theorem Valid.of_residue {text text' : List UInt8} (valid : Valid text) (same : residue text' = residue text)
    {b : UInt8} (mem : b ∈ text') (nonzero : b ≠ 0) : Valid text' := by
  rw [valid_iff] at valid ⊢
  exact ⟨same.trans valid.1, (wordSum_pos_of_mem mem nonzero).ne'⟩

/-- Words read in host order sum up to 256 times as much. -/
theorem hostSum_residue : ∀ text : List UInt8, (hostSum text : ZMod 65535) = 256 * residue text
  | [] => by simp [hostSum, residue, wordSum]
  | [a] => by
    simp only [hostSum, residue, wordSum]
    push_cast
    linear_combination (-(a.toNat : ZMod 65535)) * word_one
  | a :: b :: rest => by
    have later := hostSum_residue rest
    simp only [hostSum, residue, wordSum] at later ⊢
    push_cast
    linear_combination later - (a.toNat : ZMod 65535) * word_one

theorem residue_of_hostSum (text : List UInt8) : residue text = 256 * (hostSum text : ZMod 65535) := by
  rw [hostSum_residue]
  linear_combination (-residue text) * word_one

end InternetChecksum

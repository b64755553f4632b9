import Rivora.Bpf.Frame

/-! The extension headers of an IPv6 packet as a grammar, and the walk over them as its recogniser. -/

namespace Rivora

namespace Frame

/-- What a Fragment header says of its fragment. -/
structure FragmentHeader where
  more : Bool
  offset : UInt16
  id : UInt32

/-- The Fragment header at a place: the offset in the high thirteen bits, the flag in the lowest one. -/
def fragmentHeader (f : Frame) (h : Nat) : FragmentHeader :=
  let fo := htons (f.load16 (h + 2))
  ⟨fo &&& 0x0001 ≠ 0, fo &&& 0xfff8, f.load32 (h + 4)⟩

/--
The headers from an offset behind the fixed header on, with the value in front that names the first of them.

An options header is listed as nothing. The chain ends at an offset with the value that names another protocol.
-/
inductive Headers (f : Frame) (l3 : Nat) : UInt8 → Nat → List (Option FragmentHeader) → UInt8 → Nat → Prop
  | done {nh : UInt8} {off : Nat} (upper : isOptions nh = false ∧ nh ≠ 44) : Headers f l3 nh off [] nh off
  | options {nh proto : UInt8} {off stop : Nat} {rest : List (Option FragmentHeader)}
    (skipped : isOptions nh = true) (whole : l3 + 40 + off + 2 ≤ f.length)
    (behind : Headers f l3 (f.byte (l3 + 40 + off)) (off + ((f.byte (l3 + 40 + off + 1)).toNat + 1) * 8) rest
      proto stop) : Headers f l3 nh off (none :: rest) proto stop
  | fragment {proto : UInt8} {off stop : Nat} {rest : List (Option FragmentHeader)}
    (whole : l3 + 40 + off + 8 ≤ f.length)
    (behind : Headers f l3 (f.byte (l3 + 40 + off)) (off + 8) rest proto stop) :
    Headers f l3 44 off (some (f.fragmentHeader (l3 + 40 + off)) :: rest) proto stop

/-- What the walk returns: the length of the chain, and its Fragment header if there is one. -/
def Walk.of (off : Nat) : Option FragmentHeader → Walk
  | none => ⟨off, false, false, 0, 0⟩
  | some header => ⟨off, true, header.more, header.offset, header.id⟩

section Grammar

variable {f : Frame} {l3 off stop : Nat} {nh proto : UInt8} {headers : List (Option FragmentHeader)}

theorem Headers.le (chain : Headers f l3 nh off headers proto stop) : off ≤ stop := by
  induction chain with
  | done => exact Nat.le_refl _
  | options _ _ _ ih => omega
  | fragment _ _ ih => omega

theorem Headers.units (chain : Headers f l3 nh off headers proto stop) : stop % 8 = off % 8 := by
  induction chain with
  | done => rfl
  | options _ _ _ ih => omega
  | fragment _ _ ih => omega

/-- What the walk has to find from an offset on, with a Fragment header seen before or not. -/
def Finds (f : Frame) (l3 steps : Nat) (nh : UInt8) (off : Nat) (seen : Option FragmentHeader) (proto : UInt8)
    (w : Walk) : Prop :=
  ∃ headers stop found, w = .of stop found ∧ Headers f l3 nh off headers proto stop ∧ headers.length ≤ steps ∧
    stop ≤ 248 ∧ seen.toList ++ headers.filterMap id = found.toList

variable {steps : Nat} {seen : Option FragmentHeader} {w : Walk}

theorem walk_of_direct (direct : isOptions nh = false ∧ nh ≠ 44) (steps : Nat) (w : Walk) :
    f.walk l3 steps nh w = some (nh, w) := by
  cases steps with
  | zero => simp [walk, direct]
  | succ steps => simp [walk, direct]

theorem finds_of_direct (direct : isOptions nh = false ∧ nh ≠ 44) (small : off ≤ 248) :
    Finds f l3 steps nh off seen proto w ↔ (nh, Walk.of off seen) = (proto, w) := by
  constructor
  · rintro ⟨headers, stop, found, rfl, chain, -, -, listed⟩
    cases chain with
    | done => cases seen <;> cases found <;> simp_all
    | options skipped => cases skipped.symm.trans direct.1
    | fragment => exact absurd rfl direct.2
  · intro same
    cases same
    exact ⟨[], off, seen, rfl, .done direct, Nat.zero_le _, small, by simp⟩

theorem finds_of_options (skipped : isOptions nh = true) :
    Finds f l3 (steps + 1) nh off seen proto w ↔ l3 + 40 + off + 2 ≤ f.length ∧
      Finds f l3 steps (f.byte (l3 + 40 + off)) (off + ((f.byte (l3 + 40 + off + 1)).toNat + 1) * 8) seen
        proto w := by
  constructor
  · rintro ⟨headers, stop, found, rfl, chain, few, near, listed⟩
    cases chain with
    | done upper => cases skipped.symm.trans upper.1
    | options _ whole behind =>
      exact ⟨whole, _, stop, found, rfl, behind, Nat.le_of_succ_le_succ few, near, listed⟩
    | fragment => cases skipped
  · rintro ⟨whole, rest, stop, found, rfl, behind, few, near, listed⟩
    exact ⟨none :: rest, stop, found, rfl, .options skipped whole behind, Nat.succ_le_succ few, near, listed⟩

theorem finds_of_fragment :
    Finds f l3 (steps + 1) 44 off seen proto w ↔ seen = none ∧ l3 + 40 + off + 8 ≤ f.length ∧
      Finds f l3 steps (f.byte (l3 + 40 + off)) (off + 8) (some (f.fragmentHeader (l3 + 40 + off))) proto w := by
  constructor
  · rintro ⟨headers, stop, found, rfl, chain, few, near, listed⟩
    cases chain with
    | done upper => exact absurd rfl upper.2
    | options skipped => cases skipped
    | fragment whole behind =>
      have first : seen = none := by cases seen <;> cases found <;> simp_all
      subst first
      exact ⟨rfl, whole, _, stop, found, rfl, behind, Nat.le_of_succ_le_succ few, near, listed⟩
  · rintro ⟨rfl, whole, rest, stop, found, rfl, behind, few, near, listed⟩
    exact ⟨_, stop, found, rfl, .fragment whole behind, Nat.succ_le_succ few, near, listed⟩

theorem Finds.le (finds : Finds f l3 steps nh off seen proto w) : off ≤ 248 := by
  obtain ⟨_, _, _, _, chain, _, near, _⟩ := finds
  exact chain.le.trans near

theorem Finds.direct (finds : Finds f l3 0 nh off seen proto w) : isOptions nh = false ∧ nh ≠ 44 := by
  obtain ⟨_, _, _, _, chain, few, _⟩ := finds
  cases chain with
  | done upper => exact upper
  | options => cases few
  | fragment => cases few

theorem walk_eq_some (small : off ≤ 248) :
    f.walk l3 steps nh (.of off seen) = some (proto, w) ↔ Finds f l3 steps nh off seen proto w := by
  induction steps generalizing nh off seen with
  | zero =>
    rw [walk]
    split
    · rename_i walked
      refine ⟨(fun nothing => by cases nothing), fun finds => ?_⟩
      simp [finds.direct] at walked
    · rename_i upper
      rw [finds_of_direct (by simpa using upper) small, Option.some_inj]
  | succ steps ih =>
    have place : (Walk.of off seen).off = off := by cases seen <;> rfl
    have masked : off % 256 = off := Nat.mod_eq_of_lt (by omega)
    simp only [walk, place, masked]
    split
    · rename_i skipped
      rw [finds_of_options skipped]
      split
      · exact ⟨(fun nothing => by cases nothing), fun finds => by omega⟩
      · rename_i whole
        split
        · refine ⟨(fun nothing => by cases nothing), fun finds => ?_⟩
          have := finds.2.le
          omega
        · rename_i near
          have moved : ∀ off', { Walk.of off seen with off := off' } = Walk.of off' seen := by
            cases seen <;> exact fun _ => rfl
          rw [moved, ih (by omega), and_iff_right (by omega)]
    · rename_i upper
      split
      · rename_i named
        subst named
        rw [finds_of_fragment]
        cases seen with
        | some header => exact ⟨(fun nothing => by cases nothing), fun finds => by cases finds.1⟩
        | none =>
          rw [if_neg (by simp [Walk.of]), and_iff_right rfl]
          split
          · exact ⟨(fun nothing => by cases nothing), fun finds => by omega⟩
          · split
            · refine ⟨(fun nothing => by cases nothing), fun finds => ?_⟩
              have := finds.2.le
              omega
            · rename_i near
              rw [and_iff_right (by omega)]
              have rest := @ih (off + 8) (f.byte (l3 + 40 + off)) (some (f.fragmentHeader (l3 + 40 + off)))
              exact rest (Nat.le_of_not_lt near)
      · rename_i other
        rw [finds_of_direct ⟨by simpa using upper, other⟩ small, Option.some_inj]

/--
The walk succeeds for a chain of at most four headers and 248 bytes with at most one Fragment header, and no other.

It returns the length, which the mask leaves as it is, the protocol and what the Fragment header says.
-/
theorem walk_recognises_chains (f : Frame) (l3 : Nat) (proto : UInt8) (w : Walk) :
    (f.walk l3 4 (f.byte (l3 + 6)) ⟨0, false, false, 0, 0⟩ = some (proto, w) ↔
      ∃ headers stop found, w = .of stop found ∧ Headers f l3 (f.byte (l3 + 6)) 0 headers proto stop ∧
        headers.length ≤ 4 ∧ stop ≤ 248 ∧ headers.filterMap id = found.toList) ∧
      (f.walk l3 4 (f.byte (l3 + 6)) ⟨0, false, false, 0, 0⟩ = some (proto, w) →
        w.off % 8 = 0 ∧ w.off &&& 0xff = w.off) := by
  have found := @walk_eq_some f l3 0 (f.byte (l3 + 6)) proto 4 none w (Nat.zero_le 248)
  refine ⟨found, fun walked => ?_⟩
  obtain ⟨headers, stop, seen, rfl, chain, -, near, -⟩ := found.mp walked
  have place : (Walk.of stop seen).off = stop := by cases seen <;> rfl
  rw [place, Nat.and_two_pow_sub_one_eq_mod stop 8]
  exact ⟨chain.units, Nat.mod_eq_of_lt (by omega)⟩

/-- A Fragment header alone, of a fragment with more behind it. -/
theorem single_fragment_walked : ∃ headers stop found, (⟨8, true, true, 8, 0x04030201⟩ : Walk) = .of stop found ∧
    Headers (List.replicate 6 0 ++ 44 :: List.replicate 33 0 ++ [17, 0, 0, 9, 1, 2, 3, 4]) 0 44 0 headers 17 stop ∧
    headers.length ≤ 4 ∧ stop ≤ 248 ∧ headers.filterMap id = found.toList :=
  (walk_recognises_chains (List.replicate 6 0 ++ 44 :: List.replicate 33 0 ++ [17, 0, 0, 9, 1, 2, 3, 4]) 0 17
    _).1.mp (by decide)

end Grammar

end Frame

end Rivora

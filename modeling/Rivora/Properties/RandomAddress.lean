import Mathlib.Data.Nat.Bitwise
import Mathlib.SetTheory.Cardinal.Finite
import Rivora.Ipam.AllocatorLaws
import Rivora.Properties.PoolContents

/-! Addresses drawn at random from a block. -/

namespace Rivora.Ipam

open Netip

/-- One bit of bytes in network order, the highest of the first byte first. -/
def bitOf (bytes : Nat → UInt8) (k : Nat) : Bool := (bytes (k / 8)).toNat.testBit (7 - k % 8)

/-- A byte of a list, zero beyond its end. -/
def padded (bytes : List UInt8) (i : Nat) : UInt8 := bytes.getD i 0

section Bits

variable {p q : Nat}

theorem toNat_bit (small : p < 8) : ((1 : UInt8) <<< UInt8.ofNat p).toNat = 2 ^ p := by
  interval_cases p <;> rfl

theorem testBit_put (byte : UInt8) (on : Bool) (small : p < 8) (small' : q < 8) :
    (if on then byte ||| 1 <<< UInt8.ofNat p else byte &&& ~~~(1 <<< UInt8.ofNat p)).toNat.testBit q =
      if q = p then on else byte.toNat.testBit q := by
  have below : 2 ^ p < 2 ^ 8 := Nat.pow_lt_pow_right (by omega) small
  cases on with
  | true =>
    rw [if_pos rfl, UInt8.toNat_or, toNat_bit small, Nat.testBit_or, Nat.testBit_two_pow]
    split <;> simp_all [eq_comm]
  | false =>
    have flipped : (~~~((1 : UInt8) <<< UInt8.ofNat p)).toNat = 2 ^ 8 - (2 ^ p + 1) := by
      rw [UInt8.toNat_not, toNat_bit small, UInt8.size]
      omega
    rw [if_neg Bool.false_ne_true, UInt8.toNat_and, flipped, Nat.testBit_and,
      Nat.testBit_two_pow_sub_succ below, Nat.testBit_two_pow]
    split <;> simp_all [eq_comm]

theorem and_bit_ne_zero (byte : UInt8) (small : p < 8) :
    decide (byte &&& 1 <<< UInt8.ofNat p ≠ 0) = byte.toNat.testBit p := by
  have zero : byte &&& 1 <<< UInt8.ofNat p = 0 ↔ (byte.toNat &&& 2 ^ p) = 0 := by
    rw [← UInt8.toNat_inj, UInt8.toNat_and, toNat_bit small, UInt8.toNat_zero]
  rw [Nat.and_two_pow] at zero
  cases set : byte.toNat.testBit p <;> simp [zero, set]

variable {bytes : List UInt8} {k : Nat}

theorem bitOf_putBit {at_ : Nat} (inside : at_ < 8 * bytes.length) (on : Bool) (k : Nat) :
    bitOf (padded (putBit bytes at_ on)) k = if k = at_ then on else bitOf (padded bytes) k := by
  unfold bitOf padded putBit
  rw [List.getD_eq_getElem?_getD, List.getD_eq_getElem?_getD, List.getElem?_modify]
  by_cases here : at_ / 8 = k / 8
  · have byte : bytes[k / 8]? = some bytes[k / 8] := List.getElem?_eq_getElem (by omega)
    have set := testBit_put bytes[k / 8] on (show 7 - at_ % 8 < 8 by omega) (show 7 - k % 8 < 8 by omega)
    simp only [here, if_true, byte, Option.map_eq_map, Option.map_some, Option.getD_some]
    rw [set]
    exact if_congr (by omega) rfl rfl
  · simp only [here, if_false, id_map']
    rw [if_neg (by rintro rfl; exact here rfl)]

theorem bitOf_fill {start n : Nat} (bit : Nat → Bool) (room : start + n ≤ 8 * bytes.length) :
    ((List.range n).foldl (fun out i => putBit out (start + i) (bit i)) bytes).length = bytes.length ∧
      ∀ k, bitOf (padded ((List.range n).foldl (fun out i => putBit out (start + i) (bit i)) bytes)) k =
        if start ≤ k ∧ k < start + n then bit (k - start) else bitOf (padded bytes) k := by
  induction n with
  | zero => exact ⟨rfl, fun k => by rw [if_neg (by omega)]; rfl⟩
  | succ n ih =>
    obtain ⟨sized, set⟩ := ih (by omega)
    rw [List.range_succ, List.foldl_append, List.foldl_cons, List.foldl_nil]
    refine ⟨by rw [putBit, List.length_modify, sized], fun k => ?_⟩
    rw [bitOf_putBit (by rw [sized]; omega), set]
    by_cases last : k = start + n
    · rw [if_pos last, if_pos (by omega), last, Nat.add_sub_cancel_left]
    · rw [if_neg last]
      exact if_congr (by omega) rfl rfl

theorem exists_bytes (n : Nat) (bit : Nat → Bool) : ∃ bytes : Nat → UInt8, ∀ i < n, bitOf bytes i = bit i := by
  have filled := (@bitOf_fill (List.replicate n 0) 0 n bit (by simp; omega)).2
  exact ⟨_, fun i inside => by rw [filled, if_pos (by omega), Nat.sub_zero]⟩

theorem testBit_bytesValue (bytes : List UInt8) {j : Nat} (inside : j < 8 * bytes.length) :
    (bytesValue bytes).testBit j = bitOf (padded bytes) (8 * bytes.length - 1 - j) := by
  induction bytes using List.reverseRecOn generalizing j with
  | nil => simp at inside
  | append_singleton bytes byte ih =>
    rw [bytesValue_concat, Nat.add_comm, show 256 = 2 ^ 8 from rfl, Nat.testBit_two_pow_mul_add _ byte.toNat_lt]
    simp only [List.length_append, List.length_singleton] at inside ⊢
    split
    · unfold bitOf padded
      rw [show (8 * (bytes.length + 1) - 1 - j) / 8 = bytes.length by omega,
        show 7 - (8 * (bytes.length + 1) - 1 - j) % 8 = j by omega]
      simp
    · rw [ih (by omega), show 8 * (bytes.length + 1) - 1 - j = 8 * bytes.length - 1 - (j - 8) by omega]
      unfold bitOf padded
      rw [List.getD_append _ _ _ _ (by omega)]

end Bits

section Draws

variable {pfx : Netip.Prefix} {a b : Netip.Addr}

theorem testBit_of_le {j : Nat} (outside : a.bitLen ≤ j) : a.value.testBit j = false :=
  Nat.testBit_lt_two_pow (a.value_lt.trans_le (Nat.pow_le_pow_right (by omega) outside))

theorem randomInPrefix_bits (pfx : Netip.Prefix) (random : Nat → UInt8) :
    ∃ a, randomInPrefix pfx random = some a ∧ a.zone = "" ∧ a.bitLen = pfx.addr.bitLen ∧
      ∀ j, a.value.testBit j =
        if j < pfx.hostBits then bitOf random (pfx.hostBits - 1 - j) else pfx.addr.value.testBit j := by
  have length : 8 * pfx.network.asSlice.length = pfx.addr.bitLen :=
    pfx.network.length_asSlice.trans (Addr.bitLen_withValue ..)
  have fits : pfx.bits + pfx.hostBits = pfx.addr.bitLen := Nat.add_sub_cancel' pfx.fits
  obtain ⟨sized, set⟩ :=
    @bitOf_fill pfx.network.asSlice pfx.bits pfx.hostBits (bitOf random) (by omega)
  have drawn : randomInPrefix pfx random = addrFromSlice ((List.range pfx.hostBits).foldl
      (fun out i => putBit out (pfx.bits + i) (bitOf random i)) pfx.network.asSlice) := by
    unfold randomInPrefix bitOf
    congr 3
    funext out i
    rw [and_bit_ne_zero _ (by omega)]
  obtain ⟨a, made, value, family, zone⟩ := addrFromSlice_spec sized
  have same := family.trans (Addr.bitLen_withValue ..)
  refine ⟨a, drawn.trans made, zone, same, fun j => ?_⟩
  rcases Nat.lt_or_ge j pfx.addr.bitLen with inside | outside
  · rw [value, testBit_bytesValue _ (by rw [sized]; omega), set, sized, length]
    split
    · rw [if_pos (by omega)]
      congr 1
      omega
    · -- The bits of the block are those of its first address.
      have above : pfx.hostBits ≤ j := by omega
      rw [if_neg (by omega), ← length, ← testBit_bytesValue _ (by omega), ← Addr.value_eq, Prefix.value_network,
        Nat.testBit_mul_two_pow, Nat.testBit_div_two_pow, Nat.sub_add_cancel above, decide_eq_true above,
        Bool.true_and]
  · rw [testBit_of_le (same ▸ outside), if_neg (by omega), testBit_of_le outside]

theorem randomInPrefix_eq_some {random : Nat → UInt8} :
    randomInPrefix pfx random = some a ↔
      pfx.contains a = true ∧ ∀ i < pfx.hostBits, bitOf random i = a.value.testBit (pfx.hostBits - 1 - i) := by
  obtain ⟨drawn, returned, zone, family, bits⟩ := randomInPrefix_bits pfx random
  rw [returned, Option.some_inj]
  simp only [Prefix.contains, Bool.and_eq_true, decide_eq_true_eq]
  constructor
  · rintro rfl
    refine ⟨⟨⟨zone, family⟩, Nat.eq_of_testBit_eq fun j => ?_⟩, fun i inside => ?_⟩
    · rw [Nat.testBit_div_two_pow, Nat.testBit_div_two_pow, bits, if_neg (by omega)]
    · rw [bits, if_pos (by omega), show pfx.hostBits - 1 - (pfx.hostBits - 1 - i) = i by omega]
  · rintro ⟨⟨⟨zone', family'⟩, block⟩, same⟩
    refine Addr.ext_value (family.trans family'.symm) (zone.trans zone'.symm) (Nat.eq_of_testBit_eq fun j => ?_)
    rw [bits]
    split
    · rw [same _ (by omega), show pfx.hostBits - 1 - (pfx.hostBits - 1 - j) = j by omega]
    · rename_i above
      have shifted := congrArg (Nat.testBit · (j - pfx.hostBits)) block
      simpa [Nat.testBit_div_two_pow, Nat.sub_add_cancel (Nat.le_of_not_lt above)] using shifted.symm

/-- The bytes drawn for the host part of a prefix. -/
abbrev Drawn (pfx : Netip.Prefix) : Type := Fin ((pfx.hostBits + 7) / 8) → UInt8

/-- The bytes drawn, by position. -/
def Drawn.bytes (drawn : Drawn pfx) (i : Nat) : UInt8 := if inside : i < _ then drawn ⟨i, inside⟩ else 0

theorem bitOf_drawn (bytes : Nat → UInt8) {i : Nat} (inside : i < pfx.hostBits) :
    bitOf (Drawn.bytes (fun k => bytes k : Drawn pfx)) i = bitOf bytes i := by
  unfold bitOf Drawn.bytes
  rw [dif_pos (by omega)]

theorem bitOf_turned (drawn : Drawn pfx) (mask : Nat → UInt8) {i : Nat} (inside : i < pfx.hostBits) :
    bitOf (Drawn.bytes (fun k => drawn k ^^^ mask k : Drawn pfx)) i = (bitOf drawn.bytes i ^^ bitOf mask i) := by
  unfold bitOf Drawn.bytes
  rw [dif_pos (by omega), dif_pos (by omega), UInt8.toNat_xor, Nat.testBit_xor]

/-- A draw gives an address of the block, every one of them, and each for as many values of the drawn bytes. -/
theorem draws_are_uniform (pfx : Netip.Prefix) :
    (∀ random, ∃ a, randomInPrefix pfx random = some a ∧ pfx.contains a = true) ∧
      (∀ a, pfx.contains a = true → ∃ drawn : Drawn pfx, randomInPrefix pfx drawn.bytes = some a) ∧
      ∀ a b, pfx.contains a = true → pfx.contains b = true →
        Nat.card { drawn : Drawn pfx // randomInPrefix pfx drawn.bytes = some a } =
          Nat.card { drawn : Drawn pfx // randomInPrefix pfx drawn.bytes = some b } := by
  refine ⟨fun random => ?_, fun a inside => ?_, fun a b inside inside' => ?_⟩
  · obtain ⟨a, returned, -⟩ := randomInPrefix_bits pfx random
    exact ⟨a, returned, (randomInPrefix_eq_some.mp returned).1⟩
  · obtain ⟨bytes, bits⟩ := exists_bytes pfx.hostBits fun i => a.value.testBit (pfx.hostBits - 1 - i)
    exact ⟨fun k => bytes k, randomInPrefix_eq_some.mpr ⟨inside, fun i below => by
      rw [bitOf_drawn bytes below, bits i below]⟩⟩
  · -- Turning the bits around in which the two differ makes draws of the one draws of the other.
    obtain ⟨mask, bits⟩ := exists_bytes pfx.hostBits fun i =>
      a.value.testBit (pfx.hostBits - 1 - i) ^^ b.value.testBit (pfx.hostBits - 1 - i)
    have twice : Function.Involutive fun (drawn : Drawn pfx) k => drawn k ^^^ mask k := by
      intro drawn
      funext k
      dsimp only
      rw [UInt8.xor_assoc, UInt8.xor_self, UInt8.xor_zero]
    refine Nat.card_congr (twice.toPerm.subtypeEquiv fun drawn => ?_)
    rw [randomInPrefix_eq_some, randomInPrefix_eq_some, and_iff_right inside, and_iff_right inside']
    refine forall₂_congr fun i below => ?_
    rw [Function.Involutive.coe_toPerm, bitOf_turned drawn mask below, bits i below]
    generalize a.value.testBit (pfx.hostBits - 1 - i) = x, b.value.testBit (pfx.hostBits - 1 - i) = y,
      bitOf drawn.bytes i = z
    cases x <;> cases y <;> cases z <;> decide

end Draws

/-- An automatic allocation after some calls gives an object without an address one of a pool. -/
structure GivesAny (calls : List (Call × Chance)) (chance : Chance) (key preferredPool name ip : String) : Prop
  where
  fresh : (Run.run Allocator.step .new calls).ownerAddr.get? key = none
  given : ((Run.run Allocator.step .new calls).allocate chance key preferredPool "").1 = .ok ip
  noted : ((Run.run Allocator.step .new calls).allocate chance key preferredPool "").2.addrPool.get? ip = some name

theorem GivesAny.source {calls : List (Call × Chance)} {chance : Chance} {key preferredPool name ip : String}
    (gives : GivesAny calls chance key preferredPool name ip) :
    ∃ spec, (Run.run Allocator.step .new calls).pools.get? name = some spec ∧ (ip ∈ spec.addresses ∨
      ∃ pfx ∈ spec.prefixes, ∃ addr, Allocator.Drawable pfx addr ∧ ip = addr.text) := by
  obtain ⟨fresh, given, noted⟩ := gives
  generalize Run.run Allocator.step .new calls = before at fresh given noted ⊢
  obtain ⟨after, result, noted⟩ : ∃ after, before.allocate chance key preferredPool "" = (.ok ip, after) ∧
      after.addrPool.get? ip = some name := ⟨_, Prod.ext given rfl, noted⟩
  rw [Allocator.allocate, fresh] at result
  dsimp only at result
  rw [if_neg (not_not.mpr rfl), Allocator.allocateAny] at result
  split at result
  · split at result <;> cases result
  · split at result
    · rename_i found
      cases result
      cases (FMap.get?_insert_self ..).symm.trans noted
      exact (Allocator.allocFromPools_free found).2
    · cases result

theorem bitLen_of_drawable {pfx : Netip.Prefix} {addr : Netip.Addr} (drawable : Allocator.Drawable pfx addr) :
    addr.bitLen = pfx.addr.bitLen := by
  obtain rfl | ⟨random, drawn⟩ := drawable
  · exact Addr.bitLen_withValue ..
  · obtain ⟨other, returned, -, family, -⟩ := randomInPrefix_bits pfx random
    rwa [← Option.some.inj (drawn.symm.trans returned)] at family

theorem gives_of_slash {spec : String} {avoidBuggyIPs : Bool} {part : Expanded} (slash : '/' ∈ spec.toList)
    (parsed : parseOne spec avoidBuggyIPs = .ok part) :
    ∃ block, parsePrefix spec = some block ∧ (Spec.cidr block).Gives avoidBuggyIPs part := by
  rw [parseOne, if_pos slash] at parsed
  cases read : parsePrefix spec with
  | none => simp [parseCIDR, read] at parsed
  | some block =>
    obtain ⟨other, ok, gives⟩ := parseCIDR_gives read avoidBuggyIPs
    exact ⟨block, rfl, Except.ok.inj (ok.symm.trans parsed) ▸ gives⟩

theorem prefixes_eq_nil {spec : String} {avoidBuggyIPs : Bool} {part : Expanded} (plain : '/' ∉ spec.toList)
    (parsed : parseOne spec avoidBuggyIPs = .ok part) : part.prefixes = [] := by
  rw [parseOne, if_neg plain] at parsed
  split at parsed
  · obtain ⟨_, _, _, _, rfl⟩ := parseRange_ok parsed
    rfl
  · split at parsed <;> cases parsed
    rfl

/--
Where no IPv4 block of a pool is too large to be listed, an address to avoid comes from no block.

A range or a single address of the pool lists it.
-/
theorem small_blocks_avoid_buggy (specs : List String) (out : Expanded) (autoAssign : Bool)
    (calls : List (Call × Chance)) (chance : Chance) (key preferredPool name ip : String) (addr : Netip.Addr)
    (parsed : parsePool specs true = .ok out)
    (known : (Run.run Allocator.step .new calls).pools.get? name = some ⟨out.addresses, out.prefixes, autoAssign⟩)
    (small : ∀ spec ∈ specs, ∀ block, '/' ∈ spec.toList → parsePrefix spec = some block → block.addr.is4 = true →
      block.hostBits ≤ 16)
    (gives : GivesAny calls chance key preferredPool name ip) (denotes : Netip.parseAddr ip = some addr)
    (buggy : isBuggyIPv4 addr = true) :
    ∃ spec ∈ specs, '/' ∉ spec.toList ∧ ∃ part, parseOne spec true = .ok part ∧ ip ∈ part.addresses := by
  obtain ⟨spec, found, source⟩ := gives.source
  cases known.symm.trans found
  have isV4 := ((isBuggyIPv4_iff addr).mp buggy).1
  obtain listed | ⟨pfx, kept, drawn, drawable, rfl⟩ := source
  · obtain none | ⟨text, member, part, read, listed⟩ := (foldlM_parseStep_source parsed).1 ip listed
    · cases none
    · refine ⟨text, member, fun slash => ?_, part, read, listed⟩
      obtain ⟨block, -, gives⟩ := gives_of_slash slash read
      obtain ⟨a, lists, rfl⟩ := (gives.addresses ip).mp listed
      rw [parseAddr_text] at denotes
      cases denotes
      exact lists.2.2 ⟨rfl, (isBuggyIPv4_iff addr).mp buggy⟩
  · -- A block to draw from is a large one, so none of its addresses is an IPv4 address.
    obtain none | ⟨text, member, part, read, kept⟩ := (foldlM_parseStep_source parsed).2 pfx kept
    · cases none
    · by_cases slash : '/' ∈ text.toList
      · obtain ⟨block, made, gives⟩ := gives_of_slash slash read
        obtain ⟨large, rfl⟩ := (gives.prefixes pfx).mp kept
        rw [parseAddr_text] at denotes
        cases denotes
        have family : addr.bitLen = block.addr.bitLen :=
          (bitLen_of_drawable drawable).trans (Addr.bitLen_withValue ..)
        have within := small text member block slash made ((Addr.is4_eq_iff.mpr family).symm.trans isV4)
        omega
      · rw [prefixes_eq_nil slash read] at kept
        cases kept

/-- One pool that avoids what it can, as it is parsed. -/
def avoidingPool (specs : List String) : FMap String PoolSpec :=
  match parsePool specs true with
  | .ok out => FMap.ofList [("lan", ⟨out.addresses, out.prefixes, true⟩)]
  | .error _ => .empty

/-- The random source answers with the same bytes every time. -/
def Chance.drawing (bytes : List UInt8) : Chance := ⟨id, List.Perm.refl, fun _ => some (padded bytes)⟩

theorem avoidingPool_known {specs : List String} (accepted : (parsePool specs true).isOk = true) :
    ∃ out, parsePool specs true = .ok out ∧
      (Run.run Allocator.step .new [(.setPools (avoidingPool specs), .drawing [])]).pools.get? "lan" =
        some ⟨out.addresses, out.prefixes, true⟩ := by
  cases parsed : parsePool specs true with
  | error e =>
    rw [parsed] at accepted
    cases accepted
  | ok out =>
    have pools : avoidingPool specs = FMap.ofList [("lan", ⟨out.addresses, out.prefixes, true⟩)] := by
      rw [avoidingPool, parsed]
    rw [pools]
    exact ⟨out, rfl, FMap.get?_insert_self ..⟩

/-- The single address in front of a small block that leaves it out. -/
theorem single_address_is_given :
    GivesAny [(.setPools (avoidingPool ["10.0.0.0", "10.0.0.0/30"]), .drawing [])] (.drawing []) "default/web" ""
        "lan" "10.0.0.0" ∧
      ∃ spec ∈ ["10.0.0.0", "10.0.0.0/30"], '/' ∉ spec.toList ∧
        ∃ part, parseOne spec true = .ok part ∧ "10.0.0.0" ∈ part.addresses := by
  have gives : GivesAny [(.setPools (avoidingPool ["10.0.0.0", "10.0.0.0/30"]), .drawing [])] (.drawing [])
      "default/web" "" "lan" "10.0.0.0" := ⟨by decide +kernel, by decide +kernel, by decide +kernel⟩
  refine ⟨gives, ?_⟩
  have small : ∀ spec ∈ ["10.0.0.0", "10.0.0.0/30"], (parsePrefix spec).all (·.hostBits ≤ 16) = true := by
    decide +kernel
  obtain ⟨out, parsed, known⟩ := @avoidingPool_known ["10.0.0.0", "10.0.0.0/30"] (by decide +kernel)
  obtain ⟨addr, denotes, buggy⟩ : ∃ addr, Netip.parseAddr "10.0.0.0" = some addr ∧ isBuggyIPv4 addr = true :=
    (Option.any_eq_true _ _).mp (by decide +kernel)
  refine small_blocks_avoid_buggy _ out true _ _ _ _ _ _ addr parsed known (fun spec member block _ read _ => ?_)
    gives denotes buggy
  simpa [read] using small spec member

/-- A draw from a large block ends in 255. -/
theorem draw_ignores_avoided :
    (∃ out, parsePool ["10.0.0.0/8"] true = .ok out ∧
      (Run.run Allocator.step .new [(.setPools (avoidingPool ["10.0.0.0/8"]), .drawing [])]).pools.get? "lan" =
        some ⟨out.addresses, out.prefixes, true⟩) ∧
      GivesAny [(.setPools (avoidingPool ["10.0.0.0/8"]), .drawing [])] (.drawing [0, 1, 255]) "default/web" ""
        "lan" "10.0.1.255" ∧
      (Netip.parseAddr "10.0.1.255").any isBuggyIPv4 = true := by
  exact ⟨avoidingPool_known (by decide +kernel), ⟨by decide +kernel, by decide +kernel, by decide +kernel⟩,
    by decide +kernel⟩

end Rivora.Ipam

import Rivora.Ipam.Pool
import Rivora.Lib.FirstSeen
import Rivora.Net.NetipValue

/-! What the texts of a pool denote, and that parsing the pool gives exactly this. -/

namespace Rivora.Ipam

variable {a : Netip.Addr} {spec : String}

open Text Netip

/-- What a text of a pool says. -/
inductive Spec where
  | cidr (block : Netip.Prefix)
  | range (first last : Netip.Addr)
  | single (addr : Netip.Addr)

/-- Read a text of a pool; a malformed one says nothing. -/
def readSpec (spec : String) : Option Spec :=
  if '/' ∈ spec.toList then (parsePrefix spec).map .cidr
  else if '-' ∈ spec.toList then
    (Netip.parseAddr (trimSpace (spec.toList.takeWhile (· ≠ '-')))).bind fun first =>
      (Netip.parseAddr (trimSpace (spec.toList.dropWhile (· ≠ '-')).tail)).map (.range first)
  else (Netip.parseAddr spec).map .single

namespace Spec

/-- No address has a zone; one of a block never has. -/
def Zoneless : Spec → Prop
  | .cidr _ => True
  | .range first last => first.zone = "" ∧ last.zone = ""
  | .single addr => addr.zone = ""

/-- A range has ends of one family in order, and is not too large. -/
def Valid : Spec → Prop
  | .cidr _ => True
  | .range first last =>
    first.is4 = last.is4 ∧ first.value ≤ last.value ∧ last.value - first.value + 1 ≤ 2 ^ 20 + 1
  | .single _ => True

/-- The addresses that are listed. -/
def Lists (avoidBuggyIPs : Bool) : Spec → Netip.Addr → Prop
  | .cidr block, a =>
    block.hostBits ≤ 16 ∧ block.contains a ∧
      ¬ (avoidBuggyIPs ∧ a.is4 ∧ (a.asSlice.getLast? = some 0 ∨ a.asSlice.getLast? = some 255))
  | .range first last, a =>
    a.zone = "" ∧ a.is4 = first.is4 ∧ first.value ≤ a.value ∧ a.value ≤ last.value
  | .single addr, a => a = addr

/-- The prefixes that are kept. -/
def Keeps : Spec → Netip.Prefix → Prop
  | .cidr block, p => 16 < block.hostBits ∧ p = block.masked
  | .range _ _, _ => False
  | .single _, _ => False

end Spec

section Blocks

variable (pfx : Netip.Prefix) (avoidBuggyIPs : Bool)

/-- What one round of the loop over a block lists. -/
def listedAt (a : Netip.Addr) : List String := if avoidBuggyIPs && isBuggyIPv4 a then [] else [a.text]

/-- The loop over a block from an address on ends, having listed some addresses. -/
inductive BlockLoop : Netip.Addr → List String → Prop where
  | outside {a : Netip.Addr} (left : pfx.contains a = false) : BlockLoop a []
  | overflow {a : Netip.Addr} (inside : pfx.contains a = true) (last : nextAddr a = none) :
    BlockLoop a (listedAt avoidBuggyIPs a)
  | next {a b : Netip.Addr} {rest : List String} (inside : pfx.contains a = true) (follows : nextAddr a = some b)
    (more : BlockLoop b rest) : BlockLoop a (listedAt avoidBuggyIPs a ++ rest)

variable {pfx avoidBuggyIPs}

theorem addressesFrom_inside {left : Nat} (inside : pfx.contains a = true) :
    addressesFrom pfx avoidBuggyIPs (left + 1) a =
      listedAt avoidBuggyIPs a ++ ((nextAddr a).map (addressesFrom pfx avoidBuggyIPs left)).getD [] := by
  rw [addressesFrom, inside, listedAt]
  cases avoidBuggyIPs && isBuggyIPv4 a with
  | true => cases nextAddr a <;> rfl
  | false => cases nextAddr a <;> rfl

theorem blockLoop_addressesFrom {left : Nat} (inside : pfx.contains a = true)
    (enough : pfx.network.value + 2 ^ pfx.hostBits ≤ a.value + left) :
    BlockLoop pfx avoidBuggyIPs a (addressesFrom pfx avoidBuggyIPs left a) := by
  induction left generalizing a with
  | zero =>
    have := ((pfx.contains_iff a).mp inside).2.2.2
    omega
  | succ left ih =>
    rw [addressesFrom_inside inside]
    obtain ⟨none, _⟩ | ⟨b, follows, value, _, _⟩ := nextAddr_spec a
    · rw [none]
      simpa using BlockLoop.overflow inside none
    · rw [follows]
      refine .next inside follows ?_
      rw [Option.map_some, Option.getD_some]
      by_cases still : pfx.contains b = true
      · exact ih still (by omega)
      · -- The block ends behind this address.
        have outside : pfx.contains b = false := by simpa using still
        have none : addressesFrom pfx avoidBuggyIPs left b = [] := by
          cases left <;> simp [addressesFrom, outside]
        rw [none]
        exact .outside outside

/-- Whether a pool offers an address of a block. -/
def Offered (pfx : Netip.Prefix) (avoidBuggyIPs : Bool) (a : Netip.Addr) : Prop :=
  pfx.contains a = true ∧ ¬ (avoidBuggyIPs ∧ isBuggyIPv4 a)

theorem mem_listedAt (inside : pfx.contains a = true) (text : String) :
    text ∈ listedAt avoidBuggyIPs a ↔
      ∃ b, Offered pfx avoidBuggyIPs b ∧ b.value = a.value ∧ text = b.text := by
  have shape : text ∈ listedAt avoidBuggyIPs a ↔ ¬ (avoidBuggyIPs ∧ isBuggyIPv4 a) ∧ text = a.text := by
    unfold listedAt
    split <;> simp_all
  rw [shape]
  constructor
  · rintro ⟨wanted, rfl⟩
    exact ⟨a, ⟨inside, wanted⟩, rfl, rfl⟩
  · rintro ⟨b, ⟨within, wanted⟩, value, rfl⟩
    -- An address of the block is its value.
    obtain ⟨zone, family, _⟩ := (pfx.contains_iff a).mp inside
    obtain ⟨zone', family', _⟩ := (pfx.contains_iff b).mp within
    have same : b = a := Netip.Addr.ext_value (family'.trans family.symm) (zone'.trans zone.symm) value
    exact same ▸ ⟨wanted, rfl⟩

theorem mem_addressesFrom {left : Nat} (inside : pfx.contains a = true) (text : String) :
    text ∈ addressesFrom pfx avoidBuggyIPs left a ↔
      ∃ b, Offered pfx avoidBuggyIPs b ∧ (a.value ≤ b.value ∧ b.value < a.value + left) ∧ text = b.text := by
  induction left generalizing a with
  | zero =>
    rw [addressesFrom]
    simp only [List.not_mem_nil, false_iff]
    rintro ⟨b, _, bounds, _⟩
    omega
  | succ left ih =>
    -- This round lists the address itself, and the others those with a larger value.
    have later : text ∈ ((nextAddr a).map (addressesFrom pfx avoidBuggyIPs left)).getD [] ↔
        ∃ b, Offered pfx avoidBuggyIPs b ∧ (a.value < b.value ∧ b.value < a.value + (left + 1)) ∧
          text = b.text := by
      obtain ⟨zone, family, low, high⟩ := (pfx.contains_iff a).mp inside
      obtain ⟨none, top⟩ | ⟨next, follows, value, family', zone'⟩ := nextAddr_spec a
      · -- There is no larger value.
        rw [none]
        simp only [Option.map_none, Option.getD_none, List.not_mem_nil, false_iff]
        rintro ⟨b, ⟨within, _⟩, bounds, _⟩
        have bound := b.value_lt
        rw [((pfx.contains_iff b).mp within).2.1, ← family] at bound
        omega
      · rw [follows, Option.map_some, Option.getD_some]
        by_cases still : pfx.contains next = true
        · rw [ih still]
          refine exists_congr fun b => and_congr_right fun _ => and_congr_left fun _ => ?_
          omega
        · -- The block ends behind this address.
          have outside : pfx.contains next = false := by simpa using still
          have none : addressesFrom pfx avoidBuggyIPs left next = [] := by
            cases left <;> simp [addressesFrom, outside]
          rw [none]
          simp only [List.not_mem_nil, false_iff]
          rintro ⟨b, ⟨within, _⟩, bounds, _⟩
          have above := ((pfx.contains_iff b).mp within).2.2.2
          exact still ((pfx.contains_iff next).mpr ⟨zone', family'.trans family, by omega, by omega⟩)
    rw [addressesFrom_inside inside, List.mem_append, mem_listedAt inside, later]
    constructor
    · rintro (⟨b, offered, value, rfl⟩ | ⟨b, offered, bounds, rfl⟩)
      · exact ⟨b, offered, by omega, rfl⟩
      · exact ⟨b, offered, by omega, rfl⟩
    · rintro ⟨b, offered, bounds, rfl⟩
      by_cases value : b.value = a.value
      · exact .inl ⟨b, offered, value, rfl⟩
      · exact .inr ⟨b, offered, by omega, rfl⟩

end Blocks

theorem contains_network (block : Netip.Prefix) : block.masked.contains block.masked.addr = true := by
  rw [Prefix.contains_masked, Prefix.contains_iff]
  have positive : 0 < 2 ^ block.hostBits := Nat.two_pow_pos _
  refine ⟨Addr.zone_withValue .., Addr.bitLen_withValue .., Nat.le_refl _, ?_⟩
  exact Nat.lt_add_of_pos_right positive

theorem mem_addressesFrom_network (block : Netip.Prefix) (avoidBuggyIPs : Bool) (text : String) :
    text ∈ addressesFrom block.masked avoidBuggyIPs (2 ^ block.masked.hostBits) block.masked.addr ↔
      ∃ b, Offered block avoidBuggyIPs b ∧ text = b.text := by
  rw [mem_addressesFrom (contains_network block), Prefix.hostBits_masked]
  refine exists_congr fun b => ?_
  unfold Offered
  rw [Prefix.contains_masked]
  constructor
  · rintro ⟨offered, _, same⟩
    exact ⟨offered, same⟩
  · rintro ⟨offered, same⟩
    exact ⟨offered, ((block.contains_iff b).mp offered.1).2.2, same⟩

section Ranges

/-- An address of a range, in the family of its last one. -/
def Between (first last a : Netip.Addr) : Prop :=
  a.zone = "" ∧ a.bitLen = last.bitLen ∧ first.value ≤ a.value ∧ a.value ≤ last.value

theorem between_self {b : Netip.Addr} (plain : a.zone = "") : Between a a b ↔ b = a := by
  constructor
  · rintro ⟨zone, family, low, high⟩
    exact Netip.Addr.ext_value family (zone.trans plain.symm) (by omega)
  · rintro rfl
    exact ⟨plain, rfl, Nat.le_refl _, Nat.le_refl _⟩

theorem between_next {first next last b : Netip.Addr} (zone : first.zone = "")
    (family : first.bitLen = last.bitLen) (below : first.value < last.value)
    (value : next.value = first.value + 1) :
    Between first last b ↔ b = first ∨ Between next last b := by
  constructor
  · rintro ⟨zone', family', low, high⟩
    by_cases same : b.value = first.value
    · exact .inl (Netip.Addr.ext_value (family'.trans family.symm) (zone'.trans zone.symm) same)
    · exact .inr ⟨zone', family', by omega, high⟩
  · rintro (rfl | ⟨zone', family', low, high⟩)
    · exact ⟨zone, family, Nat.le_refl _, below.le⟩
    · exact ⟨zone', family', by omega, high⟩

theorem addressesUpTo_stop (stop : Netip.Addr) (left : Nat) : addressesUpTo stop left stop = .ok [stop.text] := by
  cases left <;> simp [addressesUpTo]

theorem addressesUpTo_spec {stop : Netip.Addr} (plain : stop.zone = "") {left : Nat} {cur : Netip.Addr}
    (zone : cur.zone = "") (family : cur.bitLen = stop.bitLen) (ordered : cur.value ≤ stop.value) :
    (left < stop.value - cur.value ∧ ∃ e, addressesUpTo stop left cur = .error e) ∨
      (stop.value - cur.value ≤ left ∧ ∃ listed, addressesUpTo stop left cur = .ok listed ∧
        ∀ text, text ∈ listed ↔ ∃ a, Between cur stop a ∧ text = a.text) := by
  induction left generalizing cur with
  | zero =>
    by_cases last : cur = stop
    · subst last
      exact .inr ⟨by omega, _, addressesUpTo_stop .., fun text => by simp [between_self plain]⟩
    · have differs : cur.value ≠ stop.value := fun same =>
        last (Netip.Addr.ext_value family (zone.trans plain.symm) same)
      exact .inl ⟨by omega, "range too large", by simp [addressesUpTo, last]⟩
  | succ left ih =>
    by_cases last : cur = stop
    · subst last
      exact .inr ⟨by omega, _, addressesUpTo_stop .., fun text => by simp [between_self plain]⟩
    · have differs : cur.value ≠ stop.value := fun same =>
        last (Netip.Addr.ext_value family (zone.trans plain.symm) same)
      obtain ⟨_, top⟩ | ⟨next, follows, value, family', zone'⟩ := nextAddr_spec cur
      · -- Below the end of the range there is a next address.
        have bound := stop.value_lt
        rw [← family] at bound
        omega
      · have step : addressesUpTo stop (left + 1) cur =
            (addressesUpTo stop left next).map (cur.text :: ·) := by
          rw [addressesUpTo, if_neg last, follows]
        rw [step]
        obtain ⟨large, e, failed⟩ | ⟨small, listed, ok, lists⟩ := ih zone' (family'.trans family) (by omega)
        · exact .inl ⟨by omega, e, by rw [failed]; rfl⟩
        · refine .inr ⟨by omega, cur.text :: listed, by rw [ok]; rfl, fun text => ?_⟩
          have split := fun b => @between_next cur next stop b zone family (by omega) value
          simp only [List.mem_cons, lists, split, or_and_right, exists_or, exists_eq_left]

end Ranges

/-- What a text of the pool was expanded to is what it says. -/
structure Spec.Gives (said : Spec) (avoidBuggyIPs : Bool) (part : Expanded) : Prop where
  addresses : ∀ text, text ∈ part.addresses ↔ ∃ a, said.Lists avoidBuggyIPs a ∧ text = a.text
  prefixes : ∀ p, p ∈ part.prefixes ↔ said.Keeps p

theorem isBuggyIPv4_iff (a : Netip.Addr) : isBuggyIPv4 a = true ↔
    a.is4 = true ∧ (a.asSlice.getLast? = some 0 ∨ a.asSlice.getLast? = some 255) := by
  simp [isBuggyIPv4]

theorem parseCIDR_gives {block : Netip.Prefix} (read : Netip.parsePrefix spec = some block)
    (avoidBuggyIPs : Bool) :
    ∃ part, parseCIDR spec avoidBuggyIPs = .ok part ∧ (Spec.cidr block).Gives avoidBuggyIPs part := by
  unfold parseCIDR
  rw [read]
  dsimp only
  rw [Prefix.hostBits_masked]
  by_cases large : block.hostBits > maxEagerHostBits
  · rw [if_pos large]
    unfold maxEagerHostBits at large
    refine ⟨_, rfl, fun text => ?_, fun p => ?_⟩
    · simp [Spec.Lists, Nat.not_le.mpr large]
    · simp [Spec.Keeps, large]
  · rw [if_neg large]
    unfold maxEagerHostBits at large
    refine ⟨_, rfl, fun text => ?_, fun p => ?_⟩
    · have listed := mem_addressesFrom_network block avoidBuggyIPs text
      rw [Prefix.hostBits_masked] at listed
      simp only [listed, Offered, isBuggyIPv4_iff, Spec.Lists, Nat.not_lt.mp large, true_and]
    · simp [Spec.Keeps, large]

theorem parseRange_gives {first last : Netip.Addr}
    (start : Netip.parseAddr (trimSpace (spec.toList.takeWhile (· ≠ '-'))) = some first)
    (stop : Netip.parseAddr (trimSpace (spec.toList.dropWhile (· ≠ '-')).tail) = some last)
    (zoneless : (Spec.range first last).Zoneless) (avoidBuggyIPs : Bool) :
    ((Spec.range first last).Valid ∧ ∃ part, parseRange spec = .ok part ∧
      (Spec.range first last).Gives avoidBuggyIPs part) ∨
    (¬ (Spec.range first last).Valid ∧ ∃ e, parseRange spec = .error e) := by
  obtain ⟨zone, zone'⟩ := zoneless
  unfold parseRange
  dsimp only
  rw [start, stop]
  dsimp only
  by_cases family : first.is4 = last.is4
  · rw [if_neg (not_not.mpr family)]
    have sized : first.bitLen = last.bitLen := Netip.Addr.is4_eq_iff.mp family
    -- Addresses of one family without zones are compared by their values.
    have order : Netip.after first last = true ↔ last.value < first.value := by
      unfold Netip.after
      rw [if_neg (not_not.mpr sized), zone, zone']
      split <;> simp_all
    by_cases ordered : first.value ≤ last.value
    · rw [if_neg (by rw [order]; omega)]
      obtain ⟨large, e, failed⟩ | ⟨small, listed, ok, lists⟩ :=
        @addressesUpTo_spec last zone' (2 ^ 20) first zone sized ordered
      · refine .inr ⟨fun valid => ?_, e, by rw [failed]; rfl⟩
        have := valid.2.2
        omega
      · refine .inl ⟨⟨family, ordered, by omega⟩, ⟨listed, []⟩, by rw [ok]; rfl, fun text => ?_, fun p => ?_⟩
        · simp only [lists, Between, Spec.Lists, Netip.Addr.is4_eq_iff, sized]
        · simp [Spec.Keeps]
    · rw [if_pos (order.mpr (by omega))]
      exact .inr ⟨fun valid => ordered valid.2.1, _, rfl⟩
  · rw [if_pos family]
    exact .inr ⟨fun valid => family valid.1, _, rfl⟩

theorem parseOne_gives (avoidBuggyIPs : Bool)
    (zoneless : ∀ said, readSpec spec = some said → said.Zoneless) :
    (∃ said, readSpec spec = some said ∧ said.Valid ∧
      ∃ part, parseOne spec avoidBuggyIPs = .ok part ∧ said.Gives avoidBuggyIPs part) ∨
    ((∀ said, readSpec spec = some said → ¬ said.Valid) ∧ ∃ e, parseOne spec avoidBuggyIPs = .error e) := by
  unfold readSpec at zoneless ⊢
  unfold parseOne
  by_cases slash : '/' ∈ spec.toList
  · simp only [if_pos slash] at zoneless ⊢
    cases read : Netip.parsePrefix spec with
    | none =>
      refine .inr ⟨by simp, "", ?_⟩
      simp [parseCIDR, read]
    | some block => exact .inl ⟨.cidr block, rfl, trivial, parseCIDR_gives read avoidBuggyIPs⟩
  · by_cases dash : '-' ∈ spec.toList
    · simp only [if_neg slash, if_pos dash] at zoneless ⊢
      cases start : Netip.parseAddr (trimSpace (spec.toList.takeWhile (· ≠ '-'))) with
      | none =>
        refine .inr ⟨by simp, "invalid range start: ", ?_⟩
        unfold parseRange
        dsimp only
        rw [start]
      | some first =>
        cases stop : Netip.parseAddr (trimSpace (spec.toList.dropWhile (· ≠ '-')).tail) with
        | none =>
          refine .inr ⟨by simp, "invalid range end: ", ?_⟩
          unfold parseRange
          dsimp only
          rw [start, stop]
        | some last =>
          rw [start, stop] at zoneless
          obtain ⟨valid, given⟩ | ⟨invalid, failed⟩ := parseRange_gives start stop (zoneless _ rfl) avoidBuggyIPs
          · exact .inl ⟨_, rfl, valid, given⟩
          · refine .inr ⟨fun said same => ?_, failed⟩
            obtain rfl : Spec.range first last = said := by simpa using same
            exact invalid
    · simp only [if_neg slash, if_neg dash] at zoneless ⊢
      cases Netip.parseAddr spec with
      | none => exact .inr ⟨by simp, _, rfl⟩
      | some addr =>
        refine .inl ⟨.single addr, rfl, trivial, _, rfl, fun text => ?_, fun p => ?_⟩
        · simp [Spec.Lists]
        · simp [Spec.Keeps]

section Pools

variable {α : Type} [DecidableEq α] {seen more : List α}

theorem mem_addNew_iff {x : α} : x ∈ addNew seen more ↔ x ∈ seen ∨ x ∈ more := by
  induction more generalizing seen with
  | nil => simp [addNew]
  | cons y rest ih =>
    rw [addNew, List.foldl_cons]
    refine ih.trans ?_
    by_cases known : y ∈ seen
    · rw [if_pos known, List.mem_cons]
      constructor
      · exact fun found => found.imp_right .inr
      · rintro (old | rfl | later)
        · exact .inl old
        · exact .inl known
        · exact .inr later
    · rw [if_neg known]
      simp [or_assoc]

theorem nodup_addNew (distinct : seen.Nodup) : (addNew seen more).Nodup := by
  induction more generalizing seen with
  | nil => exact distinct
  | cons y rest ih =>
    rw [addNew, List.foldl_cons]
    apply ih
    split
    · exact distinct
    · rename_i new
      exact List.nodup_append.mpr ⟨distinct, List.nodup_singleton y, by grind⟩

/-- A pool holds what some texts say, each address and each prefix once. -/
structure Expanded.Holds (specs : List String) (avoidBuggyIPs : Bool) (out : Expanded) : Prop where
  addressesNodup : out.addresses.Nodup
  prefixesNodup : out.prefixes.Nodup
  addresses : ∀ text, text ∈ out.addresses ↔
    ∃ spec ∈ specs, ∃ said, readSpec spec = some said ∧ ∃ a, said.Lists avoidBuggyIPs a ∧ text = a.text
  prefixes : ∀ p, p ∈ out.prefixes ↔ ∃ spec ∈ specs, ∃ said, readSpec spec = some said ∧ said.Keeps p

theorem Expanded.holds_nil (avoidBuggyIPs : Bool) : Expanded.Holds [] avoidBuggyIPs ⟨[], []⟩ :=
  ⟨List.nodup_nil, List.nodup_nil, by simp, by simp⟩

theorem Expanded.Holds.add {specs : List String} {avoidBuggyIPs : Bool} {out part : Expanded}
    {said : Spec} (holds : out.Holds specs avoidBuggyIPs) (read : readSpec spec = some said)
    (gives : said.Gives avoidBuggyIPs part) :
    Expanded.Holds (specs ++ [spec]) avoidBuggyIPs
      ⟨addNew out.addresses part.addresses, addNew out.prefixes part.prefixes⟩ where
  addressesNodup := nodup_addNew holds.addressesNodup
  prefixesNodup := nodup_addNew holds.prefixesNodup
  addresses text := by
    rw [mem_addNew_iff, holds.addresses, gives.addresses]
    simp [or_and_right, exists_or, read]
  prefixes p := by
    rw [mem_addNew_iff, holds.prefixes, gives.prefixes]
    simp [or_and_right, exists_or, read]

/-- A specification can be read and is valid. -/
def Accepted (spec : String) : Prop := ∃ said, readSpec spec = some said ∧ said.Valid

theorem foldlM_parseStep {avoidBuggyIPs : Bool} {specs done : List String} {out : Expanded}
    (zoneless : ∀ spec ∈ specs, ∀ said, readSpec spec = some said → said.Zoneless)
    (holds : out.Holds done avoidBuggyIPs) :
    ((∀ spec ∈ specs, Accepted spec) ∧ ∃ result, specs.foldlM (parseStep avoidBuggyIPs) out = .ok result ∧
      result.Holds (done ++ specs) avoidBuggyIPs) ∨
    (¬ (∀ spec ∈ specs, Accepted spec) ∧ ∃ e, specs.foldlM (parseStep avoidBuggyIPs) out = .error e) := by
  induction specs generalizing done out with
  | nil => exact .inl ⟨by simp, out, rfl, by simpa using holds⟩
  | cons spec rest ih =>
    rw [List.foldlM_cons]
    obtain ⟨said, read, valid, part, ok, gives⟩ | ⟨invalid, e, failed⟩ :=
      parseOne_gives avoidBuggyIPs (zoneless spec List.mem_cons_self)
    · have accepted : Accepted spec := ⟨said, read, valid⟩
      have step : parseStep avoidBuggyIPs out spec =
          .ok ⟨addNew out.addresses part.addresses, addNew out.prefixes part.prefixes⟩ := by
        rw [parseStep, ok]
      rw [step, List.forall_mem_cons, List.append_cons]
      simp only [accepted, true_and]
      exact ih (fun spec mem => zoneless spec (List.mem_cons_of_mem _ mem)) (holds.add read gives)
    · -- The loop ends at the first text that is not accepted.
      have step : parseStep avoidBuggyIPs out spec = .error ("address \"" ++ spec ++ "\": " ++ e) := by
        rw [parseStep, failed]
      rw [step]
      refine .inr ⟨fun all => ?_, _, rfl⟩
      obtain ⟨said, read, valid⟩ := all spec List.mem_cons_self
      exact invalid said read valid

end Pools

/--
A pool of texts without zones is refused exactly if one of them is malformed or a range whose ends are of
different families, out of order or too far apart. Otherwise it holds exactly what the texts say, and the
loop over each small block ends by itself.
-/
theorem pool_holds_what_is_said (specs : List String) (avoidBuggyIPs : Bool)
    (zoneless : ∀ spec ∈ specs, ∀ said, readSpec spec = some said → said.Zoneless) :
    ((∃ e, parsePool specs avoidBuggyIPs = .error e) ↔
      ∃ spec ∈ specs, readSpec spec = none ∨ ∃ said, readSpec spec = some said ∧ ¬ said.Valid) ∧
    (∀ out, parsePool specs avoidBuggyIPs = .ok out → out.Holds specs avoidBuggyIPs) ∧
    ∀ block : Netip.Prefix, BlockLoop block.masked avoidBuggyIPs block.masked.addr
      (addressesFrom block.masked avoidBuggyIPs (2 ^ block.masked.hostBits) block.masked.addr) := by
  have refused : (∃ spec ∈ specs, readSpec spec = none ∨ ∃ said, readSpec spec = some said ∧ ¬ said.Valid) ↔
      ¬ ∀ spec ∈ specs, Accepted spec := by
    push Not
    refine exists_congr fun spec => and_congr_right fun _ => ?_
    unfold Accepted
    cases readSpec spec <;> simp
  rw [parsePool, refused]
  refine ⟨?_, ?_, fun block => ?_⟩
  · obtain ⟨accepted, result, ok, _⟩ | ⟨refused, failed⟩ :=
      foldlM_parseStep zoneless (Expanded.holds_nil avoidBuggyIPs)
    · exact iff_of_false (by simp [ok]) (not_not.mpr accepted)
    · exact iff_of_true failed refused
  · intro out parsed
    obtain ⟨_, result, ok, holds⟩ | ⟨_, e, failed⟩ :=
      foldlM_parseStep zoneless (Expanded.holds_nil avoidBuggyIPs)
    · rw [ok] at parsed
      exact Except.ok.inj parsed ▸ holds
    · rw [failed] at parsed
      cases parsed
  · apply blockLoop_addressesFrom (contains_network block)
    rw [Prefix.value_network_masked]
    rfl

/-- Specifications that reach the last address. -/
def topSpecs : List String := ["255.255.255.253-255.255.255.255", "255.255.255.254/31", "ffff::/16"]

/-- The last addresses of the space are listed once, and the large block is kept. -/
theorem top_of_the_space_is_listed :
    ((parsePool topSpecs true).toOption.map fun out => (out.addresses, out.prefixes.map Netip.Prefix.text)) =
        some (["255.255.255.253", "255.255.255.254", "255.255.255.255"], ["ffff::/16"]) ∧
      ∀ out, parsePool topSpecs true = .ok out → out.Holds topSpecs true := by
  refine ⟨by decide +kernel, (pool_holds_what_is_said topSpecs true ?_).2.1⟩
  intro spec mem said read
  have zoneless : ∀ spec ∈ topSpecs,
      ((readSpec spec).all fun
        | .range first last => first.zone = "" && last.zone = ""
        | .single addr => addr.zone = ""
        | .cidr _ => true) = true := by decide +kernel
  have zoneless := zoneless spec mem
  rw [read] at zoneless
  cases said with
  | cidr block => trivial
  | range first last => simpa [Spec.Zoneless] using zoneless
  | single addr => simpa [Spec.Zoneless] using zoneless

end Rivora.Ipam

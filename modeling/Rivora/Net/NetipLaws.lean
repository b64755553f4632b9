import Mathlib.Data.List.Basic
import Mathlib.Tactic.IntervalCases
import Rivora.Net.Netip

/-! Addresses written by `Addr.String` read back as themselves. -/

namespace Rivora.Netip

variable {d n : Nat} {bytes : List UInt8}

section Digits

/-- A hexadecimal digit is read back. -/
theorem hexDigit?_digitChar (small : d < 16) : hexDigit? (Nat.digitChar d) = some d := by
  -- Sixteen characters, each checked against the three ranges the reader tests.
  interval_cases d <;> rfl

/-- A number of at most four digits is read digit by digit. -/
theorem hexGroup_toDigits (n : Nat) (rest : List Char) {off acc : Nat}
    (short : off + (Nat.toDigits 16 n).length ≤ 4) :
    hexGroup (Nat.toDigits 16 n ++ rest) off acc =
      hexGroup rest (off + (Nat.toDigits 16 n).length) (acc * 16 ^ (Nat.toDigits 16 n).length + n) := by
  -- The last digit is read behind the text of the other digits.
  induction n using Nat.strongRecOn generalizing rest with
  | ind n ih =>
    by_cases single : n < 16
    · rw [Nat.toDigits_of_lt_base single] at short ⊢
      have room : ¬ off > 3 := by simp at short; omega
      simp [hexGroup, hexDigit?_digitChar single, room]
    · have split := Nat.toDigits_of_base_le (b := 16) (n := n) (by decide) (by omega)
      have last : n % 16 < 16 := Nat.mod_lt _ (by decide)
      rw [split] at short ⊢
      simp only [List.length_append, List.length_singleton] at short
      rw [List.append_assoc, ih (n / 16) (by omega) _ (by omega)]
      have room : ¬ off + (Nat.toDigits 16 (n / 16)).length > 3 := by omega
      simp only [List.singleton_append, hexGroup, hexDigit?_digitChar last, room, ↓reduceIte,
        List.length_append, List.length_singleton]
      congr 1
      rw [pow_succ, Nat.add_mul]
      have := Nat.div_add_mod n 16
      have : acc * 16 ^ (Nat.toDigits 16 (n / 16)).length * 16 =
          acc * (16 ^ (Nat.toDigits 16 (n / 16)).length * 16) := Nat.mul_assoc _ _ _
      omega

/-- A decimal digit is one of the characters the parser takes, and has its value. -/
theorem decimal_digitChar (small : d < 10) :
    '0' ≤ Nat.digitChar d ∧ Nat.digitChar d ≤ '9' ∧ (Nat.digitChar d).toNat - '0'.toNat = d := by
  interval_cases d <;> decide

/-- A field of a dotted address is read as its number. -/
theorem parseIPv4Fields_toDigits (small : n < 256) (rest : List Char) (fields : List UInt8) :
    parseIPv4Fields (Nat.toDigits 10 n ++ rest) 0 0 fields =
      parseIPv4Fields rest n (Nat.toDigits 10 n).length fields := by
  -- The last digit is read behind the text of the other digits, which is no zero.
  induction n using Nat.strongRecOn generalizing rest with
  | ind n ih =>
    by_cases single : n < 10
    · obtain ⟨low, high, value⟩ := decimal_digitChar single
      have fits : ¬ 0 * 10 + n > 255 := by omega
      rw [Nat.toDigits_of_lt_base single]
      simp only [List.singleton_append, parseIPv4Fields, low, high, value, fits, and_self, ↓reduceIte]
      simp
    · have split := Nat.toDigits_of_base_le (b := 10) (n := n) (by decide) (by omega)
      obtain ⟨low, high, value⟩ := decimal_digitChar (Nat.mod_lt n (by decide : 0 < 10))
      have leading : ¬ ((Nat.toDigits 10 (n / 10)).length = 1 ∧ n / 10 = 0) := by omega
      have whole : n / 10 * 10 + n % 10 = n := by omega
      have fits : ¬ n > 255 := by omega
      rw [split, List.append_assoc, ih (n / 10) (by omega) (by omega)]
      simp only [List.singleton_append, parseIPv4Fields, low, high, value, leading, whole, fits,
        and_self, ↓reduceIte, List.length_append, List.length_singleton]

/-- No digit is a separator. -/
theorem digitChar_ne_separator (small : d < 16) :
    Nat.digitChar d ≠ '.' ∧ Nat.digitChar d ≠ ':' ∧ Nat.digitChar d ≠ '%' := by
  interval_cases d <;> decide

/-- A number is written in digits only. -/
theorem exists_digit_of_mem_toDigits {b : Nat} (base : 1 < b) {c : Char}
    (member : c ∈ Nat.toDigits b n) : ∃ d < b, c = Nat.digitChar d := by
  induction n using Nat.strongRecOn with
  | ind n ih =>
    by_cases single : n < b
    · rw [Nat.toDigits_of_lt_base single, List.mem_singleton] at member
      exact ⟨n, single, member⟩
    · rw [Nat.toDigits_of_base_le base (by omega), List.mem_append, List.mem_singleton] at member
      cases member with
      | inl front => exact ih (n / b) (Nat.div_lt_self (by omega) base) front
      | inr last => exact ⟨n % b, Nat.mod_lt _ (by omega), last⟩

/-- So no character of a number is a separator. -/
theorem not_separator_of_mem_toDigits {b : Nat} (base : 1 < b) (small : b ≤ 16) {c : Char}
    (member : c ∈ Nat.toDigits b n) : c ≠ '.' ∧ c ≠ ':' ∧ c ≠ '%' := by
  obtain ⟨d, below, rfl⟩ := exists_digit_of_mem_toDigits base member
  exact digitChar_ne_separator (by omega)

/-- Behind characters that are none, the first separator is found. -/
theorem find_separator {cs rest : List Char} {c : Char} (plain : ∀ x ∈ cs, x ≠ '.' ∧ x ≠ ':' ∧ x ≠ '%')
    (separates : c = '.' ∨ c = ':' ∨ c = '%') :
    (cs ++ c :: rest).find? (fun c => c = '.' ∨ c = ':' ∨ c = '%') = some c := by
  rw [List.find?_append, List.find?_eq_none.mpr, Option.none_or]
  · exact List.find?_cons_of_pos (by simpa using separates)
  · intro x member
    obtain ⟨dot, colon, percent⟩ := plain x member
    simp [dot, colon, percent]

end Digits

section Dotted

/-- The characters of a dotted address. -/
theorem toList_dotted (a b c d : UInt8) :
    (dotted [a, b, c, d]).toList =
      Nat.toDigits 10 a.toNat ++ '.' :: (Nat.toDigits 10 b.toNat ++ '.' ::
        (Nat.toDigits 10 c.toNat ++ '.' :: Nat.toDigits 10 d.toNat)) := by
  simp [dotted]

/-- A dotted address is read back. -/
theorem parseIPv4Fields_dotted (a b c d : UInt8) :
    parseIPv4Fields (dotted [a, b, c, d]).toList 0 0 [] = some [a, b, c, d] := by
  have small : ∀ x : UInt8, x.toNat < 256 := fun x => x.toNat_lt
  have nonempty : ∀ (n : Nat), Nat.toDigits 10 n ≠ [] := fun n => Nat.toDigits_ne_nil
  have positive : ∀ (n : Nat), (Nat.toDigits 10 n).length ≠ 0 := fun n => by simp [nonempty]
  -- Each field ends at its dot, and what follows the dot is not the end.
  have dot : ∀ (n val digLen : Nat) (more : List Char) (fields : List UInt8), digLen ≠ 0 →
      fields.length < 3 →
      parseIPv4Fields ('.' :: (Nat.toDigits 10 n ++ more)) val digLen fields =
        parseIPv4Fields (Nat.toDigits 10 n ++ more) 0 0 (fields ++ [UInt8.ofNat val]) := by
    intro n val digLen more fields read room
    have follows : Nat.toDigits 10 n ++ more ≠ [] := by simp [nonempty]
    have notFull : ¬ fields.length = 3 := by omega
    simp [parseIPv4Fields, read, follows, notFull]
  rw [toList_dotted, parseIPv4Fields_toDigits (small a), dot _ _ _ _ _ (positive _) (by simp),
    parseIPv4Fields_toDigits (small b), dot _ _ _ _ _ (positive _) (by simp),
    parseIPv4Fields_toDigits (small c)]
  have last := dot d.toNat c.toNat (Nat.toDigits 10 c.toNat).length [] [a, b] (positive _) (by simp)
  simp only [List.append_nil] at last
  simp only [UInt8.ofNat_toNat, List.nil_append, List.cons_append]
  rw [last]
  have field := parseIPv4Fields_toDigits (small d) [] ([a, b] ++ [UInt8.ofNat c.toNat])
  simp only [List.append_nil] at field
  rw [field]
  simp [parseIPv4Fields]

end Dotted

section Groups

/-- The two bytes of a group. -/
def groupBytes (g : Nat) : List UInt8 := [UInt8.ofNat (g / 256), UInt8.ofNat (g % 256)]

/-- The characters of groups with a colon between each two. -/
def groupChars (groups : List Nat) : List Char := [':'].intercalate (groups.map (Nat.toDigits 16))

/-- The characters of a list of groups. -/
theorem toList_groupsText (groups : List Nat) : (groupsText groups).toList = groupChars groups := by
  simp [groupsText, groupChars, String.toList_intercalate, Function.comp_def]

/-- Every group but the last is followed by a colon. -/
theorem groupChars_concat (groups : List Nat) (last : Nat) :
    groupChars (groups ++ [last]) =
      groups.flatMap (fun g => Nat.toDigits 16 g ++ [':']) ++ Nat.toDigits 16 last := by
  induction groups with
  | nil => simp [groupChars]
  | cons g rest ih =>
    have more : (rest ++ [last]).map (Nat.toDigits 16) ≠ [] := by simp
    rw [groupChars] at ih ⊢
    rw [List.cons_append, List.map_cons, List.intercalate_cons_of_ne_nil more, ih]
    simp

variable {fuel g : Nat} {ip : List UInt8} {ellipsis : Option Nat}

/-- A group starts with a digit. -/
theorem toDigits_cons (n : Nat) : ∃ c more, Nat.toDigits 16 n = c :: more ∧ c ≠ ':' ∧ c ≠ '%' := by
  cases shape : Nat.toDigits 16 n with
  | nil => exact absurd shape Nat.toDigits_ne_nil
  | cons c more =>
    have member : c ∈ Nat.toDigits 16 n := by simp [shape]
    obtain ⟨_, colon, percent⟩ := not_separator_of_mem_toDigits (by decide) (by decide) member
    exact ⟨c, more, rfl, colon, percent⟩

/-- A group is read up to its end or the next colon. -/
theorem hexGroup_group (small : g < 65536) {rest : List Char} (ends : rest = [] ∨ rest.head? = some ':') :
    hexGroup (Nat.toDigits 16 g ++ rest) 0 0 = some (g, (Nat.toDigits 16 g).length, rest) := by
  have short : (Nat.toDigits 16 g).length ≤ 4 :=
    (Nat.length_toDigits_le_iff (by decide) (by decide)).mpr (by simpa using small)
  rw [hexGroup_toDigits g rest (by omega)]
  cases rest with
  | nil => simp [hexGroup]
  | cons c more =>
    have colon : c = ':' := by simpa using ends
    subst colon
    simp [hexGroup, show hexDigit? ':' = none from rfl]

/-- The last group ends the address. -/
theorem parseIPv6Fields_last (small : g < 65536) :
    parseIPv6Fields (fuel + 1) (Nat.toDigits 16 g) ip ellipsis = some ([], ip ++ groupBytes g, ellipsis) := by
  have read := hexGroup_group small (Or.inl rfl : ([] : List Char) = [] ∨ _)
  rw [List.append_nil] at read
  simp [parseIPv6Fields, read, Nat.toDigits_ne_nil, groupBytes]

/-- Behind one colon, the next group is read. -/
theorem parseIPv6Fields_colon (small : g < 65536) {c : Char} {more : List Char} (plain : c ≠ ':') :
    parseIPv6Fields (fuel + 1) (Nat.toDigits 16 g ++ ':' :: c :: more) ip ellipsis =
      parseIPv6Fields fuel (c :: more) (ip ++ groupBytes g) ellipsis := by
  have read : hexGroup (Nat.toDigits 16 g ++ ':' :: c :: more) 0 0 = _ := hexGroup_group small (Or.inr rfl)
  simp [parseIPv6Fields, read, Nat.toDigits_ne_nil, groupBytes, plain]

/-- Behind two, the place of the gap is noted. -/
theorem parseIPv6Fields_ellipsis (small : g < 65536) (rest : List Char) :
    parseIPv6Fields (fuel + 1) (Nat.toDigits 16 g ++ ':' :: ':' :: rest) ip none =
      if rest = [] then some ([], ip ++ groupBytes g, some (ip ++ groupBytes g).length)
      else parseIPv6Fields fuel rest (ip ++ groupBytes g) (some (ip ++ groupBytes g).length) := by
  have read : hexGroup (Nat.toDigits 16 g ++ ':' :: ':' :: rest) 0 0 = _ :=
    hexGroup_group small (Or.inr rfl)
  simp [parseIPv6Fields, read, Nat.toDigits_ne_nil, groupBytes]

/-- All groups up to the last are read one by one. -/
theorem parseIPv6Fields_groups (fuel : Nat) (ip : List UInt8) (ellipsis : Option Nat)
    {groups : List Nat} (small : ∀ g ∈ groups, g < 65536) (last : Nat) (more : List Char) :
    parseIPv6Fields (groups.length + fuel)
        (groups.flatMap (fun g => Nat.toDigits 16 g ++ [':']) ++ (Nat.toDigits 16 last ++ more)) ip
        ellipsis =
      parseIPv6Fields fuel (Nat.toDigits 16 last ++ more) (ip ++ groups.flatMap groupBytes) ellipsis := by
  induction groups generalizing ip with
  | nil => simp
  | cons g rest ih =>
    -- What follows the colon is the next group, which starts with a digit.
    have follows : ∃ c tail, rest.flatMap (fun g => Nat.toDigits 16 g ++ [':']) ++
        (Nat.toDigits 16 last ++ more) = c :: tail ∧ c ≠ ':' := by
      cases rest with
      | nil =>
        obtain ⟨c, tail, shape, plain, _⟩ := toDigits_cons last
        exact ⟨c, tail ++ more, by simp [shape], plain⟩
      | cons g' rest' =>
        obtain ⟨c, tail, shape, plain, _⟩ := toDigits_cons g'
        refine ⟨c, ?_, ?_, plain⟩
        · exact tail ++ [':'] ++ rest'.flatMap (fun g => Nat.toDigits 16 g ++ [':']) ++
            (Nat.toDigits 16 last ++ more)
        · simp only [List.flatMap_cons, shape, List.cons_append]
    obtain ⟨c, tail, shape, plain⟩ := follows
    have step := ih (ip ++ groupBytes g) fun g' member => small g' (List.mem_cons_of_mem _ member)
    have room : (g :: rest).length + fuel = rest.length + fuel + 1 := by simp; omega
    rw [room, List.flatMap_cons, List.append_assoc, List.append_assoc, List.singleton_append, shape,
      parseIPv6Fields_colon (small g List.mem_cons_self) plain, ← shape, step]
    simp

/-- A list of groups is read back. -/
theorem parseIPv6Fields_chars {groups : List Nat} (nonempty : groups ≠ [])
    (small : ∀ g ∈ groups, g < 65536) (room : groups.length ≤ fuel) :
    parseIPv6Fields fuel (groupChars groups) ip ellipsis =
      some ([], ip ++ groups.flatMap groupBytes, ellipsis) := by
  -- All groups but the last are read in turn, and then the last.
  obtain ⟨front, last, rfl⟩ := List.eq_nil_or_concat groups |>.resolve_left nonempty
  simp only [List.concat_eq_append] at nonempty small room ⊢
  have enough : fuel = front.length + (fuel - front.length - 1 + 1) := by simp at room; omega
  have run := parseIPv6Fields_groups (fuel - front.length - 1 + 1) ip ellipsis
    (fun g member => small g (List.mem_append_left _ member)) last []
  rw [List.append_nil] at run
  rw [groupChars_concat, enough, run, parseIPv6Fields_last (small last (by simp))]
  simp

/-- A list of groups with a gap behind it is read up to the gap. -/
theorem parseIPv6Fields_chars_ellipsis {groups : List Nat} (nonempty : groups ≠ [])
    (small : ∀ g ∈ groups, g < 65536) (room : groups.length ≤ fuel) (rest : List Char) :
    parseIPv6Fields fuel (groupChars groups ++ ':' :: ':' :: rest) [] none =
      if rest = [] then some ([], groups.flatMap groupBytes, some (groups.flatMap groupBytes).length)
      else parseIPv6Fields (fuel - groups.length) rest (groups.flatMap groupBytes)
        (some (groups.flatMap groupBytes).length) := by
  obtain ⟨front, last, rfl⟩ := List.eq_nil_or_concat groups |>.resolve_left nonempty
  simp only [List.concat_eq_append] at nonempty small room ⊢
  have enough : fuel = front.length + (fuel - (front ++ [last]).length + 1) := by simp at room ⊢; omega
  have run := parseIPv6Fields_groups (fuel - (front ++ [last]).length + 1) [] none
    (fun g member => small g (List.mem_append_left _ member)) last (':' :: ':' :: rest)
  rw [groupChars_concat, List.append_assoc]
  conv => lhs; rw [enough, run, parseIPv6Fields_ellipsis (small last (by simp))]
  simp

end Groups

section ZeroRun

/-- A list is its leading zeros, and the rest. -/
theorem zeros_in_front (l : List Nat) :
    l = List.replicate (l.takeWhile (· = 0)).length 0 ++ l.drop (l.takeWhile (· = 0)).length := by
  induction l with
  | nil => rfl
  | cons n rest ih =>
    by_cases zero : n = 0
    · simpa [zero, List.replicate_succ] using ih
    · simp [zero]

/-- The run that is left out has at least two groups, all of them zero. -/
theorem zeroRun_spec {groups : List Nat} {start stop : Nat} (found : zeroRun groups = some (start, stop)) :
    start + 2 ≤ stop ∧ stop ≤ groups.length ∧
      groups = groups.take start ++ List.replicate (stop - start) 0 ++ groups.drop stop := by
  -- Whatever the search has kept so far is such a run.
  let Zeros : Option (Nat × Nat) → Prop := fun best => ∀ start stop, best = some (start, stop) →
    start + 2 ≤ stop ∧ stop ≤ groups.length ∧
      groups = groups.take start ++ List.replicate (stop - start) 0 ++ groups.drop stop
  suffices kept : Zeros (zeroRun groups) from kept start stop found
  unfold zeroRun
  apply List.foldlRecOn
  · intro start stop isNone
    cases isNone
  · intro best bestZeros start _
    dsimp only
    split
    · rename_i longer
      intro first last same
      simp only [Option.some.injEq, Prod.mk.injEq] at same
      obtain ⟨rfl, rfl⟩ := same
      have zeros := zeros_in_front (groups.drop start)
      have bound : ((groups.drop start).takeWhile (· = 0)).length ≤ (groups.drop start).length :=
        (List.takeWhile_prefix _).length_le
      rw [List.length_drop] at bound
      rw [List.drop_drop] at zeros
      refine ⟨by omega, by omega, ?_⟩
      rw [Nat.add_sub_cancel_left, List.append_assoc, ← zeros, List.take_append_drop]
    · exact bestZeros

end ZeroRun

section RoundTrip

/-- Each group has sixteen bits. -/
theorem groupsOf_small (bytes : List UInt8) : ∀ g ∈ groupsOf bytes, g < 65536 := by
  fun_induction groupsOf bytes with
  | case1 high low rest ih =>
    have := high.toNat_lt
    have := low.toNat_lt
    intro g member
    cases List.mem_cons.mp member with
    | inl same => omega
    | inr later => exact ih g later
  | case2 => simp

/-- The groups of an even number of bytes give the bytes back. -/
theorem flatMap_groupsOf (sized : bytes.length = 2 * n) :
    (groupsOf bytes).flatMap groupBytes = bytes ∧ (groupsOf bytes).length = n := by
  induction n generalizing bytes with
  | zero =>
    have none := List.eq_nil_of_length_eq_zero (by omega : bytes.length = 0)
    simp [none, groupsOf]
  | succ n ih =>
    -- The first two bytes make the first group.
    match bytes, sized with
    | high :: low :: rest, sized =>
      have := high.toNat_lt
      have := low.toNat_lt
      obtain ⟨same, count⟩ := ih (by simp at sized; omega : rest.length = 2 * n)
      have upper : (high.toNat * 256 + low.toNat) / 256 = high.toNat := by omega
      have lower : (high.toNat * 256 + low.toNat) % 256 = low.toNat := by omega
      simp [groupsOf, groupBytes, upper, lower, same, count]

/-- No zone starts within the groups. -/
theorem percent_not_mem_groupChars (groups : List Nat) : '%' ∉ groupChars groups := by
  -- Its characters are those of numbers, and colons.
  cases List.eq_nil_or_concat groups with
  | inl none => simp [none, groupChars]
  | inr some =>
    obtain ⟨front, last, rfl⟩ := some
    rw [List.concat_eq_append, groupChars_concat]
    intro member
    simp only [List.mem_append, List.mem_flatMap, List.mem_singleton] at member
    have digits : ∀ n : Nat, '%' ∉ Nat.toDigits 16 n := fun n inside =>
      (not_separator_of_mem_toDigits (by decide) (by decide) inside).2.2 rfl
    rcases member with ⟨g, _, inside | colon⟩ | inside
    · exact digits g inside
    · cases colon
    · exact digits last inside

/-- A list of groups does not start with a colon. -/
theorem groupChars_cons {groups : List Nat} (nonempty : groups ≠ []) :
    ∃ c more, groupChars groups = c :: more ∧ c ≠ ':' := by
  obtain ⟨g, rest, rfl⟩ := List.exists_cons_of_ne_nil nonempty
  obtain ⟨c, tail, shape, plain, _⟩ := toDigits_cons g
  cases rest with
  | nil => exact ⟨c, tail, by simp [groupChars, shape], plain⟩
  | cons g' rest' =>
    refine ⟨c, tail ++ ':' :: groupChars (g' :: rest'), ?_, plain⟩
    simp [groupChars, List.intercalate_cons_cons, shape]

theorem length_flatMap_groupBytes (groups : List Nat) :
    (groups.flatMap groupBytes).length = 2 * groups.length := by
  induction groups with
  | nil => rfl
  | cons g rest ih =>
    rw [List.flatMap_cons, List.length_append, ih, List.length_cons]
    simp only [groupBytes, List.length_cons, List.length_nil]
    omega

/-- What the fields of a text stand for: the ellipsis is filled up with zeros. -/
def fillEllipsis (ip : List UInt8) (ellipsis : Option Nat) : Option (List UInt8) :=
  if ip.length < 16 then
    ellipsis.map fun e => ip.take e ++ List.replicate (16 - ip.length) 0 ++ ip.drop e
  else if ellipsis.isSome then none
  else some ip

/-- An address that does not start with a gap is read group by group. -/
theorem parseIPv6_plain {c : Char} {more : List Char} {ip : List UInt8} {ellipsis : Option Nat}
    (noPercent : '%' ∉ c :: more) (plain : c ≠ ':')
    (read : parseIPv6Fields 8 (c :: more) [] none = some ([], ip, ellipsis)) :
    parseIPv6 (c :: more) = fillEllipsis ip ellipsis := by
  unfold parseIPv6
  rw [if_neg noPercent]
  split
  rename_i s front_ellipsis front
  split at front
  · rename_i rest isColon
    exact absurd (List.cons.inj isColon).1 plain
  · cases front
    simp [read, fillEllipsis]

/-- So is one that does, behind its gap. -/
theorem parseIPv6_front {c : Char} {more : List Char} {ip : List UInt8} {ellipsis : Option Nat}
    (noPercent : '%' ∉ c :: more)
    (read : parseIPv6Fields 8 (c :: more) [] (some 0) = some ([], ip, ellipsis)) :
    parseIPv6 (':' :: ':' :: c :: more) = fillEllipsis ip ellipsis := by
  have noPercent' : '%' ∉ ':' :: ':' :: c :: more := by simpa using noPercent
  unfold parseIPv6
  rw [if_neg noPercent']
  simp [read, fillEllipsis]

/-- A gap is filled with zeros up to sixteen bytes. -/
theorem fillEllipsis_between {left right : List UInt8} (short : left.length + right.length < 16) :
    fillEllipsis (left ++ right) (some left.length) =
      some (left ++ List.replicate (16 - (left.length + right.length)) 0 ++ right) := by
  simp [fillEllipsis, short]

/-- Eight groups are read back. -/
theorem parseIPv6_groups {groups : List Nat} (eight : groups.length = 8)
    (small : ∀ g ∈ groups, g < 65536) :
    parseIPv6 (groupChars groups) = some (groups.flatMap groupBytes) := by
  have nonempty : groups ≠ [] := by intro none; simp [none] at eight
  obtain ⟨c, more, shape, plain⟩ := groupChars_cons nonempty
  have noPercent := percent_not_mem_groupChars groups
  have read := @parseIPv6Fields_chars 8 [] none groups nonempty small (by omega)
  have full : (groups.flatMap groupBytes).length = 16 := by rw [length_flatMap_groupBytes, eight]
  rw [shape] at read noPercent ⊢
  rw [parseIPv6_plain noPercent plain read]
  simp [fillEllipsis, full]

/-- Two lists of groups with a gap between them are read back. -/
theorem parseIPv6_ellipsis {left right : List Nat} (short : left.length + right.length < 8)
    (smallLeft : ∀ g ∈ left, g < 65536) (smallRight : ∀ g ∈ right, g < 65536) :
    parseIPv6 (groupChars left ++ ':' :: ':' :: groupChars right) =
      some (left.flatMap groupBytes ++ List.replicate (16 - (2 * left.length + 2 * right.length)) 0 ++
        right.flatMap groupBytes) := by
  have lengthLeft := length_flatMap_groupBytes left
  have lengthRight := length_flatMap_groupBytes right
  have fill := @fillEllipsis_between (left.flatMap groupBytes) (right.flatMap groupBytes) (by omega)
  rw [lengthLeft, lengthRight] at fill
  by_cases noLeft : left = []
  · subst noLeft
    by_cases noRight : right = []
    · subst noRight
      rfl
    · -- The ellipsis is in front of the right half.
      obtain ⟨c, more, shape, _⟩ := groupChars_cons noRight
      have noPercent := percent_not_mem_groupChars right
      have read := @parseIPv6Fields_chars 8 [] (some 0) right noRight smallRight (by simp at short; omega)
      rw [show groupChars ([] : List Nat) = [] from rfl, List.nil_append]
      rw [shape] at noPercent read ⊢
      rw [parseIPv6_front noPercent read, ← fill]
      rfl
  · obtain ⟨c, more, shape, plain⟩ := groupChars_cons noLeft
    have noPercent : '%' ∉ groupChars left ++ ':' :: ':' :: groupChars right := by
      simp [percent_not_mem_groupChars]
    have read := @parseIPv6Fields_chars_ellipsis 8 left noLeft smallLeft (by omega) (groupChars right)
    have whole : parseIPv6Fields 8 (groupChars left ++ ':' :: ':' :: groupChars right) [] none =
        some ([], left.flatMap groupBytes ++ right.flatMap groupBytes, some (2 * left.length)) := by
      rw [read]
      by_cases noRight : right = []
      · subst noRight
        simp [groupChars, lengthLeft]
      · obtain ⟨c', more', shape', _⟩ := groupChars_cons noRight
        rw [if_neg (by simp [shape']), parseIPv6Fields_chars noRight smallRight (by omega), lengthLeft]
    rw [shape, List.cons_append] at whole noPercent ⊢
    rw [parseIPv6_plain noPercent plain whole, fill]

/-- A decimal field is read like a group, up to the dot. -/
theorem hexGroup_decimal {cs : List Char} (digits : ∀ c ∈ cs, ∃ d < 10, c = Nat.digitChar d)
    (rest : List Char) {off : Nat} (acc : Nat) (short : off + cs.length ≤ 4) :
    ∃ acc', hexGroup (cs ++ '.' :: rest) off acc = some (acc', off + cs.length, '.' :: rest) := by
  induction cs generalizing off acc with
  | nil => exact ⟨acc, by simp [hexGroup, show hexDigit? '.' = none from rfl]⟩
  | cons c more ih =>
    obtain ⟨d, small, rfl⟩ := digits c List.mem_cons_self
    rw [List.length_cons] at short
    obtain ⟨acc', read⟩ := ih (fun c member => digits c (List.mem_cons_of_mem _ member))
      (acc * 16 + d) (by omega : off + 1 + more.length ≤ 4)
    have room : ¬ off > 3 := by omega
    refine ⟨acc', ?_⟩
    simp only [List.cons_append, hexGroup, hexDigit?_digitChar (by omega : d < 16), room, ↓reduceIte, read,
      List.length_cons]
    congr 3
    omega

/-- A mapped IPv4 address is read back. -/
theorem parseIPv6_mapped (a b c d : UInt8) :
    parseIPv6 ("::ffff:" ++ dotted [a, b, c, d]).toList = some (v4InV6Prefix ++ [a, b, c, d]) := by
  have fields := parseIPv4Fields_dotted a b c d
  have shape := toList_dotted a b c d
  -- The text behind the group of ones starts with the digits of the first byte.
  have digits : ∀ x ∈ Nat.toDigits 10 a.toNat, ∃ d < 10, x = Nat.digitChar d :=
    fun x member => exists_digit_of_mem_toDigits (by decide) member
  have short : (Nat.toDigits 10 a.toNat).length ≤ 3 :=
    (Nat.length_toDigits_le_iff (by decide) (by decide)).mpr (by have := a.toNat_lt; omega)
  obtain ⟨acc, group⟩ := hexGroup_decimal digits (Nat.toDigits 10 b.toNat ++ '.' ::
    (Nat.toDigits 10 c.toNat ++ '.' :: Nat.toDigits 10 d.toNat)) 0 (by omega : 0 + _ ≤ 4)
  rw [← shape] at group
  have last : parseIPv6Fields 7 (dotted [a, b, c, d]).toList [0xff, 0xff] (some 0) =
      some ([], [0xff, 0xff, a, b, c, d], some 0) := by
    simp [parseIPv6Fields, group, fields, Nat.toDigits_ne_nil]
  obtain ⟨x, more, front, plain⟩ : ∃ x more, (dotted [a, b, c, d]).toList = x :: more ∧ x ≠ ':' := by
    cases start : Nat.toDigits 10 a.toNat with
    | nil => exact absurd start Nat.toDigits_ne_nil
    | cons x more =>
      have member : x ∈ Nat.toDigits 10 a.toNat := by simp [start]
      exact ⟨x, _, by rw [shape, start, List.cons_append],
        (not_separator_of_mem_toDigits (by decide) (by decide) member).2.1⟩
  have noPercent : '%' ∉ (dotted [a, b, c, d]).toList := by
    have number : ∀ n : Nat, '%' ∉ Nat.toDigits 10 n := fun n inside =>
      (not_separator_of_mem_toDigits (by decide) (by decide) inside).2.2 rfl
    rw [shape]
    simp [number]
  have whole : parseIPv6Fields 8 ('f' :: 'f' :: 'f' :: 'f' :: ':' :: (dotted [a, b, c, d]).toList) []
      (some 0) = some ([], [0xff, 0xff, a, b, c, d], some 0) := by
    have ones : Nat.toDigits 16 65535 = ['f', 'f', 'f', 'f'] := by decide
    have colon := @parseIPv6Fields_colon 7 65535 [] (some 0) (by decide) x more plain
    rw [ones, ← front] at colon
    exact colon.trans last
  have text : ("::ffff:" ++ dotted [a, b, c, d]).toList =
      ':' :: ':' :: 'f' :: 'f' :: 'f' :: 'f' :: ':' :: (dotted [a, b, c, d]).toList := by simp
  rw [text, parseIPv6_front (by simpa using noPercent) whole]
  rfl

/-- The text of sixteen bytes is read back. -/
theorem parseIPv6_text6 (sized : bytes.length = 16) :
    parseIPv6 (text6 bytes).toList = some bytes := by
  unfold text6
  split
  · -- A mapped address: its last four bytes are written with dots.
    rename_i mapped
    have four : (bytes.drop 12).length = 4 := by simp [sized]
    match shape : bytes.drop 12, four with
    | [a, b, c, d], _ =>
      rw [parseIPv6_mapped, ← mapped, ← shape, List.take_append_drop]
  · obtain ⟨same, eight⟩ := flatMap_groupsOf (n := 8) sized
    have small := groupsOf_small bytes
    unfold compressed
    split
    · rw [toList_groupsText, parseIPv6_groups eight small, same]
    · rename_i start stop found
      obtain ⟨long, bound, pieces⟩ := zeroRun_spec found
      have text : (groupsText ((groupsOf bytes).take start) ++ "::" ++
          groupsText ((groupsOf bytes).drop stop)).toList =
            groupChars ((groupsOf bytes).take start) ++ ':' :: ':' ::
              groupChars ((groupsOf bytes).drop stop) := by
        simp [toList_groupsText]
      rw [text, parseIPv6_ellipsis (by simp; omega)
        (fun g member => small g (List.mem_of_mem_take member))
        (fun g member => small g (List.mem_of_mem_drop member))]
      -- The zeros that are filled in are the bytes of the groups left out.
      have zeros : ∀ n : Nat, (List.replicate n 0).flatMap groupBytes = List.replicate (2 * n) 0 := by
        intro n
        induction n with
        | zero => rfl
        | succ n ih =>
          rw [List.replicate_succ, List.flatMap_cons, ih, Nat.mul_add, Nat.mul_one, Nat.add_comm,
            List.replicate_add]
          rfl
      have filled : 16 - (2 * ((groupsOf bytes).take start).length +
          2 * ((groupsOf bytes).drop stop).length) = 2 * (stop - start) := by
        simp; omega
      rw [filled, ← zeros, ← List.flatMap_append, ← List.flatMap_append, ← pieces, same]

/-- A text with no percent sign whose first separator is a colon. -/
def ColonFirst (s : List Char) : Prop :=
  '%' ∉ s ∧ ∃ cs rest, s = cs ++ ':' :: rest ∧ ∀ x ∈ cs, x ≠ '.' ∧ x ≠ ':' ∧ x ≠ '%'

/-- The first separator of a list of groups is a colon. -/
theorem groupChars_colon (groups : List Nat) (rest : List Char) :
    ∃ cs more, groupChars groups ++ ':' :: rest = cs ++ ':' :: more ∧
      ∀ x ∈ cs, x ≠ '.' ∧ x ≠ ':' ∧ x ≠ '%' := by
  have plain : ∀ g x, x ∈ Nat.toDigits 16 g → x ≠ '.' ∧ x ≠ ':' ∧ x ≠ '%' :=
    fun g x member => not_separator_of_mem_toDigits (by decide) (by decide) member
  match groups with
  | [] => exact ⟨[], rest, rfl, by simp⟩
  | [g] => exact ⟨Nat.toDigits 16 g, rest, by simp [groupChars], plain g⟩
  | g :: g' :: more =>
    refine ⟨Nat.toDigits 16 g, groupChars (g' :: more) ++ ':' :: rest, ?_, plain g⟩
    simp [groupChars, List.intercalate_cons_cons]

/-- So is that of an IPv6 address. -/
theorem colonFirst_text6 (sized : bytes.length = 16) :
    ColonFirst (text6 bytes).toList := by
  unfold text6
  split
  · have four : (bytes.drop 12).length = 4 := by simp [sized]
    match shape : bytes.drop 12, four with
    | [a, b, c, d], _ =>
      have number : ∀ n : Nat, '%' ∉ Nat.toDigits 10 n := fun n inside =>
        (not_separator_of_mem_toDigits (by decide) (by decide) inside).2.2 rfl
      have noPercent : '%' ∉ (dotted [a, b, c, d]).toList := by
        rw [toList_dotted]
        simp [number]
      refine ⟨?_, [], ':' :: 'f' :: 'f' :: 'f' :: 'f' :: ':' :: (dotted [a, b, c, d]).toList, ?_, ?_⟩
      · simpa using noPercent
      · simp
      · simp
  · unfold compressed
    split
    · -- Without a run left out, the first of eight groups ends at a colon.
      have eight : (groupsOf bytes).length = 8 := (flatMap_groupsOf (n := 8) sized).2
      obtain ⟨front, last, shape⟩ := List.eq_nil_or_concat (groupsOf bytes) |>.resolve_left (by
        intro none
        simp [none] at eight)
      rw [List.concat_eq_append] at shape
      rw [toList_groupsText]
      refine ⟨percent_not_mem_groupChars _, ?_⟩
      have frontNonempty : front ≠ [] := by
        intro none
        simp [shape, none] at eight
      obtain ⟨front', last', shape'⟩ := List.eq_nil_or_concat front |>.resolve_left frontNonempty
      obtain ⟨cs, more, found, plain⟩ := groupChars_colon front (Nat.toDigits 16 last)
      refine ⟨cs, more, ?_, plain⟩
      rw [← found, shape, groupChars_concat, shape', List.concat_eq_append, groupChars_concat]
      simp
    · rename_i start stop found
      obtain ⟨cs, more, text, plain⟩ := groupChars_colon ((groupsOf bytes).take start)
        (':' :: groupChars ((groupsOf bytes).drop stop))
      refine ⟨?_, cs, more, ?_, plain⟩
      · simp [toList_groupsText, percent_not_mem_groupChars]
      · rw [← text]
        simp [toList_groupsText]

/-- An IPv6 address is read back with its zone. -/
theorem parseZoned_text6 (bytes : Vector UInt8 16) {zone : List Char} {behind : List Char}
    (marks : behind = [] ∧ zone = [] ∨ zone ≠ [] ∧ behind = '%' :: zone) :
    parseZoned ((text6 bytes.toList).toList ++ behind) = some (.v6 bytes (String.ofList zone)) := by
  have sized : bytes.toList.length = 16 := by simp
  obtain ⟨noPercent, _⟩ := colonFirst_text6 sized
  have read := parseIPv6_text6 sized
  -- Everything before the first percent sign is the text of the bytes.
  have all : ∀ c ∈ (text6 bytes.toList).toList, decide (c ≠ '%') = true := by
    intro c member
    simp only [decide_eq_true_eq]
    intro same
    exact noPercent (same ▸ member)
  have front : ((text6 bytes.toList).toList ++ behind).takeWhile (· ≠ '%') = (text6 bytes.toList).toList := by
    rw [List.takeWhile_append_of_pos all]
    rcases marks with ⟨rfl, _⟩ | ⟨_, rfl⟩ <;> simp
  have back : (((text6 bytes.toList).toList ++ behind).dropWhile (· ≠ '%')).tail = zone := by
    rw [List.dropWhile_append_of_pos all]
    rcases marks with ⟨rfl, rfl⟩ | ⟨_, rfl⟩ <;> simp
  have marked : ¬ ('%' ∈ (text6 bytes.toList).toList ++ behind ∧ zone = []) := by
    rcases marks with ⟨rfl, _⟩ | ⟨nonempty, _⟩
    · simp [noPercent]
    · simp [nonempty]
  unfold parseZoned
  simp only [front, back, marked, ↓reduceIte, read, Option.bind_some]
  simp [Vector.toList]

/-- Every address is read back from its text. -/
theorem parseAddr_text (a : Addr) : parseAddr a.text = some a := by
  cases a with
  | v4 bytes =>
    have four : bytes.toList.length = 4 := by simp
    match shape : bytes.toList, four with
    | [a, b, c, d], _ =>
      have vector : bytes = ⟨#[a, b, c, d], rfl⟩ := by
        apply Vector.toList_inj.mp
        rw [shape]
        rfl
      have separator : (dotted [a, b, c, d]).toList.find? (fun c => c = '.' ∨ c = ':' ∨ c = '%') =
          some '.' := by
        rw [toList_dotted]
        exact find_separator
          (fun x member => not_separator_of_mem_toDigits (by decide) (by decide) member) (Or.inl rfl)
      simp only [Addr.text, shape, parseAddr, separator, parseIPv4Fields_dotted, Option.bind_some]
      simp [vector]
  | v6 bytes zone =>
    have sized : bytes.toList.length = 16 := by simp
    obtain ⟨_, cs, more, text, plain⟩ := colonFirst_text6 sized
    -- The first separator is a colon, with or without a zone behind the text.
    have separator : ∀ behind : List Char, ((text6 bytes.toList).toList ++ behind).find?
        (fun c => c = '.' ∨ c = ':' ∨ c = '%') = some ':' := by
      intro behind
      rw [text, List.append_assoc, List.cons_append]
      exact find_separator plain (Or.inr (Or.inl rfl))
    by_cases none : zone = ""
    · have read := parseZoned_text6 bytes (Or.inl ⟨rfl, rfl⟩ : ([] : List Char) = [] ∧ ([] : List Char) = [] ∨ _)
      have found := separator []
      rw [List.append_nil] at read found
      simp only [Addr.text, none, ↓reduceIte, parseAddr, found, read, String.ofList_nil]
    · have nonempty : zone.toList ≠ [] := by simpa using none
      have read := parseZoned_text6 bytes (Or.inr ⟨nonempty, rfl⟩)
      have shape : (text6 bytes.toList ++ "%" ++ zone).toList =
          (text6 bytes.toList).toList ++ '%' :: zone.toList := by simp
      simp only [Addr.text, none, ↓reduceIte, parseAddr, shape, separator, read]
      simp

end RoundTrip

end Rivora.Netip

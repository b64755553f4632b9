import Mathlib.Algebra.Order.Ring.Int

/-! Text forms of addresses: the parsers of Go's net package that the control plane calls. -/

namespace Rivora

/-- The sixteen bytes of an address. -/
abbrev IP := Vector UInt8 16

/-- The six bytes of a hardware address. -/
abbrev Mac := Vector UInt8 6

/-- The all-zero hardware address, which an unset field holds. -/
def Mac.zero : Mac := Vector.replicate 6 0

/-- The twelve bytes in front of an IPv4 address in its mapped form. -/
def v4InV6Prefix : List UInt8 := [0, 0, 0, 0, 0, 0, 0, 0, 0, 0, 0xff, 0xff]

/-- The value of one hexadecimal digit. -/
def hexDigit? (c : Char) : Option Nat :=
  if '0' ≤ c ∧ c ≤ '9' then some (c.toNat - '0'.toNat)
  else if 'a' ≤ c ∧ c ≤ 'f' then some (c.toNat - 'a'.toNat + 10)
  else if 'A' ≤ c ∧ c ≤ 'F' then some (c.toNat - 'A'.toNat + 10)
  else none

/--
The four fields of a dotted address.

A field is one to three digits without a leading zero; `digLen` counts the digits of the field
being read, so it is zero at the start and right after a dot.
-/
def parseIPv4Fields : List Char → (val digLen : Nat) → (fields : List UInt8) → Option (List UInt8)
  | [], val, _, fields =>
    if fields.length < 3 then none else some (fields ++ [UInt8.ofNat val])
  | c :: rest, val, digLen, fields =>
    if '0' ≤ c ∧ c ≤ '9' then
      -- A second digit after a zero would be a leading zero.
      if digLen = 1 ∧ val = 0 then none
      else
        let val := val * 10 + (c.toNat - '0'.toNat)
        if val > 255 then none else parseIPv4Fields rest val (digLen + 1) fields
    else if c = '.' then
      if digLen = 0 ∨ rest = [] then none
      else if fields.length = 3 then none
      else parseIPv4Fields rest 0 0 (fields ++ [UInt8.ofNat val])
    else none

/-- The hexadecimal digits at the front of a field: their value, how many, and what follows. -/
def hexGroup : List Char → (off acc : Nat) → Option (Nat × Nat × List Char)
  | [], off, acc => some (acc, off, [])
  | c :: rest, off, acc =>
    match hexDigit? c with
    | none => some (acc, off, c :: rest)
    | some d =>
      -- A fifth digit does not fit the field.
      if off > 3 then none else hexGroup rest (off + 1) (acc * 16 + d)

/--
The colon-separated fields of an IPv6 address, at most `fuel` of them.

The bytes read so far are `ip`; `ellipsis` is the position where `::` stood, if it has been seen.
-/
def parseIPv6Fields : (fuel : Nat) → List Char → (ip : List UInt8) → (ellipsis : Option Nat) →
    Option (List Char × List UInt8 × Option Nat)
  | 0, s, ip, ellipsis => some (s, ip, ellipsis)
  | fuel + 1, s, ip, ellipsis =>
    match hexGroup s 0 0 with
    | none => none
    | some (acc, off, rest) =>
      if off = 0 then none
      else if rest.head? = some '.' then
        -- The address may end in a dotted IPv4 address.
        if ellipsis = none ∧ ip.length ≠ 12 then none
        else if ip.length + 4 > 16 then none
        else (parseIPv4Fields s 0 0 []).map fun fields => ([], ip ++ fields, ellipsis)
      else
        let ip := ip ++ [UInt8.ofNat (acc / 256), UInt8.ofNat (acc % 256)]
        match rest with
        | [] => some ([], ip, ellipsis)
        | c :: rest =>
          if c ≠ ':' then none
          else
            match rest with
            | [] => none
            | ':' :: rest =>
              if ellipsis.isSome then none
              else if rest = [] then some ([], ip, some ip.length)
              else parseIPv6Fields fuel rest ip (some ip.length)
            | rest => parseIPv6Fields fuel rest ip ellipsis

/-- An IPv6 address without a zone. -/
def parseIPv6 (s : List Char) : Option (List UInt8) :=
  if '%' ∈ s then none
  else
    let (s, ellipsis) := match s with
      | ':' :: ':' :: rest => (rest, some 0)
      | s => (s, none)
    if ellipsis = some 0 ∧ s = [] then some (List.replicate 16 0)
    else
      match parseIPv6Fields 8 s [] ellipsis with
      | some ([], ip, ellipsis) =>
        if ip.length < 16 then
          -- The ellipsis stands for the zeros that are missing.
          ellipsis.map fun e => ip.take e ++ List.replicate (16 - ip.length) 0 ++ ip.drop e
        else if ellipsis.isSome then none
        else some ip
      | _ => none

/-- The bytes of an address, which its first separator tells the family of. -/
def parseAddrBytes (s : List Char) : Option (List UInt8) :=
  match s.find? fun c => c = '.' ∨ c = ':' ∨ c = '%' with
  | some '.' => (parseIPv4Fields s 0 0 []).map fun fields => v4InV6Prefix ++ fields
  | some ':' => parseIPv6 s
  | _ => none

theorem size_four {bytes : List UInt8} (sized : bytes.length = 4) : bytes.toArray.size = 4 := by simpa using sized

theorem size_sixteen {bytes : List UInt8} (sized : bytes.length = 16) : bytes.toArray.size = 16 := by
  simpa using sized

/-- Go's `net.ParseIP`. -/
def parseIP (s : String) : Option IP :=
  (parseAddrBytes s.toList).bind fun bytes =>
    if sized : bytes.length = 16 then some ⟨bytes.toArray, size_sixteen sized⟩ else none

/-- Go's `IP.To4`: the last four bytes of a mapped address. -/
def IP.to4 (ip : IP) : Option (Vector UInt8 4) :=
  if ip.toList.take 12 = v4InV6Prefix then some #v[ip[12], ip[13], ip[14], ip[15]] else none

/-- The two-byte groups of an address's bytes. -/
def groupsOf : List UInt8 → List Nat
  | high :: low :: rest => (high.toNat * 256 + low.toNat) :: groupsOf rest
  | _ => []

/-- Where the longest run of at least two zero groups starts and ends; the first one of several. -/
def zeroRun (groups : List Nat) : Option (Nat × Nat) :=
  (List.range groups.length).foldl (fun best start =>
    let length := ((groups.drop start).takeWhile (· = 0)).length
    let longest := (best.map fun (first, last) => last - first).getD 0
    if 2 ≤ length ∧ longest < length then some (start, start + length) else best) none

/-- Groups in hexadecimal, with a colon between each two. -/
def groupsText (groups : List Nat) : String :=
  ":".intercalate (groups.map fun g => String.ofList (Nat.toDigits 16 g))

/-- Go's `IP.String`: dotted for a mapped address, and with its longest run of zeros left out otherwise. -/
def IP.text (ip : IP) : String :=
  match ip.to4 with
  | some ip4 => ".".intercalate (ip4.toList.map fun byte => toString byte.toNat)
  | none =>
    let groups := groupsOf ip.toList
    match zeroRun groups with
    | none => groupsText groups
    | some (start, stop) => groupsText (groups.take start) ++ "::" ++ groupsText (groups.drop stop)

/-- An address as a map key or value holds it. -/
inductive Addr where
  /-- The four network-order bytes, loaded as one little-endian word. -/
  | v4 (word : UInt32)
  /-- The sixteen network-order bytes. -/
  | v6 (bytes : IP)
  deriving DecidableEq, Repr

/-- Whether an address belongs to the IPv4 half of the maps. -/
def Addr.isV4 : Addr → Bool
  | .v4 _ => true
  | .v6 _ => false

/-- The word whose little-endian bytes are the address's network-order bytes. -/
def ip4ToBE32 (ip : Vector UInt8 4) : UInt32 :=
  ip[0].toUInt32 ||| ip[1].toUInt32 <<< 8 ||| ip[2].toUInt32 <<< 16 ||| ip[3].toUInt32 <<< 24

/-- The key or value form of a parsed address: IPv4 whenever `To4` answers. -/
def IP.toAddr (ip : IP) : Addr :=
  match ip.to4 with
  | some ip4 => .v4 (ip4ToBE32 ip4)
  | none => .v6 ip

/-- The map form of an address text, if it parses. -/
def parseAddr (address : String) : Option Addr := (parseIP address).map IP.toAddr

/-- The byte swap that turns a port into the word whose little-endian bytes are in network order. -/
def htons (port : UInt16) : UInt16 := port <<< 8 ||| port >>> 8

/-- Two hexadecimal digits, followed by the expected separator unless the text ends there. -/
def xtoi2 (s : List Char) (separator : Char) : Option UInt8 :=
  match s with
  | [a, b] => do
    let high ← hexDigit? a
    let low ← hexDigit? b
    return UInt8.ofNat (high * 16 + low)
  | a :: b :: c :: _ =>
    if c ≠ separator then none
    else do
      let high ← hexDigit? a
      let low ← hexDigit? b
      return UInt8.ofNat (high * 16 + low)
  | _ => none

/-- `n` byte pairs, each three characters further on. -/
def parseMACPairs (separator : Char) : (n : Nat) → List Char → Option (List UInt8)
  | 0, _ => some []
  | n + 1, s => do
    let byte ← xtoi2 s separator
    let rest ← parseMACPairs separator n (s.drop 3)
    return byte :: rest

/-- `n` groups of two bytes, each five characters further on. -/
def parseMACQuads : (n : Nat) → List Char → Option (List UInt8)
  | 0, _ => some []
  | n + 1, s => do
    let high ← xtoi2 (s.take 2) '.'
    let low ← xtoi2 (s.drop 2) '.'
    let rest ← parseMACQuads n (s.drop 5)
    return high :: low :: rest

/-- Go's `net.ParseMAC`: 6, 8 or 20 bytes, with colons, hyphens or dots. -/
def parseMACBytes (s : List Char) : Option (List UInt8) :=
  if s.length < 14 then none
  else if s[2]? = some ':' ∨ s[2]? = some '-' then
    let n := (s.length + 1) / 3
    if (s.length + 1) % 3 ≠ 0 then none
    else if n ≠ 6 ∧ n ≠ 8 ∧ n ≠ 20 then none
    else parseMACPairs (s[2]?.getD ':') n s
  else if s[4]? = some '.' then
    let n := 2 * (s.length + 1) / 5
    if (s.length + 1) % 5 ≠ 0 then none
    else if n ≠ 6 ∧ n ≠ 8 ∧ n ≠ 20 then none
    else parseMACQuads (n / 2) s
  else none

/-- The first six bytes of a parsed hardware address, which is all the datapath keeps. -/
def parseMAC (s : String) : Option Mac :=
  (parseMACBytes s.toList).map fun bytes =>
    #v[bytes.getD 0 0, bytes.getD 1 0, bytes.getD 2 0, bytes.getD 3 0, bytes.getD 4 0, bytes.getD 5 0]

example : (parseAddr "fd00::1").isSome ∧ parseAddr "10.0.0.01" = none ∧ parseAddr "1::2::3" = none := by
  decide
example : (parseIP "2001:DB8:0:0:1:0:0:1").map IP.text = some "2001:db8::1:0:0:1" := by decide +kernel

end Rivora

import Rivora.Net.Address

/-! Addresses and prefixes of Go's netip package, which keeps IPv4-mapped addresses and zones apart. -/

namespace Rivora.Netip

/-- An address: four bytes, or sixteen with a zone that is empty if there is none. -/
inductive Addr where
  | v4 (bytes : Vector UInt8 4)
  | v6 (bytes : Vector UInt8 16) (zone : String)
  deriving DecidableEq, Repr

namespace Addr

/-- The bytes in network order. -/
def asSlice : Addr → List UInt8
  | .v4 bytes => bytes.toList
  | .v6 bytes _ => bytes.toList

/-- The number of bits of the family. -/
def bitLen : Addr → Nat
  | .v4 _ => 32
  | .v6 _ _ => 128

/-- Whether this is an IPv4 address; a mapped one is not. -/
def is4 : Addr → Bool
  | .v4 _ => true
  | .v6 _ _ => false

/-- The zone, empty for an address without one. -/
def zone : Addr → String
  | .v4 _ => ""
  | .v6 _ zone => zone

/-- The address as one number. -/
def value (a : Addr) : Nat := a.asSlice.foldl (fun n byte => n * 256 + byte.toNat) 0

end Addr

/-- The address with these bytes, if there are four or sixteen. -/
def addrFromSlice (bytes : List UInt8) : Option Addr :=
  if sized : bytes.length = 4 then some (.v4 ⟨bytes.toArray, size_four sized⟩)
  else if sized : bytes.length = 16 then some (.v6 ⟨bytes.toArray, size_sixteen sized⟩ "")
  else none

/-- An IPv6 text: the zone begins behind the first percent sign and may not be empty. -/
def parseZoned (s : List Char) : Option Addr :=
  let front := s.takeWhile (· ≠ '%')
  let zone := (s.dropWhile (· ≠ '%')).tail
  if '%' ∈ s ∧ zone = [] then none
  else
    (parseIPv6 front).bind fun bytes =>
      if sized : bytes.length = 16 then
        some (.v6 ⟨bytes.toArray, size_sixteen sized⟩ (String.ofList zone))
      else none

/-- Go's `netip.ParseAddr`: the first separator tells the family. -/
def parseAddr (s : String) : Option Addr :=
  match s.toList.find? fun c => c = '.' ∨ c = ':' ∨ c = '%' with
  | some '.' =>
    (parseIPv4Fields s.toList 0 0 []).bind fun bytes =>
      if sized : bytes.length = 4 then some (.v4 ⟨bytes.toArray, size_four sized⟩) else none
  | some ':' => parseZoned s.toList
  | _ => none

/-- Bytes in decimal, with a dot between each two. -/
def dotted (bytes : List UInt8) : String := ".".intercalate (bytes.map fun byte => toString byte.toNat)

/-- Groups in hexadecimal, with the longest run of zeros left out. -/
def compressed (groups : List Nat) : String :=
  match zeroRun groups with
  | none => groupsText groups
  | some (start, stop) => groupsText (groups.take start) ++ "::" ++ groupsText (groups.drop stop)

/-- Sixteen bytes as text: dotted behind `::ffff:` for a mapped address. -/
def text6 (bytes : List UInt8) : String :=
  if bytes.take 12 = v4InV6Prefix then "::ffff:" ++ dotted (bytes.drop 12)
  else compressed (groupsOf bytes)

/-- Go's `Addr.String`. -/
def Addr.text : Addr → String
  | .v4 bytes => dotted bytes.toList
  | .v6 bytes zone => if zone = "" then text6 bytes.toList else text6 bytes.toList ++ "%" ++ zone

/-- A block of addresses: those that share the first bits with one of them. -/
structure Prefix where
  addr : Addr
  bits : Nat
  fits : bits ≤ addr.bitLen
  deriving DecidableEq

/-- Go's `Prefix.String`. -/
def Prefix.text (p : Prefix) : String := p.addr.text ++ "/" ++ toString p.bits

/-- An address without its zone. -/
def Addr.withoutZone : Addr → Addr
  | .v4 bytes => .v4 bytes
  | .v6 bytes _ => .v6 bytes ""

/-- The block of one address alone; a block has no zone. -/
def hostPrefix (a : Addr) : Prefix := ⟨a.withoutZone, a.bitLen, by cases a <;> exact Nat.le_refl _⟩

/-- Decimal digits without a sign or a leading zero. -/
def parseBits (s : List Char) : Option Nat :=
  if s = [] ∨ ¬ s.all Char.isDigit ∨ (1 < s.length ∧ s.head? = some '0') then none
  else some (s.foldl (fun n c => n * 10 + (c.toNat - '0'.toNat)) 0)

/-- Go's `netip.ParsePrefix`: an address without a zone, a slash and a number of bits. -/
def parsePrefix (s : String) : Option Prefix := do
  let behind := s.toList.reverse.takeWhile (· ≠ '/')
  let addr ← parseAddr (String.ofList (s.toList.take (s.length - behind.length - 1)))
  if addr.zone ≠ "" then none
  else
    let bits ← parseBits behind.reverse
    if fits : bits ≤ addr.bitLen then some ⟨addr, bits, fits⟩ else none

/-- The bytes of a number in network order. -/
def bytesOf : (length value : Nat) → List UInt8
  | 0, _ => []
  | length + 1, value => bytesOf length (value / 256) ++ [UInt8.ofNat (value % 256)]

theorem length_bytesOf (length value : Nat) : (bytesOf length value).length = length := by
  induction length generalizing value with
  | zero => rfl
  | succ length ih => simp [bytesOf, ih]

/-- The address of the same family with another value, without a zone. -/
def Addr.withValue (a : Addr) (value : Nat) : Addr :=
  match a with
  | .v4 _ => .v4 ⟨(bytesOf 4 value).toArray, by simp [length_bytesOf]⟩
  | .v6 _ _ => .v6 ⟨(bytesOf 16 value).toArray, by simp [length_bytesOf]⟩ ""

@[simp] theorem Addr.bitLen_withValue (a : Addr) (value : Nat) : (a.withValue value).bitLen = a.bitLen := by
  cases a with
  | v4 bytes => rfl
  | v6 bytes zone => rfl

namespace Prefix

/-- How many bits the prefix leaves open. -/
def hostBits (p : Prefix) : Nat := p.addr.bitLen - p.bits

/-- The first address of the block. -/
def network (p : Prefix) : Addr := p.addr.withValue (p.addr.value / 2 ^ p.hostBits * 2 ^ p.hostBits)

/-- The prefix with the first address of its block. -/
def masked (p : Prefix) : Prefix := ⟨p.network, p.bits, by rw [network, Addr.bitLen_withValue]; exact p.fits⟩

/-- Whether an address is in the block; one with a zone is in none. -/
def contains (p : Prefix) (a : Addr) : Bool :=
  a.zone = "" && a.bitLen = p.addr.bitLen &&
    a.value / 2 ^ p.hostBits = p.addr.value / 2 ^ p.hostBits

end Prefix

/-- Add one to the last byte and carry, the bytes given last to first. -/
def carry : List UInt8 → Option (List UInt8)
  | [] => none
  | byte :: rest => if byte + 1 ≠ 0 then some ((byte + 1) :: rest) else (carry rest).map (0 :: ·)

/-- The address after one, unless it is the last of its family. -/
def nextAddr (a : Addr) : Option Addr :=
  (carry a.asSlice.reverse).bind fun bytes => addrFromSlice bytes.reverse

/-- Go's `Addr.Compare`, whether the first comes after the second: by family, value and zone. -/
def after (a b : Addr) : Bool :=
  if a.bitLen ≠ b.bitLen then b.bitLen < a.bitLen
  else if a.value ≠ b.value then b.value < a.value
  else b.zone < a.zone

example : (parseAddr "::ffff:10.0.0.1").map Addr.text = some "::ffff:10.0.0.1" := by decide +kernel
example : (parsePrefix "10.1.2.3/24").map (fun p => p.masked.addr.text) = some "10.1.2.0" := by
  decide +kernel

end Rivora.Netip

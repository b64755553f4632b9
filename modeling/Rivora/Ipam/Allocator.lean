import Rivora.Ipam.Pool
import Rivora.Lib.FiniteMap
import Rivora.Lib.Run

/-! The address allocator: which address of which pool is assigned to which object. -/

namespace Rivora.Ipam

/-- What the allocator knows of one pool. -/
structure PoolSpec where
  addresses : List String
  prefixes : List Netip.Prefix
  autoAssign : Bool

/-- Whether a pool offers an address that was written as a text. -/
def PoolSpec.offers (spec : PoolSpec) (ip : String) (addr : Netip.Addr) : Bool :=
  spec.addresses.contains ip || spec.addresses.contains addr.text ||
    spec.prefixes.any fun pfx => pfx.contains addr

/-- The allocator's tables. -/
structure Allocator where
  pools : FMap String PoolSpec
  /-- The object an address is assigned to. -/
  addrOwner : FMap String String
  /-- The address an object has. -/
  ownerAddr : FMap String String
  /-- The pool an assigned address was taken from. -/
  addrPool : FMap String String

/-- What a call does not decide: the order in which the pools are visited, and the random bytes. -/
structure Chance where
  order : List String → List String
  order_perm : ∀ names, (order names).Perm names
  /-- The bytes of each read of the random source, unless it fails. -/
  random : Nat → Option (Nat → UInt8)

/-- One bit of a list of bytes, counted from the first byte's highest. -/
def putBit (bytes : List UInt8) (at_ : Nat) (on : Bool) : List UInt8 :=
  bytes.modify (at_ / 8) fun byte =>
    let bit := (1 : UInt8) <<< UInt8.ofNat (7 - at_ % 8)
    if on then byte ||| bit else byte &&& ~~~bit

/-- An address of a block with these random bytes for its open bits. -/
def randomInPrefix (pfx : Netip.Prefix) (random : Nat → UInt8) : Option Netip.Addr :=
  Netip.addrFromSlice ((List.range pfx.hostBits).foldl (fun out i =>
    putBit out (pfx.bits + i) (random (i / 8) &&& (1 : UInt8) <<< UInt8.ofNat (7 - i % 8) ≠ 0))
    pfx.network.asSlice)

namespace Allocator

/-- An allocator without pools and assignments. -/
def new : Allocator := ⟨.empty, .empty, .empty, .empty⟩

/-- Replace the pools; assignments stay as they are. -/
def setPools (a : Allocator) (pools : FMap String PoolSpec) : Allocator := { a with pools := pools }

/-- Whether an address is assigned to anybody. -/
def taken (a : Allocator) (ip : String) : Bool := (a.addrOwner.get? ip).isSome

/-- The first pool met that offers an address; empty if there is none. -/
def poolFor (a : Allocator) (chance : Chance) (ip : String) : String :=
  match Netip.parseAddr ip with
  | none => ""
  | some addr =>
    ((chance.order a.pools.keys).find? fun name =>
      (a.pools.get? name).any fun spec => spec.offers ip addr).getD ""

/-- Assign an address. -/
def commit (a : Allocator) (key ip : String) : Allocator :=
  { a with addrOwner := a.addrOwner.insert ip key, ownerAddr := a.ownerAddr.insert key ip }

/-- Remember the pool an address was taken from. -/
def notePool (a : Allocator) (ip pool : String) : Allocator :=
  { a with addrPool := a.addrPool.insert ip pool }

/-- Record an assignment found in a status. -/
def reserve (a : Allocator) (chance : Chance) (ip key : String) : Except String Unit × Allocator :=
  match a.addrOwner.get? ip with
  | some owner =>
    if owner ≠ key then (.error ("address " ++ ip ++ " already reserved by " ++ owner), a)
    else (.ok (), recorded)
  | none => (.ok (), recorded)
where
  recorded : Allocator :=
    let pool := a.poolFor chance ip
    if pool ≠ "" then (a.commit key ip).notePool ip pool else a.commit key ip

/-- The pools an automatic or a named allocation looks at, in this order. -/
def candidatePools (a : Allocator) (chance : Chance) (preferred : String) : List String :=
  if preferred ≠ "" then if (a.pools.get? preferred).isSome then [preferred] else []
  else (chance.order a.pools.keys).filter fun name => (a.pools.get? name).any PoolSpec.autoAssign

/--
A free address of a block, tried at most `left` times.

Also answers how often the random source has been read.
-/
def drawFrom (a : Allocator) (chance : Chance) (pfx : Netip.Prefix) : (left reads : Nat) →
    Option String × Nat
  | 0, reads => (none, reads)
  | left + 1, reads =>
    match (chance.random reads).bind (randomInPrefix pfx) with
    | none => (none, reads + 1)
    | some addr =>
      -- The network address itself is passed over.
      if addr = pfx.network ∨ a.taken addr.text then a.drawFrom chance pfx left (reads + 1)
      else (some addr.text, reads + 1)

/-- A free address of a block: its only one, or one drawn at random. -/
def allocFromPrefix (a : Allocator) (chance : Chance) (pfx : Netip.Prefix) (reads : Nat) :
    Option String × Nat :=
  if pfx.hostBits = 0 then
    if a.taken pfx.network.text then (none, reads) else (some pfx.network.text, reads)
  else a.drawFrom chance pfx 64 reads

/-- A free address of the first block that has one. -/
def allocFromPrefixes (a : Allocator) (chance : Chance) : List Netip.Prefix → (reads : Nat) →
    Option String × Nat
  | [], reads => (none, reads)
  | pfx :: rest, reads =>
    match a.allocFromPrefix chance pfx reads with
    | (some ip, reads) => (some ip, reads)
    | (none, reads) => a.allocFromPrefixes chance rest reads

/-- A free address of a pool: a listed one, or one of its blocks. -/
def allocFromPool (a : Allocator) (chance : Chance) (spec : PoolSpec) (reads : Nat) : Option String × Nat :=
  match spec.addresses.find? fun ip => !a.taken ip with
  | some ip => (some ip, reads)
  | none => a.allocFromPrefixes chance spec.prefixes reads

/-- A free address of the first pool that has one, and that pool. -/
def allocFromPools (a : Allocator) (chance : Chance) : List String → (reads : Nat) →
    Option (String × String)
  | [], _ => none
  | name :: rest, reads =>
    match a.allocFromPool chance ((a.pools.get? name).getD ⟨[], [], false⟩) reads with
    | (some ip, _) => some (ip, name)
    | (none, reads) => a.allocFromPools chance rest reads

/-- An address of a pool for an object that asks for none in particular. -/
def allocateAny (a : Allocator) (chance : Chance) (key preferredPool : String) :
    Except String String × Allocator :=
  match a.candidatePools chance preferredPool with
  | [] =>
    if preferredPool ≠ "" then (.error ("pool \"" ++ preferredPool ++ "\" not found"), a)
    else (.error "no auto-assign address pool with room", a)
  | pools =>
    match a.allocFromPools chance pools 0 with
    | some (ip, name) => (.ok ip, (a.commit key ip).notePool ip name)
    | none =>
      (.error ("no free address in pool \"" ++
        (if preferredPool ≠ "" then preferredPool else "auto-assign") ++ "\""), a)

/-- The address an object asks for, if it is free and in a pool. -/
def allocatePinned (a : Allocator) (chance : Chance) (key pinnedIP : String) :
    Except String String × Allocator :=
  match a.addrOwner.get? pinnedIP with
  | some owner =>
    if owner ≠ key then
      (.error ("requested address " ++ pinnedIP ++ " is already assigned to " ++ owner), a)
    else inPool
  | none => inPool
where
  inPool : Except String String × Allocator :=
    if a.poolFor chance pinnedIP = "" then
      (.error ("requested address " ++ pinnedIP ++ " is not in any configured pool"), a)
    else (.ok pinnedIP, a.commit key pinnedIP)

/-- Assign an address to an object, unless it has one. -/
def allocate (a : Allocator) (chance : Chance) (key preferredPool pinnedIP : String) :
    Except String String × Allocator :=
  match a.ownerAddr.get? key with
  | some existing => (.ok existing, a)
  | none =>
    if pinnedIP ≠ "" then a.allocatePinned chance key pinnedIP
    else a.allocateAny chance key preferredPool

/-- Free the address an object has. -/
def release (a : Allocator) (key : String) : Allocator :=
  match a.ownerAddr.get? key with
  | none => a
  | some ip =>
    { a with
      ownerAddr := a.ownerAddr.erase key
      addrOwner := a.addrOwner.erase ip
      addrPool := a.addrPool.erase ip }

end Allocator

/-- A call of the allocator. -/
inductive Call where
  | setPools (pools : FMap String PoolSpec)
  | reserve (ip key : String)
  | allocate (key preferredPool pinnedIP : String)
  | release (key : String)

/-- The tables after a call. -/
def Allocator.step (a : Allocator) (event : Call × Chance) : Allocator :=
  match event.1 with
  | .setPools pools => a.setPools pools
  | .reserve ip key => (a.reserve event.2 ip key).2
  | .allocate key preferredPool pinnedIP => (a.allocate event.2 key preferredPool pinnedIP).2
  | .release key => a.release key

end Rivora.Ipam

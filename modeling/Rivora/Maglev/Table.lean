/-! The consistent-hashing lookup table: permutations by double hashing, filled round-robin. -/

namespace Rivora.Maglev

/-- One backend and its relative share of the table. -/
structure Member where
  name : String
  weight : Nat
  deriving DecidableEq, Repr

/-- An unset weight counts as one. -/
def normalizeWeight (w : Nat) : Nat := if w = 0 then 1 else w

/-- The bytes of a text. -/
def utf8Bytes (s : String) : List UInt8 := s.toList.flatMap String.utf8EncodeChar

/-- The 64-bit FNV-1a hash of a list of bytes. -/
def fnv64a (bytes : List UInt8) : UInt64 :=
  bytes.foldl (fun h b => (h ^^^ b.toUInt64) * 1099511628211) 14695981039346656037

/-- The hash of a text behind the four little-endian bytes of a seed. -/
def hash (s : String) (seed : UInt32) : UInt64 :=
  fnv64a ([seed.toUInt8, (seed >>> 8).toUInt8, (seed >>> 16).toUInt8, (seed >>> 24).toUInt8]
    ++ utf8Bytes s)

/-- One virtual entry: a permutation of the slots, and the backend it fills slots for. -/
structure VirtualEntry where
  offset : Nat
  skip : Nat
  backendIdx : Nat
  deriving DecidableEq, Repr

/-- Why no table was built. -/
inductive BuildError where
  /-- There is no backend. -/
  | noBackends
  /-- A table of no more than one slot divides by zero. -/
  | divideByZero
  /-- The table has no more slots than the backends have weight. -/
  | tooSmall (m total : Nat)
  /-- Some permutation never meets an empty slot, and the search goes on for ever. -/
  | diverges
  deriving DecidableEq, Repr

/-- The text of an error that is returned. -/
def BuildError.text : BuildError → String
  | .noBackends => "maglev: no backends"
  | .tooSmall m total => "maglev: table size " ++ toString m ++
      " must exceed total backend weight " ++ toString total
  | _ => ""

section Build

variable (hash : String → UInt32 → UInt64) (m : Nat)

/-- The hash input of a backend's `c`-th virtual entry; the first is the bare name. -/
def virtualKey (name : String) (c : Nat) : String :=
  if c > 0 then name ++ "#" ++ toString c else name

/-- A backend's `c`-th virtual entry. -/
def virtualEntry (b : Member) (i c : Nat) : VirtualEntry where
  offset := (hash (virtualKey b.name c) 0xd15ea5e).toNat % m
  skip := (hash (virtualKey b.name c) 0x5eedbeef).toNat % (m - 1) + 1
  backendIdx := i

/-- As many virtual entries for each backend as it has weight, in order. -/
def virtuals (backends : List Member) : List VirtualEntry :=
  backends.zipIdx.flatMap fun (b, i) =>
    (List.range (normalizeWeight b.weight)).map fun c => virtualEntry hash m b i c

/--
The next empty slot of an entry's permutation, and how far along it that is.

The permutation repeats after `m` steps, so a search that fails for that long fails for ever.
-/
def probe (table : List (Option Nat)) (ve : VirtualEntry) : (fuel next : Nat) → Option (Nat × Nat)
  | 0, _ => none
  | fuel + 1, next =>
    let slot := (ve.offset + next * ve.skip) % m
    if table[slot]? = some none then some (slot, next) else probe table ve fuel (next + 1)

/-- Fill the remaining slots, one per virtual entry in turn. -/
def fill (vs : List VirtualEntry) :
    (remaining v : Nat) → (table : List (Option Nat)) → (next : List Nat) →
      Option (List (Option Nat))
  | 0, _, table, _ => some table
  | remaining + 1, v, table, next =>
    match vs[v]? with
    | none => none
    | some ve =>
      match probe m table ve m (next.getD v 0) with
      | none => none
      | some (slot, n) =>
        -- After the last entry the next round starts with the first.
        fill vs remaining (if v + 1 = vs.length then 0 else v + 1)
          (table.set slot (some ve.backendIdx)) (next.set v (n + 1))

/-- The lookup table of `m` slots, each naming a backend by its position in the list. -/
def buildTableWith (backends : List Member) : Except BuildError (List Nat) :=
  if backends = [] then .error .noBackends
  else if m ≤ 1 then .error .divideByZero
  else
    let vs := virtuals hash m backends
    if m ≤ vs.length then .error (.tooSmall m vs.length)
    else
      match fill m vs m 0 (List.replicate m none) (List.replicate vs.length 0) with
      | none => .error .diverges
      -- Every slot has been filled, so nothing is dropped here.
      | some table => .ok table.reduceOption

end Build

/-- The lookup table under the hash the code uses. -/
def buildTable (m : Nat) (backends : List Member) : Except BuildError (List Nat) :=
  buildTableWith hash m backends

end Rivora.Maglev

import Rivora.Net.NetipLaws
import Rivora.Text

/-! Address pools: from the texts of an AddressPool to the addresses and prefixes it offers. -/

namespace Rivora.Ipam

open Text

/-- The largest number of open bits for which every address is listed. -/
def maxEagerHostBits : Nat := 16

/-- Addresses that are listed, and prefixes that are too large to be. -/
structure Expanded where
  addresses : List String
  prefixes : List Netip.Prefix

/-- The network and broadcast addresses that some old equipment does not take. -/
def isBuggyIPv4 (addr : Netip.Addr) : Bool :=
  addr.is4 && (addr.asSlice.getLast? = some 0 || addr.asSlice.getLast? = some 255)

/-- The addresses of a block from one on, of which there are at most `left`. -/
def addressesFrom (pfx : Netip.Prefix) (avoidBuggyIPs : Bool) : (left : Nat) → Netip.Addr → List String
  | 0, _ => []
  | left + 1, addr =>
    if !pfx.contains addr then []
    else
      let rest := match Netip.nextAddr addr with
        | none => []
        | some next => addressesFrom pfx avoidBuggyIPs left next
      if avoidBuggyIPs && isBuggyIPv4 addr then rest else addr.text :: rest

/-- A pool given as a CIDR. -/
def parseCIDR (spec : String) (avoidBuggyIPs : Bool) : Except String Expanded :=
  match Netip.parsePrefix spec with
  | none => .error ""
  | some pfx =>
    let pfx := pfx.masked
    if pfx.hostBits > maxEagerHostBits then .ok ⟨[], [pfx]⟩
    else .ok ⟨addressesFrom pfx avoidBuggyIPs (2 ^ pfx.hostBits) pfx.addr, []⟩

/-- The addresses from one to another; more than `left` further ones are too many. -/
def addressesUpTo (stop : Netip.Addr) : (left : Nat) → Netip.Addr → Except String (List String)
  | 0, cur => if cur = stop then .ok [cur.text] else .error "range too large"
  | left + 1, cur =>
    if cur = stop then .ok [cur.text]
    else
      match Netip.nextAddr cur with
      | none => .error "range overflow"
      | some next => (addressesUpTo stop left next).map (cur.text :: ·)

/-- A pool given as its first and last address. -/
def parseRange (spec : String) : Except String Expanded :=
  let first := trimSpace (spec.toList.takeWhile (· ≠ '-'))
  let last := trimSpace (spec.toList.dropWhile (· ≠ '-')).tail
  match Netip.parseAddr first, Netip.parseAddr last with
  | none, _ => .error "invalid range start: "
  | _, none => .error "invalid range end: "
  | some start, some stop =>
    if start.is4 ≠ stop.is4 then .error "range endpoints must be the same address family"
    else if Netip.after start stop then .error "start > end"
    else (addressesUpTo stop (2 ^ 20) start).map fun addresses => ⟨addresses, []⟩

/-- One text of a pool: a CIDR, a range or an address. -/
def parseOne (spec : String) (avoidBuggyIPs : Bool) : Except String Expanded :=
  if '/' ∈ spec.toList then parseCIDR spec avoidBuggyIPs
  else if '-' ∈ spec.toList then parseRange spec
  else
    match Netip.parseAddr spec with
    | none => .error "not a valid IP address, CIDR, or range"
    | some addr => .ok ⟨[addr.text], []⟩

/-- Add what is not there yet. -/
def addNew {α : Type} [DecidableEq α] (seen more : List α) : List α :=
  more.foldl (fun seen x => if x ∈ seen then seen else seen ++ [x]) seen

/-- One round of the loop over the texts. -/
def parseStep (avoidBuggyIPs : Bool) (out : Expanded) (spec : String) : Except String Expanded :=
  match parseOne spec avoidBuggyIPs with
  | .error e => .error ("address \"" ++ spec ++ "\": " ++ e)
  | .ok part => .ok ⟨addNew out.addresses part.addresses, addNew out.prefixes part.prefixes⟩

/-- The texts of a pool, up to the first that is wrong. -/
def parsePool (addrs : List String) (avoidBuggyIPs : Bool) : Except String Expanded :=
  addrs.foldlM (parseStep avoidBuggyIPs) ⟨[], []⟩

example : (parsePool ["10.0.0.1-10.0.0.3", "10.0.0.0/30"] true).toOption.map Expanded.addresses =
    some ["10.0.0.1", "10.0.0.2", "10.0.0.3"] := by decide +kernel

section Canonical

/-- A text is the one its address would be written as. -/
def Canonical (s : String) : Prop := ∀ a, Netip.parseAddr s = some a → a.text = s

instance (s : String) : Decidable (Canonical s) :=
  match h : Netip.parseAddr s with
  | none => .isTrue (by simp [Canonical, h])
  | some a => decidable_of_iff (a.text = s) (by simp [Canonical, h])

theorem canonical_text (a : Netip.Addr) : Canonical a.text := by
  intro b read
  rw [Netip.parseAddr_text, Option.some.injEq] at read
  rw [read]

theorem Canonical.unique {s t : String} {a : Netip.Addr} (canonical : Canonical s) (canonical' : Canonical t)
    (left : Netip.parseAddr s = some a) (right : Netip.parseAddr t = some a) : s = t :=
  (canonical a left).symm.trans (canonical' a right)

theorem canonical_addressesFrom (pfx : Netip.Prefix) (avoidBuggyIPs : Bool) (left : Nat) (addr : Netip.Addr) :
    ∀ s ∈ addressesFrom pfx avoidBuggyIPs left addr, Canonical s := by
  induction left generalizing addr with
  | zero => simp [addressesFrom]
  | succ left ih =>
    -- This round lists one canonical text or none, in front of what the rest of the loop lists.
    rw [addressesFrom]
    split
    · simp
    · cases Netip.nextAddr addr with
      | none =>
        dsimp only
        split
        · simp
        · simp [canonical_text]
      | some next =>
        dsimp only
        split
        · exact ih next
        · simpa [canonical_text] using ih next

theorem canonical_addressesUpTo {stop : Netip.Addr} {left : Nat} {cur : Netip.Addr} {listed : List String}
    (ok : addressesUpTo stop left cur = .ok listed) : ∀ s ∈ listed, Canonical s := by
  induction left generalizing cur listed with
  | zero =>
    rw [addressesUpTo] at ok
    split at ok
    · cases ok
      simp [canonical_text]
    · cases ok
  | succ left ih =>
    rw [addressesUpTo] at ok
    split at ok
    · cases ok
      simp [canonical_text]
    · split at ok
      · cases ok
      · rename_i next _
        cases rest : addressesUpTo stop left next with
        | error e => simp [rest, Except.map] at ok
        | ok more =>
          simp only [rest, Except.map, Except.ok.injEq] at ok
          subst ok
          simpa [canonical_text] using ih rest

theorem parseRange_ok {spec : String} {part : Expanded} (ok : parseRange spec = .ok part) :
    ∃ start stop listed, addressesUpTo stop (2 ^ 20) start = .ok listed ∧ part = ⟨listed, []⟩ := by
  unfold parseRange at ok
  dsimp only at ok
  split at ok
  · cases ok
  · cases ok
  · rename_i start stop _ _
    split at ok
    · cases ok
    · split at ok
      · cases ok
      · cases listed : addressesUpTo stop (2 ^ 20) start with
        | error e =>
          rw [listed] at ok
          cases ok
        | ok more =>
          rw [listed] at ok
          cases ok
          exact ⟨start, stop, more, listed, rfl⟩

theorem canonical_parseOne {spec : String} {avoidBuggyIPs : Bool} {part : Expanded}
    (ok : parseOne spec avoidBuggyIPs = .ok part) : ∀ s ∈ part.addresses, Canonical s := by
  unfold parseOne at ok
  split at ok
  · -- A CIDR: its block is listed, or kept as a prefix.
    unfold parseCIDR at ok
    split at ok
    · cases ok
    · dsimp only at ok
      split at ok
      · cases ok
        simp
      · cases ok
        exact canonical_addressesFrom _ _ _ _
  · split at ok
    · obtain ⟨_, _, _, listed, rfl⟩ := parseRange_ok ok
      exact canonical_addressesUpTo listed
    · split at ok
      · cases ok
      · cases ok
        simp [canonical_text]

theorem mem_addNew {α : Type} [DecidableEq α] {seen more : List α} {x : α} (member : x ∈ addNew seen more) :
    x ∈ seen ∨ x ∈ more := by
  induction more generalizing seen with
  | nil => exact Or.inl member
  | cons y rest ih =>
    rw [addNew, List.foldl_cons] at member
    cases ih member with
    | inl front =>
      split at front
      · exact Or.inl front
      · simp only [List.mem_append, List.mem_singleton] at front
        cases front with
        | inl old => exact Or.inl old
        | inr new => exact Or.inr (by simp [new])
    | inr later => exact Or.inr (List.mem_cons_of_mem _ later)

theorem foldlM_parseStep_source {addrs : List String} {avoidBuggyIPs : Bool} {start out : Expanded}
    (ok : addrs.foldlM (parseStep avoidBuggyIPs) start = .ok out) :
    (∀ s ∈ out.addresses, s ∈ start.addresses ∨
      ∃ spec ∈ addrs, ∃ part, parseOne spec avoidBuggyIPs = .ok part ∧ s ∈ part.addresses) ∧
      ∀ p ∈ out.prefixes, p ∈ start.prefixes ∨
        ∃ spec ∈ addrs, ∃ part, parseOne spec avoidBuggyIPs = .ok part ∧ p ∈ part.prefixes := by
  induction addrs generalizing start with
  | nil =>
    cases ok
    exact ⟨fun _ => .inl, fun _ => .inl⟩
  | cons spec rest ih =>
    rw [List.foldlM_cons, parseStep] at ok
    cases parsed : parseOne spec avoidBuggyIPs with
    | error e => simp [parsed, Bind.bind, Except.bind] at ok
    | ok part =>
      simp only [parsed, Bind.bind, Except.bind] at ok
      obtain ⟨addresses, prefixes⟩ := ih ok
      constructor
      · intro s member
        obtain added | ⟨text, later, source⟩ := addresses s member
        · exact (mem_addNew added).imp id fun new => ⟨spec, List.mem_cons_self, part, parsed, new⟩
        · exact .inr ⟨text, List.mem_cons_of_mem _ later, source⟩
      · intro p member
        obtain added | ⟨text, later, source⟩ := prefixes p member
        · exact (mem_addNew added).imp id fun new => ⟨spec, List.mem_cons_self, part, parsed, new⟩
        · exact .inr ⟨text, List.mem_cons_of_mem _ later, source⟩

theorem canonical_parsePool {addrs : List String} {avoidBuggyIPs : Bool} {out : Expanded}
    (ok : parsePool addrs avoidBuggyIPs = .ok out) : ∀ s ∈ out.addresses, Canonical s := by
  intro s member
  obtain none | ⟨spec, _, part, parsed, listed⟩ := (foldlM_parseStep_source ok).1 s member
  · cases none
  · exact canonical_parseOne parsed s listed

end Canonical

end Rivora.Ipam

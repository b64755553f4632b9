import Rivora.Ipam.Allocator

/-! What each call of the allocator can do to its two tables of assignments. -/

namespace Rivora.Ipam

/-- Where the text of an address that is assigned in a call comes from. -/
inductive Allocator.Offered (a : Allocator) (pinnedIP ip : String) : Prop where
  | pinned (same : ip = pinnedIP)
  | listed (name : String) (spec : PoolSpec) (known : a.pools.get? name = some spec)
      (member : ip ∈ spec.addresses)
  | drawn (addr : Netip.Addr) (written : ip = addr.text)

/-- The tables of assignments with one address assigned. -/
structure Allocator.Assigned (a : Allocator) (key ip : String) (a' : Allocator) : Prop where
  /-- Nobody else has the address. -/
  free : a.addrOwner.get? ip = none ∨ a.addrOwner.get? ip = some key
  addrOwner : a'.addrOwner = a.addrOwner.insert ip key
  ownerAddr : a'.ownerAddr = a.ownerAddr.insert key ip
  pools : a'.pools = a.pools

/-- How an allocation can end. -/
inductive Allocator.Allocates (a : Allocator) (key pinnedIP : String) : Except String String × Allocator → Prop
  where
  /-- The object has an address. -/
  | held (ip : String) (has : a.ownerAddr.get? key = some ip) : Allocates a key pinnedIP (.ok ip, a)
  | refused (e : String) (lacks : a.ownerAddr.get? key = none) : Allocates a key pinnedIP (.error e, a)
  | assigned (ip : String) (a' : Allocator) (lacks : a.ownerAddr.get? key = none)
      (assigned : a.Assigned key ip a') (offered : a.Offered pinnedIP ip) :
      Allocates a key pinnedIP (.ok ip, a')

namespace Allocator

variable {a : Allocator} {chance : Chance}

theorem taken_eq_false {ip : String} : a.taken ip = false ↔ a.addrOwner.get? ip = none := by
  simp [taken]

/-- An address that a block can give. -/
def Drawable (pfx : Netip.Prefix) (addr : Netip.Addr) : Prop :=
  addr = pfx.network ∨ ∃ random, randomInPrefix pfx random = some addr

/-- An address that is drawn is free and within the prefix. -/
theorem drawFrom_free {pfx : Netip.Prefix} {left reads : Nat} {ip : String}
    (drawn : (a.drawFrom chance pfx left reads).1 = some ip) :
    a.taken ip = false ∧ ∃ addr, Drawable pfx addr ∧ ip = addr.text := by
  -- An attempt that meets a taken address is followed by the next one.
  induction left generalizing reads with
  | zero => cases drawn
  | succ left ih =>
    rw [drawFrom] at drawn
    split at drawn
    · cases drawn
    · rename_i addr read
      split at drawn
      · exact ih drawn
      · rename_i passed
        cases drawn
        rw [not_or] at passed
        obtain ⟨random, _, made⟩ := Option.bind_eq_some_iff.mp read
        exact ⟨by simpa using passed.2, addr, .inr ⟨random, made⟩, rfl⟩

theorem allocFromPrefix_free {pfx : Netip.Prefix} {reads : Nat} {ip : String}
    (drawn : (a.allocFromPrefix chance pfx reads).1 = some ip) :
    a.taken ip = false ∧ ∃ addr, Drawable pfx addr ∧ ip = addr.text := by
  rw [allocFromPrefix] at drawn
  split at drawn
  · split at drawn
    · cases drawn
    · rename_i free
      cases drawn
      exact ⟨by simpa using free, pfx.network, .inl rfl, rfl⟩
  · exact drawFrom_free drawn

theorem allocFromPrefixes_free {prefixes : List Netip.Prefix} {reads : Nat} {ip : String}
    (drawn : (a.allocFromPrefixes chance prefixes reads).1 = some ip) :
    a.taken ip = false ∧ ∃ pfx ∈ prefixes, ∃ addr, Drawable pfx addr ∧ ip = addr.text := by
  induction prefixes generalizing reads with
  | nil => cases drawn
  | cons pfx rest ih =>
    rw [allocFromPrefixes] at drawn
    split at drawn
    · rename_i found
      have first : (a.allocFromPrefix chance pfx reads).1 = some ip := by
        rw [found]
        exact drawn
      exact ⟨(allocFromPrefix_free first).1, pfx, List.mem_cons_self, (allocFromPrefix_free first).2⟩
    · obtain ⟨free, block, member, written⟩ := ih drawn
      exact ⟨free, block, List.mem_cons_of_mem _ member, written⟩

/-- An address from the pools is free and belongs to one of them. -/
theorem allocFromPools_free {names : List String} {reads : Nat} {ip name : String}
    (found : a.allocFromPools chance names reads = some (ip, name)) :
    a.taken ip = false ∧ ∃ spec, a.pools.get? name = some spec ∧
      (ip ∈ spec.addresses ∨ ∃ pfx ∈ spec.prefixes, ∃ addr, Drawable pfx addr ∧ ip = addr.text) := by
  induction names generalizing reads with
  | nil => cases found
  | cons first rest ih =>
    rw [allocFromPools] at found
    split at found
    · rename_i got
      cases found
      -- An unknown pool would give none.
      cases known : a.pools.get? name with
      | none => simp [known, allocFromPool, allocFromPrefixes] at got
      | some spec =>
        simp only [known, Option.getD_some] at got
        rw [allocFromPool] at got
        split at got
        · rename_i listed
          cases got
          exact ⟨by simpa using List.find?_some listed, spec, rfl, .inl (List.mem_of_find?_eq_some listed)⟩
        · have drawn : (a.allocFromPrefixes chance spec.prefixes reads).1 = some ip := by rw [got]
          obtain ⟨free, block⟩ := allocFromPrefixes_free drawn
          exact ⟨free, spec, rfl, .inr block⟩
    · exact ih found

/-- A free address is entered into both tables. -/
theorem assigned_commit {key ip : String} (free : a.addrOwner.get? ip = none ∨ a.addrOwner.get? ip = some key) :
    a.Assigned key ip (a.commit key ip) :=
  ⟨free, rfl, rfl, rfl⟩

theorem Assigned.notePool {key ip pool : String} {a' : Allocator} (assigned : a.Assigned key ip a') :
    a.Assigned key ip (a'.notePool ip pool) :=
  ⟨assigned.free, assigned.addrOwner, assigned.ownerAddr, assigned.pools⟩

/-- Every way an allocation can end. -/
theorem allocates (a : Allocator) (chance : Chance) (key preferredPool pinnedIP : String) :
    a.Allocates key pinnedIP (a.allocate chance key preferredPool pinnedIP) := by
  rw [allocate]
  split
  · rename_i existing has
    exact .held existing has
  · rename_i lacks
    split
    · -- A pinned address that is free, or is left over from the object itself.
      have inPool : ∀ (free : a.addrOwner.get? pinnedIP = none ∨ a.addrOwner.get? pinnedIP = some key),
          a.Allocates key pinnedIP (allocatePinned.inPool a chance key pinnedIP) := by
        intro free
        rw [allocatePinned.inPool]
        split
        · exact .refused _ lacks
        · exact .assigned _ _ lacks (assigned_commit free) (.pinned rfl)
      rw [allocatePinned]
      split
      · rename_i owner has
        split
        · exact .refused _ lacks
        · rename_i same
          rw [not_not] at same
          exact inPool (Or.inr (same ▸ has))
      · rename_i free
        exact inPool (Or.inl free)
    · rw [allocateAny]
      split
      · split
        · exact .refused _ lacks
        · exact .refused _ lacks
      · split
        · rename_i ip name found
          obtain ⟨untaken, source⟩ := allocFromPools_free found
          have offered : a.Offered pinnedIP ip := by
            obtain ⟨spec, known, member | ⟨_, _, addr, _, written⟩⟩ := source
            · exact .listed name spec known member
            · exact .drawn addr written
          exact .assigned _ _ lacks (assigned_commit (Or.inl (taken_eq_false.mp untaken))).notePool offered
        · exact .refused _ lacks

/-- Every way a reservation can end. -/
theorem reserves (a : Allocator) (chance : Chance) (ip key : String) :
    (∃ e owner, a.addrOwner.get? ip = some owner ∧ owner ≠ key ∧ a.reserve chance ip key = (.error e, a)) ∨
      ∃ a', a.reserve chance ip key = (.ok (), a') ∧ a.Assigned key ip a' := by
  have recorded : ∀ (free : a.addrOwner.get? ip = none ∨ a.addrOwner.get? ip = some key),
      a.Assigned key ip (reserve.recorded a chance ip key) := by
    intro free
    rw [reserve.recorded]
    split
    · exact (assigned_commit free).notePool
    · exact assigned_commit free
  rw [reserve]
  split
  · rename_i owner has
    split
    · rename_i other
      exact Or.inl ⟨_, owner, has, other, rfl⟩
    · rename_i same
      rw [not_not] at same
      exact Or.inr ⟨_, rfl, recorded (Or.inr (same ▸ has))⟩
  · rename_i free
    exact Or.inr ⟨_, rfl, recorded (Or.inl free)⟩

/-- A property is kept by every call if it is kept by new pools, assignments and releases. -/
theorem step_keeps {P : Allocator → Prop} (holds : P a) (event : Call × Chance)
    (pooled : ∀ pools, event.1 = .setPools pools → P (a.setPools pools))
    (reserved : ∀ ip key a', event.1 = .reserve ip key → a.Assigned key ip a' → P a')
    (allocated : ∀ key pool pinnedIP ip a', event.1 = .allocate key pool pinnedIP →
      a.ownerAddr.get? key = none → a.Assigned key ip a' → a.Offered pinnedIP ip → P a')
    (released : ∀ key, P (a.release key)) : P (a.step event) := by
  obtain ⟨call, chance⟩ := event
  cases call with
  | setPools pools => exact pooled pools rfl
  | reserve ip key =>
    show P (a.reserve chance ip key).2
    rcases a.reserves chance ip key with ⟨e, owner, _, _, refused⟩ | ⟨a', ok, assigned⟩
    · rw [refused]
      exact holds
    · rw [ok]
      exact reserved ip key a' rfl assigned
  | allocate key preferredPool pinnedIP =>
    show P (a.allocate chance key preferredPool pinnedIP).2
    have outcome := a.allocates chance key preferredPool pinnedIP
    generalize a.allocate chance key preferredPool pinnedIP = result at outcome
    cases outcome with
    | held ip has => exact holds
    | refused e lacks => exact holds
    | assigned ip a' lacks assigned offered => exact allocated _ _ _ ip a' rfl lacks assigned offered
  | release key => exact released key

section Backed

/-- The address an object has is marked as its own. -/
def Backed (a : Allocator) : Prop :=
  ∀ key ip, a.ownerAddr.get? key = some ip → a.addrOwner.get? ip = some key

theorem backed_new : new.Backed := by
  intro key ip has
  cases has

variable {a' : Allocator} {key ip : String}

/-- An address belongs to one object. -/
theorem Backed.owner_unique (backed : a.Backed) {key' : String} (left : a.ownerAddr.get? key = some ip)
    (right : a.ownerAddr.get? key' = some ip) : key = key' :=
  Option.some.inj ((backed key ip left).symm.trans (backed key' ip right))

theorem Backed.assigned (backed : a.Backed) (assigned : a.Assigned key ip a') : a'.Backed := by
  intro key' ip' has
  rw [assigned.ownerAddr, FMap.get?_insert] at has
  rw [assigned.addrOwner, FMap.get?_insert]
  by_cases same : key' = key
  · subst same
    rw [if_pos rfl, Option.some.injEq] at has
    rw [if_pos has.symm]
  · -- Another object's address is not the new one, which was free.
    rw [if_neg same] at has
    have owner := backed key' ip' has
    have other : ip' ≠ ip := by
      intro is
      subst is
      cases assigned.free with
      | inl free => simp [free] at owner
      | inr own =>
        rw [own, Option.some.injEq] at owner
        exact same owner.symm
    rw [if_neg other]
    exact owner

theorem release_ownerAddr (a : Allocator) (key key' : String) :
    (a.release key).ownerAddr.get? key' = if key' = key then none else a.ownerAddr.get? key' := by
  rw [release]
  split
  · rename_i lacks
    by_cases same : key' = key
    · rw [if_pos same, same, lacks]
    · rw [if_neg same]
  · exact FMap.get?_erase _ _ _

theorem release_addrOwner (a : Allocator) (key ip : String) :
    (a.release key).addrOwner.get? ip = if a.ownerAddr.get? key = some ip then none else a.addrOwner.get? ip := by
  rw [release]
  split
  · rename_i lacks
    simp [lacks]
  · rename_i held has
    rw [has, FMap.get?_erase]
    simp only [Option.some.injEq, eq_comm]

theorem Backed.release (backed : a.Backed) (key : String) : (a.release key).Backed := by
  intro key' ip' has
  rw [release_ownerAddr] at has
  split at has
  · cases has
  · rename_i other
    -- The released address is not this one, or its object would be the released one.
    have apart : ¬ a.ownerAddr.get? key = some ip' := by
      intro held
      exact other (backed.owner_unique has held)
    rw [release_addrOwner, if_neg apart]
    exact backed key' ip' has

/-- Every owner stays entered under its address. -/
theorem Backed.step (backed : a.Backed) (event : Call × Chance) : (a.step event).Backed :=
  step_keeps backed event (fun _ _ => backed) (fun _ _ _ _ assigned => backed.assigned assigned)
    (fun _ _ _ _ _ _ _ assigned _ => backed.assigned assigned) backed.release

end Backed

section Spelled

/-- Pools built from the texts of AddressPools. -/
def ParsedPools (pools : FMap String PoolSpec) : Prop :=
  ∀ name spec, pools.get? name = some spec → ∃ addrs avoidBuggyIPs expanded,
    parsePool addrs avoidBuggyIPs = .ok expanded ∧ spec.addresses = expanded.addresses ∧
      spec.prefixes = expanded.prefixes

/-- The pools are parsed, and every assigned address is written canonically. -/
structure Spelled (a : Allocator) : Prop where
  pools : ParsedPools a.pools
  owned : ∀ ip key, a.addrOwner.get? ip = some key → Canonical ip

theorem spelled_new : new.Spelled := by
  constructor
  · intro name spec known
    cases known
  · intro ip key owned
    cases owned

variable {a' : Allocator} {key ip : String}

/-- An address that is offered is written canonically. -/
theorem Spelled.offered (spelled : a.Spelled) {pinnedIP : String} (canonical : Canonical pinnedIP)
    (offered : a.Offered pinnedIP ip) : Canonical ip := by
  cases offered with
  | pinned same => exact same ▸ canonical
  | listed name spec known member =>
    obtain ⟨addrs, avoidBuggyIPs, expanded, parsed, addresses, _⟩ := spelled.pools name spec known
    exact canonical_parsePool parsed ip (addresses ▸ member)
  | drawn addr written => exact written ▸ canonical_text addr

theorem Spelled.assigned (spelled : a.Spelled) (assigned : a.Assigned key ip a')
    (canonical : Canonical ip) : a'.Spelled := by
  refine ⟨assigned.pools ▸ spelled.pools, fun ip' key' owned => ?_⟩
  rw [assigned.addrOwner, FMap.get?_insert] at owned
  split at owned
  · rename_i same
    exact same ▸ canonical
  · exact spelled.owned ip' key' owned

theorem Spelled.release (spelled : a.Spelled) (key : String) : (a.release key).Spelled := by
  refine ⟨?_, fun ip' key' owned => ?_⟩
  · rw [Allocator.release]
    split <;> exact spelled.pools
  · rw [release_addrOwner] at owned
    split at owned
    · cases owned
    · exact spelled.owned ip' key' owned

end Spelled

end Allocator

end Rivora.Ipam

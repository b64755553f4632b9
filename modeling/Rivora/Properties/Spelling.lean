import Rivora.Properties.Ownership

/-! Addresses and their spellings. -/

namespace Rivora.Ipam

open Run

/-- An object holds an address in one of the tables. -/
def Allocator.Holds (a : Allocator) (key ip : String) : Prop :=
  a.addrOwner.get? ip = some key ∨ a.ownerAddr.get? key = some ip

/-- Pools come from AddressPools, and the addresses of a call are written canonically. -/
def Allocator.WrittenCanonically (_ : Allocator) (event : Call × Chance) : Prop :=
  match event.1 with
  | .setPools pools => ParsedPools pools
  | .reserve ip _ => Canonical ip
  | .allocate _ _ pinnedIP => Canonical pinnedIP
  | .release _ => True

theorem Allocator.Spelled.step {a : Allocator} (spelled : a.Spelled) {event : Call × Chance}
    (written : a.WrittenCanonically event) : (a.step event).Spelled := by
  unfold WrittenCanonically at written
  refine step_keeps spelled event (fun pools call => ?_) (fun ip key a' call assigned => ?_)
    (fun key pool pinnedIP ip a' call lacks assigned offered => ?_) spelled.release
  · rw [call] at written
    exact ⟨written, spelled.owned⟩
  · rw [call] at written
    exact spelled.assigned assigned written
  · rw [call] at written
    exact spelled.assigned assigned (spelled.offered written offered)

theorem Allocator.Backed.owner {a : Allocator} (backed : a.Backed) {key ip : String}
    (holds : a.Holds key ip) : a.addrOwner.get? ip = some key := by
  cases holds with
  | inl owned => exact owned
  | inr has => exact backed key ip has

/-- In every run with canonical texts, no two objects hold texts of one address. -/
theorem holders_have_different_addresses (calls : List (Call × Chance))
    (written : Along Allocator.step Allocator.WrittenCanonically .new calls)
    (key key' ip ip' : String) (addr : Netip.Addr)
    (holds : (run Allocator.step .new calls).Holds key ip)
    (holds' : (run Allocator.step .new calls).Holds key' ip')
    (denotes : Netip.parseAddr ip = some addr) (denotes' : Netip.parseAddr ip' = some addr) :
    key = key' := by
  -- Both tables are kept in step by every call, canonical or not.
  have backed : (run Allocator.step .new calls).Backed :=
    Run.invariant (P := Allocator.Backed) (fun {_ event} backed _ => backed.step event)
      Allocator.backed_new written
  have spelled : (run Allocator.step .new calls).Spelled :=
    Run.invariant (P := Allocator.Spelled) (fun spelled written => spelled.step written)
      Allocator.spelled_new written
  have owned := backed.owner holds
  have owned' := backed.owner holds'
  -- The texts are canonical and denote one address, so they are the same text.
  have same : ip = ip' :=
    (spelled.owned ip key owned).unique (spelled.owned ip' key' owned') denotes denotes'
  subst same
  exact Option.some.inj (owned.symm.trans owned')

/-- A pool of one large IPv6 block, as it is parsed. -/
def largeBlock : FMap String PoolSpec :=
  match parsePool ["2001:db8::/64"] false with
  | .ok expanded => FMap.ofList [("v6", ⟨expanded.addresses, expanded.prefixes, true⟩)]
  | .error _ => .empty

theorem parsedPools_largeBlock : Allocator.ParsedPools largeBlock := by
  intro name spec known
  have member := FMap.get?_eq_some.mp known
  unfold largeBlock at member
  split at member
  · rename_i expanded parsed
    simp only [FMap.ofList, List.foldl_cons, List.foldl_nil, FMap.entries_insert] at member
    simp only [FMap.erase, FMap.entries_empty, List.filter_nil, List.mem_singleton, Prod.mk.injEq] at member
    obtain ⟨_, rfl⟩ := member
    exact ⟨_, _, expanded, parsed, rfl, rfl⟩
  · cases member

/-- Two canonical pins in a large block are different addresses. -/
theorem holders_have_different_addresses_in_block :
    let calls : List (Call × Chance) := [(.setPools largeBlock, .plain),
      (.allocate "default/web" "" "2001:db8::a", .plain), (.allocate "default/dns" "" "2001:db8::b", .plain)]
    (run Allocator.step .new calls).Holds "default/web" "2001:db8::a" ∧
      (run Allocator.step .new calls).Holds "default/dns" "2001:db8::b" ∧
      ∀ addr, Netip.parseAddr "2001:db8::a" = some addr → Netip.parseAddr "2001:db8::b" ≠ some addr := by
  intro calls
  have web : (run Allocator.step .new calls).Holds "default/web" "2001:db8::a" := by
    refine Or.inl ?_
    decide +kernel
  have dns : (run Allocator.step .new calls).Holds "default/dns" "2001:db8::b" := by
    refine Or.inl ?_
    decide +kernel
  have written : Along Allocator.step Allocator.WrittenCanonically .new calls := by
    refine ⟨parsedPools_largeBlock, ?_, ?_, trivial⟩
    · show Canonical "2001:db8::a"
      decide +kernel
    · show Canonical "2001:db8::b"
      decide +kernel
  refine ⟨web, dns, fun addr denotes denotes' => ?_⟩
  have same := holders_have_different_addresses calls written _ _ _ _ addr web dns denotes denotes'
  exact absurd same (by decide)

/-- Two spellings of one address are assigned to two objects. -/
theorem spellings_share_address :
    let a := run Allocator.step .new [(.setPools largeBlock, .plain),
      (.allocate "default/web" "" "2001:db8::a", .plain), (.allocate "default/dns" "" "2001:DB8::A", .plain)]
    a.ownerAddr.get? "default/web" = some "2001:db8::a" ∧
      a.ownerAddr.get? "default/dns" = some "2001:DB8::A" ∧
      (Netip.parseAddr "2001:db8::a").isSome ∧
      Netip.parseAddr "2001:db8::a" = Netip.parseAddr "2001:DB8::A" := by
  decide +kernel

end Rivora.Ipam

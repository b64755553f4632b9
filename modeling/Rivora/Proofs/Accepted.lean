import Rivora.Config.Validate
import Rivora.Proofs.Endpoints

/-! What an accepted configuration guarantees about its VIPs, one by one and side by side. -/

namespace Rivora

open Guard

/-- What the check of one VIP establishes. -/
structure VIP.Checked (v : VIP) : Prop where
  address : (parseIP v.address).isSome = true
  protocol : v.protocol = .tcp ∨ v.protocol = .udp
  mode : v.mode.valid = true
  backends : v.backends ≠ []
  reachable : ∀ b ∈ v.backends, (parseIP b.address).isSome = true
  /-- A tunnel names no hardware address. -/
  tunnel : v.mode.isTunnel = true → ∀ b ∈ v.backends, b.mac = ""
  /-- DSR names one that parses. -/
  dsr : v.mode = .dsr → ∀ b ∈ v.backends, (parseMAC b.mac).isSome = true

/-- Two ranges of one address and protocol share no port. -/
def VIP.RangesApart (v w : VIP) : Prop :=
  v.isRange = true → w.isRange = true → ∀ ip ip', parseIP v.address = some ip →
    parseIP w.address = some ip' → rangeGroup ip v = rangeGroup ip' w →
    v.portEnd < w.port ∨ w.portEnd < v.port

/-- What the check of a configuration establishes. -/
structure Config.Accepted (c : Config) : Prop where
  keys : c.specs.Pairwise fun v w => vipKeyString v ≠ vipKeyString w
  ranges : c.specs.Pairwise VIP.RangesApart
  each : ∀ v ∈ c.specs, v.Checked

section One

theorem checkBackend_eq_ok {v : VIP} {vipIsV4 : Bool} {b : Backend}
    (passes : v.checkBackend vipIsV4 b = .ok ()) :
    (parseIP b.address).isSome = true ∧ (v.mode.isTunnel = true → b.mac = "") ∧
      (v.mode = .dsr → (parseMAC b.mac).isSome = true) := by
  unfold VIP.checkBackend at passes
  cases parsed : parseIP b.address with
  | none =>
    rw [parsed] at passes
    cases passes
  | some ip =>
    rw [parsed] at passes
    simp only [bind_eq_ok, refuseIf_eq_ok, VIP.checkMAC] at passes
    obtain ⟨_, tunnel, _, dsr⟩ := passes
    refine ⟨rfl, fun tunnels => ?_, fun direct => ?_⟩
    · exact not_not.mp fun named => tunnel ⟨tunnels, named⟩
    · exact Option.isSome_iff_ne_none.mpr fun unparsed => dsr ⟨direct, unparsed⟩

theorem checkVIP_eq_ok {bgp : BGP} {v : VIP} (passes : bgp.checkVIP v = .ok ()) : v.Checked := by
  unfold BGP.checkVIP at passes
  cases parsed : parseIP v.address with
  | none =>
    rw [parsed] at passes
    cases passes
  | some ip =>
    rw [parsed] at passes
    simp only [bind_eq_ok, refuseIf_eq_ok, forEach_eq_ok] at passes
    obtain ⟨protocol, mode, backends, _, _, _, _, _, each⟩ := passes
    exact {
      address := by rw [parsed]; rfl
      protocol := by
        by_contra neither
        exact protocol ⟨fun tcp => neither (Or.inl tcp), fun udp => neither (Or.inr udp)⟩
      mode := by rwa [Bool.not_eq_false] at mode
      backends := backends
      reachable := fun b member => (checkBackend_eq_ok (each b member)).1
      tunnel := fun tunnels b member => (checkBackend_eq_ok (each b member)).2.1 tunnels
      dsr := fun direct b member => (checkBackend_eq_ok (each b member)).2.2 direct }

end One

section SideBySide

/-- An entry's key has been seen. -/
def SeesKey (seen : List String) (entry : VIPEntry) : Prop := vipKeyString entry.vip ∈ seen

theorem checkEntry_eq_ok {seen seen' : List String} {entry : VIPEntry}
    (passes : checkEntry seen entry = .ok seen') :
    SeesKey seen' entry ∧ ∀ other, SeesKey seen other →
      SeesKey seen' other ∧ vipKeyString other.vip ≠ vipKeyString entry.vip := by
  unfold checkEntry at passes
  split at passes
  · cases passes
  · split at passes
    · cases passes
    · rename_i unseen
      cases passes
      refine ⟨List.mem_cons_self, fun other seen => ⟨List.mem_cons_of_mem _ seen, fun same => ?_⟩⟩
      exact unseen (same ▸ seen)

theorem keys_of_walk {entries : List VIPEntry} (passes : walk checkEntry [] entries = .ok ()) :
    (entries.map VIPEntry.vip).Pairwise fun v w => vipKeyString v ≠ vipKeyString w := by
  rw [List.pairwise_map]
  exact (@walk_pairwise _ _ _ checkEntry SeesKey _ checkEntry_eq_ok _ _ passes).1

/-- The spans kept for an address include a VIP's, if it is a range. -/
def KeepsSpan (byAddr : FMap String (List Span)) (v : VIP) : Prop :=
  v.isRange = true → ∀ ip, parseIP v.address = some ip →
    v.span ∈ (byAddr.get? (rangeGroup ip v)).getD []

theorem checkOverlap_eq_ok {byAddr byAddr' : FMap String (List Span)} {v : VIP}
    (passes : checkOverlap byAddr v = .ok byAddr') :
    KeepsSpan byAddr' v ∧
      ∀ w, KeepsSpan byAddr w → KeepsSpan byAddr' w ∧ w.RangesApart v := by
  unfold checkOverlap at passes
  cases range : v.isRange with
  | false =>
    rw [range] at passes
    cases passes
    -- A VIP that is no range is neither compared nor kept.
    refine ⟨fun is => ?_, fun w kept => ⟨kept, fun _ is => ?_⟩⟩
    · cases range.symm.trans is
    · cases range.symm.trans is
  | true =>
    rw [range] at passes
    cases parsed : parseIP v.address with
    | none =>
      rw [parsed] at passes
      cases passes
      refine ⟨fun _ ip is => ?_, fun w kept => ⟨kept, fun _ _ _ ip' _ is => ?_⟩⟩
      · cases parsed.symm.trans is
      · cases parsed.symm.trans is
    | some ip =>
      rw [parsed] at passes
      simp only [Bool.not_true, Bool.false_eq_true, if_false] at passes
      split at passes
      · cases passes
      · rename_i clear
        rw [List.find?_eq_none] at clear
        cases passes
        refine ⟨fun _ ip' is => ?_, fun w kept => ⟨fun range' ip' is => ?_, ?_⟩⟩
        · cases parsed.symm.trans is
          rw [FMap.get?_insert_self]
          exact List.mem_append_right _ List.mem_cons_self
        · have mine := kept range' ip' is
          -- The spans of the other addresses stay; those of this one only grow.
          by_cases same : rangeGroup ip' w = rangeGroup ip v
          · rw [same] at mine ⊢
            rw [FMap.get?_insert_self]
            exact List.mem_append_left _ mine
          · rw [FMap.get?_insert_of_ne _ _ same]
            exact mine
        · intro range' _ ip' ip'' is is' same
          cases parsed.symm.trans is'
          have mine := kept range' ip' is
          rw [same] at mine
          have apart : ¬ (v.port ≤ w.portEnd ∧ w.port ≤ v.portEnd) :=
            fun shared => clear _ mine (decide_eq_true shared)
          rcases not_and_or.mp apart with above | below
          · exact Or.inl (UInt16.not_le.mp above)
          · exact Or.inr (UInt16.not_le.mp below)

theorem ranges_of_walk {specs : List VIP} (passes : walk checkOverlap FMap.empty specs = .ok ()) :
    specs.Pairwise VIP.RangesApart :=
  (walk_pairwise checkOverlap_eq_ok passes).1

end SideBySide

theorem Config.accepted {c : Config} (passes : c.validate = .ok ()) : c.Accepted := by
  unfold Config.validate at passes
  simp only [bind_eq_ok, forEach_eq_ok] at passes
  obtain ⟨_, _, _, _, _, _, entries, ranges, each, _⟩ := passes
  exact ⟨keys_of_walk entries, ranges_of_walk ranges, fun v member => checkVIP_eq_ok (each v member)⟩

end Rivora

import Mathlib.Algebra.BigOperators.Group.List.Basic
import Mathlib.Data.Nat.Cast.Order.Ring
import Rivora.Maglev.Table
import Rivora.GatewayApi.Offers

/-! How the weight of a backend reference is spread over the backends it leads to. -/

namespace Rivora.GatewayApi

open FirstSeen
open Reconciler (DesiredVIP endpointsForPort sameFamily candidates candidateName)

/-- The weight of a reference, one by default. -/
def refWeight (br : BackendRef) : Int := (br.weight.getD 1).toInt

/-- The serving backends that a reference leads to, of the address family of a VIP. -/
def servingFor (c : Cluster) (env : Env) (source : RouteRef × BackendRef) (addr : String) : List Backend :=
  sameFamily (contribution c env source).1 addr

/-- The weight in a VIP's table of the backends with some names. -/
def tableWeight (d : DesiredVIP) (names : List String) : Nat :=
  ((d.vip.backends.filter fun b => backendName b ∈ names).map fun b => Maglev.normalizeWeight b.weight).sum

theorem perBackend_eq {weight : Option Int32} {ready : Nat} (positive : 0 ≤ (weight.getD 1).toInt)
    (few : ready < 2 ^ 31) :
    perBackend weight ready = max 1 ((weight.getD 1).toInt.toNat / ready) := by
  unfold perBackend
  generalize weight.getD 1 = w at positive ⊢
  -- Neither the number of backends nor the quotient leaves the range of 32 bits.
  have count : (Int32.ofNat ready).toInt = ready := Int32.toInt_ofNat_of_lt few
  have small : w.toInt < 2 ^ 31 := Int32.toInt_lt w
  have quotient : (w / Int32.ofNat ready).toInt = (w.toInt.toNat / ready : Nat) := by
    obtain ⟨n, natural⟩ := Int.eq_ofNat_of_zero_le positive
    have bound : n / ready ≤ n := Nat.div_le_self ..
    rw [Int32.toInt_div, count, natural, Int.toNat_natCast, ← Int.ofNat_tdiv]
    generalize n / ready = q at bound ⊢
    exact Int.bmod_eq_of_le (by omega) (by omega)
  have one : (1 : Int32).toInt = 1 := rfl
  simp only [Int32.lt_iff_toInt_lt, quotient, one]
  generalize w.toInt.toNat / ready = q
  split <;> omega

theorem normalizeWeight_perBackend (weight : Option Int32) (ready : Nat) :
    Maglev.normalizeWeight (perBackend weight ready) = perBackend weight ready := by
  unfold Maglev.normalizeWeight
  have positive : perBackend weight ready ≠ 0 := by
    unfold perBackend
    dsimp only
    generalize weight.getD 1 / Int32.ofNat ready = share
    split
    · omega
    · rename_i least
      have one : (1 : Int32).toInt = 1 := rfl
      rw [Int32.lt_iff_toInt_lt, one] at least
      omega
  rw [if_neg positive]

theorem mem_sameFamily_iff {backends : List Backend} {b : Backend} (listed : b ∈ backends) (others : List Backend)
    (addr : String) : b ∈ sameFamily backends addr ↔ b ∈ sameFamily (b :: others) addr := by
  unfold sameFamily
  cases parseIP addr with
  | none => simp
  | some ip => simp [listed]

theorem sameFamily_sublist (backends : List Backend) (addr : String) :
    (sameFamily backends addr).Sublist backends := by
  unfold sameFamily
  cases parseIP addr with
  | none => exact List.nil_sublist _
  | some ip => exact List.filter_sublist

section Listener

variable {c : Cluster} {env : Env} {gw : GatewayRef} {l : GatewayListener} {routes : List RouteRef}
  {addr : String} {d : DesiredVIP}

theorem listenerVIP_backends (wanted : listenerVIP c env gw routes addr l = some d) :
    d.vip.backends = sameFamily
      (firsts backendName ((listenerRefs env gw l routes).flatMap fun source => (contribution c env source).1))
      addr := by
  rw [← (listenerBackends_eq c env gw l routes).1]
  unfold listenerVIP at wanted
  cases spoken : listenerProtocol l.protocol with
  | none => simp [spoken] at wanted
  | some protocol =>
    simp only [spoken] at wanted
    split at wanted
    · cases wanted
    · obtain rfl := Option.some.inj wanted
      rfl

variable {before after : List (RouteRef × BackendRef)} {source : RouteRef × BackendRef}

/-- No other reference of the listener leads to a backend that this one leads to. -/
def LeadsAlone (c : Cluster) (env : Env) (source : RouteRef × BackendRef) (addr : String)
    (others : List (RouteRef × BackendRef)) : Prop :=
  ∀ other ∈ others, ∀ b ∈ servingFor c env source addr,
    backendName b ∉ (contribution c env other).1.map backendName

theorem eq_of_leadsAlone (alone : LeadsAlone c env source addr (before ++ after)) {b b' : Backend}
    (serving : b ∈ servingFor c env source addr)
    (gathered : b' ∈ (before ++ source :: after).flatMap fun source => (contribution c env source).1)
    (named : backendName b' = backendName b) : b' = b := by
  obtain ⟨other, listed, given⟩ := List.mem_flatMap.mp gathered
  have ours : b' ∈ (contribution c env source).1 := by
    -- Another reference would lead to a backend of the name.
    by_cases here : other = source
    · exact here ▸ given
    · have elsewhere : other ∈ before ++ after := by
        simp only [List.mem_append, List.mem_cons, here, false_or] at listed ⊢
        exact listed
      exact absurd (List.mem_map.mpr ⟨b', given, named⟩) (alone other elsewhere b serving)
  exact List.inj_on_of_nodup_map (contribution_spec c env source).1 ours
    ((sameFamily_sublist _ addr).subset serving) named

theorem backends_of_leadsAlone (wanted : listenerVIP c env gw routes addr l = some d)
    (split : listenerRefs env gw l routes = before ++ source :: after)
    (alone : LeadsAlone c env source addr (before ++ after)) :
    (d.vip.backends.filter fun b => backendName b ∈ (servingFor c env source addr).map backendName).Perm
      (servingFor c env source addr) := by
  rw [listenerVIP_backends wanted, split]
  have distinct := (contribution_spec c env source).1.of_map
  refine (List.perm_ext_iff_of_nodup ?_ (distinct.sublist (sameFamily_sublist _ addr))).mpr fun b => ?_
  · exact ((firsts_nodup _).sublist (sameFamily_sublist _ addr)).filter _
  · rw [List.mem_filter, decide_eq_true_eq]
    constructor
    · rintro ⟨shown, named⟩
      obtain ⟨own, serving, named⟩ := List.mem_map.mp named
      have gathered := mem_of_mem_firsts ((sameFamily_sublist _ addr).subset shown)
      exact eq_of_leadsAlone alone serving gathered named.symm ▸ serving
    · intro serving
      -- The name is among those gathered, so a backend with it was kept.
      have given : b ∈ (before ++ source :: after).flatMap fun source => (contribution c env source).1 :=
        List.mem_flatMap.mpr ⟨source, by simp, (sameFamily_sublist _ addr).subset serving⟩
      have name : backendName b ∈ (firsts backendName _).map backendName :=
        mem_keys_firsts.mpr (List.mem_map_of_mem given)
      obtain ⟨kept, shown, named⟩ := List.mem_map.mp name
      obtain rfl := eq_of_leadsAlone alone serving (mem_of_mem_firsts shown) named
      refine ⟨?_, List.mem_map_of_mem serving⟩
      rw [mem_sameFamily_iff shown []]
      exact (mem_sameFamily_iff ((sameFamily_sublist _ addr).subset serving) [] addr).mp serving

theorem tableWeight_eq (wanted : listenerVIP c env gw routes addr l = some d)
    (split : listenerRefs env gw l routes = before ++ source :: after)
    (alone : LeadsAlone c env source addr (before ++ after)) :
    tableWeight d ((servingFor c env source addr).map backendName) =
      (servingFor c env source addr).length *
        perBackend source.2.weight (contribution c env source).1.length := by
  unfold tableWeight
  rw [((backends_of_leadsAlone wanted split alone).map _).sum_eq]
  have shares : ∀ b ∈ servingFor c env source addr, Maglev.normalizeWeight b.weight =
      perBackend source.2.weight (contribution c env source).1.length := by
    intro b serving
    rw [(contribution_spec c env source).2 b ((sameFamily_sublist _ addr).subset serving)]
    exact normalizeWeight_perBackend ..
  rw [List.map_congr_left shares, List.map_const', List.sum_replicate_nat]

end Listener

/--
The backends of a reference get its weight together, up to the rounding of their shares: nothing for no
weight, else more than the weight less their number, and no more than the weight or one each.

This is so exactly when the weight is not zero and endpoints of the other address family do not lower a
backend's share below what the backends of the VIP alone would get.
-/
theorem ref_weight_is_spread {c : Cluster} {env : Env} {gw : GatewayRef} {l : GatewayListener}
    {routes : List RouteRef} {addr : String} {d : DesiredVIP} {before after : List (RouteRef × BackendRef)}
    {source : RouteRef × BackendRef} (wanted : listenerVIP c env gw routes addr l = some d)
    (split : listenerRefs env gw l routes = before ++ source :: after)
    (alone : LeadsAlone c env source addr (before ++ after))
    (serving : servingFor c env source addr ≠ [])
    (allowed : 0 ≤ refWeight source.2)
    (few : (contribution c env source).1.length < 2 ^ 31) :
    let n := (servingFor c env source addr).length
    let total := tableWeight d ((servingFor c env source addr).map backendName)
    ((refWeight source.2 = 0 → total = 0) ∧
      (refWeight source.2 ≠ 0 → refWeight source.2 - n < total ∧ total ≤ max (refWeight source.2) n)) ↔
    refWeight source.2 ≠ 0 ∧
      refWeight source.2 / n ≤ max 1 (refWeight source.2 / (contribution c env source).1.length) := by
  dsimp only
  rw [tableWeight_eq wanted split alone, perBackend_eq allowed few]
  have some : 0 < (servingFor c env source addr).length := List.length_pos_of_ne_nil serving
  have within : (servingFor c env source addr).length ≤ (contribution c env source).1.length :=
    (sameFamily_sublist _ addr).length_le
  change 0 ≤ (source.2.weight.getD 1).toInt at allowed
  unfold refWeight
  obtain ⟨w, weight⟩ := Int.eq_ofNat_of_zero_le allowed
  rw [weight]
  generalize (servingFor c env source addr).length = n at some within ⊢
  generalize (contribution c env source).1.length = r at within ⊢
  rw [Int.toNat_natCast]
  -- Without the other family, the shares add up to the weight less a remainder below the number of backends.
  have whole : n * (w / n) + w % n = w := Nat.div_add_mod w n
  have remainder : w % n < n := Nat.mod_lt w some
  have fewer : n * (w / r) ≤ w := (Nat.mul_le_mul_right _ within).trans (Nat.mul_div_le w r)
  have unit : n ≤ n * max 1 (w / r) := Nat.le_mul_of_pos_right n (by omega)
  rw [sub_lt_iff_lt_add]
  norm_cast
  constructor
  · rintro ⟨nothing, spread⟩
    -- A backend's share is never zero.
    have weighed : w ≠ 0 := fun zero => by
      have := nothing zero
      omega
    refine ⟨weighed, ?_⟩
    -- The share of the backends alone, times their number, is no more than the weight.
    have shares : n * (w / n) < n * (max 1 (w / r) + 1) := by
      rw [Nat.mul_add_one]
      have := (spread weighed).1
      omega
    exact Nat.lt_succ_iff.mp (Nat.lt_of_mul_lt_mul_left shares)
  · rintro ⟨weighed, undivided⟩
    refine ⟨fun zero => absurd zero weighed, fun _ => ?_⟩
    have more : n * (w / n) ≤ n * max 1 (w / r) := Nat.mul_le_mul_left n undivided
    rw [← Nat.mul_max_mul_left] at more ⊢
    constructor <;> omega

section Sample

/-- The Gateway of the route. -/
def weighedGateway : GatewayRef := ⟨"shop", "edge", [⟨"web", .tcp, 80, none⟩]⟩

/-- A reference with this weight to a Service of the route's namespace. -/
def weighedRef (weight : Option Int32) : BackendRef := ⟨none, none, "cart", none, some 80, weight⟩

/-- A route of the Gateway with this reference. -/
def weighedRoute (weight : Option Int32) : RouteRef :=
  ⟨.tcpRoute, "shop", "cart", ⟨[⟨none, none, none, "edge", none⟩], [⟨[weighedRef weight]⟩]⟩⟩

/-- A cluster in which the Service has ready endpoints at some addresses. -/
def weighedCluster (addresses : List String) : Cluster :=
  { Cluster.empty with
    services := FMap.ofList [(⟨"shop", "cart"⟩, ⟨⟨true, [], [⟨"web", .tcp, 80⟩], false, false⟩, none⟩)]
    slices := FMap.ofList
      [(⟨"shop", "cart-1"⟩, ⟨FMap.ofList [(serviceNameLabel, "cart")],
        ⟨[⟨some "web", some 8080⟩], addresses.map fun addr => ⟨[addr], ⟨some true, some true⟩, none⟩⟩⟩)] }

/-- The VIP of the Gateway's listener at an address. -/
def weighedVIP (weight : Option Int32) (addresses : List String) : Option DesiredVIP :=
  listenerVIP (weighedCluster addresses) ((weighedCluster addresses).env fun _ => .error "unsupported")
    weighedGateway [weighedRoute weight] "192.0.2.1" ⟨"web", .tcp, 80, none⟩

/-- Two backends share a weight of five: each gets two. -/
theorem two_backends_share_five : ∃ d, weighedVIP (some 5) ["10.1.0.2", "10.1.0.3"] = some d ∧
    tableWeight d ["10.1.0.2:8080", "10.1.0.3:8080"] = 4 ∧
    (5 : Int) - 2 < tableWeight d ["10.1.0.2:8080", "10.1.0.3:8080"] := by
  have wanted : (weighedVIP (some 5) ["10.1.0.2", "10.1.0.3"]).isSome := by decide +kernel
  obtain ⟨d, wanted⟩ := Option.isSome_iff_exists.mp wanted
  have serving : servingFor (weighedCluster ["10.1.0.2", "10.1.0.3"])
      ((weighedCluster ["10.1.0.2", "10.1.0.3"]).env fun _ => .error "unsupported")
      (weighedRoute (some 5), weighedRef (some 5)) "192.0.2.1" =
        [⟨"10.1.0.2", 8080, "", 2⟩, ⟨"10.1.0.3", 8080, "", 2⟩] := by
    decide +kernel
  have spread := @ref_weight_is_spread _ _ _ _ _ _ _ [] [] (weighedRoute (some 5), weighedRef (some 5)) wanted
    rfl (by simp [LeadsAlone]) (by simp [serving]) (by decide) (by decide +kernel)
  rw [serving] at spread
  refine ⟨d, wanted, ?_, ((spread.mpr ⟨by decide, by decide +kernel⟩).2 (by decide)).1⟩
  obtain rfl : d = (weighedVIP (some 5) ["10.1.0.2", "10.1.0.3"]).get (by decide +kernel) := by simp [wanted]
  decide +kernel

/--
The only backend of a reference with weight zero has weight one.

The only IPv4 backend of a reference with weight ten gets one of it, if there are nine IPv6 endpoints as well.
-/
theorem zero_weight_and_other_family_share :
    ((weighedVIP (some 0) ["10.1.0.2"]).map fun d => tableWeight d ["10.1.0.2:8080"]) = some 1 ∧
      ((weighedVIP (some 10) ["10.1.0.2", "fd00::1", "fd00::2", "fd00::3", "fd00::4", "fd00::5", "fd00::6",
        "fd00::7", "fd00::8", "fd00::9"]).map fun d => tableWeight d ["10.1.0.2:8080"]) = some 1 := by
  decide +kernel

end Sample

end Rivora.GatewayApi

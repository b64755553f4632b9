import Rivora.Lib.Run
import Rivora.Properties.SynBudget

/-! How few SYNs of one source the limiter lets through. -/

namespace Rivora

open TokenBucket

/-- What becomes due from arrival to arrival. -/
def dues (rate : Nat) : UInt64 → List UInt64 → List Nat
  | _, [] => []
  | last, now :: rest => rate * (now.toNat - last.toNat) :: dues rate now rest

/-- How many arrivals an exact bucket lets through that starts full. -/
def exactAdmits (rate burst : Nat) (times : List UInt64) : Nat :=
  (TokenBucket.serve tokenUnit (burst * tokenUnit) (burst * tokenUnit) (dues rate (times.headD 0) times)).1

/-- What the time since the last arrival gains, up to the time beyond which a bucket counts as refilled. -/
def gained (cfg : RLConfig) (cur : Option RLBucket) (now : UInt64) : Nat :=
  min (now.toNat - (lastArrival cur now).toNat) 10000000000 * cfg.ratePerSec.toNat

/--
An arrival at which no time is lost: it gains whole tokens, or fills the bucket.

Nothing wraps around, and time beyond ten seconds has passed only if the bucket is full without it.
-/
structure Lossless (cfg : RLConfig) (cur : Option RLBucket) (now : UInt64) : Prop where
  product : gained cfg cur now < 2 ^ 64
  sum : (heldTokens cfg cur).toNat + gained cfg cur now / 1000000000 < 2 ^ 64
  whole : cfg.burst.toNat ≤ (heldTokens cfg cur).toNat + gained cfg cur now / 1000000000 ∨
    now.toNat - (lastArrival cur now).toNat ≤ 10000000000 ∧ gained cfg cur now % 1000000000 = 0

instance (cfg : RLConfig) (cur : Option RLBucket) (now : UInt64) : Decidable (Lossless cfg cur now) :=
  decidable_of_iff
    (gained cfg cur now < 2 ^ 64 ∧ (heldTokens cfg cur).toNat + gained cfg cur now / 1000000000 < 2 ^ 64 ∧
      (cfg.burst.toNat ≤ (heldTokens cfg cur).toNat + gained cfg cur now / 1000000000 ∨
        now.toNat - (lastArrival cur now).toNat ≤ 10000000000 ∧ gained cfg cur now % 1000000000 = 0))
    ⟨fun ⟨product, sum, whole⟩ => ⟨product, sum, whole⟩, fun ⟨product, sum, whole⟩ => ⟨product, sum, whole⟩⟩

/-- The bucket of a source after an arrival. -/
def arrive (cfg : RLConfig) (cur : Option RLBucket) (now : UInt64) : Option RLBucket :=
  some (rlTake cfg cur now).2

section Compare

theorem length_admittedAt_cons (cfg : RLConfig) (cur : Option RLBucket) (now : UInt64) (rest : List UInt64) :
    (admittedAt cfg cur (now :: rest)).length = min 1 (refilledTokens cfg cur now).toNat +
      (admittedAt cfg (arrive cfg cur now) rest).length := by
  rw [admittedAt_cons]
  split
  · rename_i empty
    simp [empty, arrive]
  · rw [List.length_cons, arrive]
    omega

variable {cfg : RLConfig} {cur : Option RLBucket} {now : UInt64}

/-- Where nothing wraps around, a refill adds the whole tokens gained, up to the burst. -/
theorem toNat_refilledTokens (product : gained cfg cur now < 2 ^ 64)
    (sum : (heldTokens cfg cur).toNat + gained cfg cur now / tokenUnit < 2 ^ 64) :
    (refilledTokens cfg cur now).toNat =
      min cfg.burst.toNat ((heldTokens cfg cur).toNat + gained cfg cur now / tokenUnit) := by
  have tokens : (heldTokens cfg cur +
      refillTime now (lastArrival cur now) * cfg.ratePerSec / 1000000000).toNat =
      (heldTokens cfg cur).toNat + gained cfg cur now / tokenUnit := by
    have unit : (1000000000 : UInt64).toNat = tokenUnit := rfl
    have times : (refillTime now (lastArrival cur now) * cfg.ratePerSec).toNat = gained cfg cur now := by
      rw [UInt64.toNat_mul, toNat_refillTime]
      exact Nat.mod_eq_of_lt product
    rw [UInt64.toNat_add, UInt64.toNat_div, times, unit]
    exact Nat.mod_eq_of_lt sum
  unfold refilledTokens
  dsimp only
  rw [← tokens]
  split
  · rename_i excess
    exact (Nat.min_eq_left (UInt64.le_iff_toNat_le.mp (UInt64.le_of_lt excess))).symm
  · rename_i within
    exact (Nat.min_eq_right (UInt64.le_iff_toNat_le.mp (UInt64.not_lt.mp within))).symm

/-- Where nothing wraps around, an arrival gains what it would in an exact bucket exactly if it loses no time. -/
theorem lossless_iff (rate : 0 < cfg.ratePerSec.toNat) (product : gained cfg cur now < 2 ^ 64)
    (sum : (heldTokens cfg cur).toNat + gained cfg cur now / tokenUnit < 2 ^ 64) :
    Lossless cfg cur now ↔ (refilledTokens cfg cur now).toNat * tokenUnit =
      min (cfg.burst.toNat * tokenUnit) ((heldTokens cfg cur).toNat * tokenUnit + dueSince cfg cur now) := by
  have due : dueSince cfg cur now = (now.toNat - (lastArrival cur now).toNat) * cfg.ratePerSec.toNat :=
    Nat.mul_comm ..
  have capped : gained cfg cur now ≤ dueSince cfg cur now := by
    rw [due]
    exact Nat.mul_le_mul_right _ (Nat.min_le_left ..)
  rw [toNat_refilledTokens product sum]
  unfold tokenUnit at sum ⊢
  constructor
  · intro lossless
    rcases lossless.whole with full | ⟨short, whole⟩
    · -- The bucket is full, with all that is due as with what is gained of it.
      omega
    · have all : gained cfg cur now = dueSince cfg cur now := by
        rw [due, gained, Nat.min_eq_left short]
      omega
  · intro same
    refine ⟨product, sum, ?_⟩
    by_cases full : cfg.burst.toNat ≤ (heldTokens cfg cur).toNat + gained cfg cur now / 1000000000
    · exact .inl full
    · -- What is due is then gained as a whole, and in whole tokens.
      have all : gained cfg cur now = dueSince cfg cur now := by omega
      have whole : gained cfg cur now % 1000000000 = 0 := by omega
      rw [due, gained] at all
      have time := Nat.eq_of_mul_eq_mul_right rate all
      exact .inr ⟨by omega, whole⟩

/-- From an arrival that loses no time on, both buckets hold the same. -/
theorem offer_of_lossless (rate : 0 < cfg.ratePerSec.toNat) (lossless : Lossless cfg cur now) :
    offer tokenUnit (cfg.burst.toNat * tokenUnit) ((heldTokens cfg cur).toNat * tokenUnit)
        (dueSince cfg cur now) =
      (min 1 (refilledTokens cfg cur now).toNat, (heldTokens cfg (arrive cfg cur now)).toNat * tokenUnit) := by
  have left : (heldTokens cfg (arrive cfg cur now)).toNat = (refilledTokens cfg cur now).toNat - 1 :=
    (rlTake_spec cfg cur now).2.2
  rw [offer, ← (lossless_iff rate lossless.product lossless.sum).mp lossless,
    take_units (by decide), left]

/-- A limiter that never loses time lets through as many arrivals as the exact bucket. -/
theorem serve_of_lossless {times : List UInt64} {last : UInt64} (rate : 0 < cfg.ratePerSec.toNat)
    (since : ∀ now ∈ times.head?, lastArrival cur now = last)
    (along : Run.Along (arrive cfg) (Lossless cfg) cur times) :
    (TokenBucket.serve tokenUnit (cfg.burst.toNat * tokenUnit) ((heldTokens cfg cur).toNat * tokenUnit)
        (dues cfg.ratePerSec.toNat last times)).1 = (admittedAt cfg cur times).length := by
  induction times generalizing cur last with
  | nil => rfl
  | cons now rest ih =>
    have later : ∀ next ∈ rest.head?, lastArrival (arrive cfg cur now) next = now :=
      fun _ _ => (rlTake_spec cfg cur now).2.1
    have due : cfg.ratePerSec.toNat * (now.toNat - last.toNat) = dueSince cfg cur now := by
      rw [dueSince, since now rfl]
    rw [dues, serve_cons, due, offer_of_lossless rate along.1, length_admittedAt_cons]
    exact congrArg (_ + ·) (ih later along.2)

theorem exactAdmits_of_lossless {times : List UInt64} (rate : 0 < cfg.ratePerSec.toNat)
    (along : Run.Along (arrive cfg) (Lossless cfg) none times) :
    exactAdmits cfg.ratePerSec.toNat cfg.burst.toNat times = (admittedAt cfg none times).length := by
  have since : ∀ now ∈ times.head?, lastArrival none now = times.headD 0 := by
    cases times with
    | nil => simp
    | cons first rest =>
      rintro now ⟨⟩
      rfl
  rw [← serve_of_lossless rate since along]
  rfl

/-- An arrival after more than ten seconds that loses no time finds the bucket full. -/
theorem full_of_idle (lossless : Lossless cfg cur now)
    (idle : (lastArrival cur now).toNat + 10000000000 < now.toNat) : refilledTokens cfg cur now = cfg.burst := by
  have full := lossless.whole.resolve_right fun ⟨short, _⟩ => by omega
  exact UInt64.toNat_inj.mp ((toNat_refilledTokens lossless.product lossless.sum).trans (Nat.min_eq_left full))

end Compare

section Sustained

theorem sum_dues {rate : Nat} {first : UInt64} {rest : List UInt64} (sorted : (first :: rest).Pairwise (· ≤ ·)) :
    (dues rate first rest).sum = rate * ((rest.getLastD first).toNat - first.toNat) := by
  induction rest generalizing first with
  | nil => simp [dues]
  | cons now rest ih =>
    obtain ⟨before, sorted⟩ := List.pairwise_cons.mp sorted
    rw [dues, List.sum_cons, ih sorted, ← Nat.mul_add, List.getLastD_cons]
    congr 1
    have low := UInt64.le_iff_toNat_le.mp (before now List.mem_cons_self)
    have high : now.toNat ≤ (rest.getLastD now).toNat := by
      cases rest.eq_nil_or_concat with
      | inl none => simp [none]
      | inr some =>
        obtain ⟨front, last, rfl⟩ := some
        simpa using UInt64.le_iff_toNat_le.mp ((List.pairwise_cons.mp sorted).1 last (by simp))
    omega

theorem dues_self (rate : Nat) (first : UInt64) (rest : List UInt64) :
    dues rate first (first :: rest) = 0 :: dues rate first rest := by
  rw [dues, Nat.sub_self, Nat.mul_zero]

theorem exactAdmits_cons (rate burst : Nat) (first : UInt64) (rest : List UInt64) :
    exactAdmits rate burst (first :: rest) =
      (TokenBucket.serve tokenUnit (burst * tokenUnit) (burst * tokenUnit) (0 :: dues rate first rest)).1 := by
  rw [exactAdmits, List.headD_cons, dues_self]

theorem sum_dues_le_exactAdmits {rate burst : Nat} {first : UInt64} {rest : List UInt64} (two : 2 ≤ burst)
    (often : ∀ due ∈ dues rate first rest, due ≤ tokenUnit) :
    (dues rate first rest).sum ≤ exactAdmits rate burst (first :: rest) * tokenUnit := by
  rw [exactAdmits_cons]
  exact sum_le_serve two often

end Sustained

/-- Eleven arrivals, half a second apart. -/
def halfSeconds : List UInt64 := (List.range 11).map fun k => UInt64.ofNat k * 500000000

end Rivora

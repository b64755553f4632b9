import Rivora.Bpf.Common
import Rivora.Dataplane.Vips
import Rivora.Lib.TokenBucket

/-! How many SYNs of one source the limiter lets through. -/

namespace Rivora

/-- One token in the units in which what is due is counted. -/
def tokenUnit : Nat := 1000000000

section Refill

/-- The time that counts for a refill: what has passed, up to a limit. -/
def refillTime (now last : UInt64) : UInt64 :=
  let elapsed := if now > last then now - last else 0
  if elapsed > rlMaxElapsedNs then rlMaxElapsedNs else elapsed

variable (cfg : RLConfig) (cur : Option RLBucket) (now : UInt64)

/-- The tokens before an arrival; a source seen for the first time has all. -/
def heldTokens : UInt64 := (cur.map RLBucket.tokens).getD cfg.burst

/-- The arrival before this one; for a source seen for the first time it is this one. -/
def lastArrival : UInt64 := (cur.map RLBucket.lastRefillNs).getD now

/-- What is due to a source since its last arrival. -/
def dueSince : Nat := cfg.ratePerSec.toNat * (now.toNat - (lastArrival cur now).toNat)

/-- The tokens of the bucket after it was refilled. -/
def refilledTokens : UInt64 :=
  let tokens := heldTokens cfg cur + refillTime now (lastArrival cur now) * cfg.ratePerSec / 1000000000
  if tokens > cfg.burst then cfg.burst else tokens

theorem rlTake_spec :
    (rlTake cfg cur now).1 = decide ((refilledTokens cfg cur now).toNat = 0) ∧
      (rlTake cfg cur now).2.lastRefillNs = now ∧
      (rlTake cfg cur now).2.tokens.toNat = (refilledTokens cfg cur now).toNat - 1 := by
  have step : rlTake cfg cur now = (decide (refilledTokens cfg cur now < 1),
      ⟨if decide (refilledTokens cfg cur now < 1) = true then refilledTokens cfg cur now
        else refilledTokens cfg cur now - 1, now⟩) := rfl
  rw [step]
  generalize refilledTokens cfg cur now = tokens
  have one : (1 : UInt64).toNat = 1 := rfl
  by_cases empty : tokens < 1
  · have zero : tokens.toNat = 0 := by
      rw [UInt64.lt_iff_toNat_lt, one] at empty
      omega
    simp [empty, zero]
  · have some : 1 ≤ tokens.toNat := by
      rw [UInt64.lt_iff_toNat_lt, one] at empty
      omega
    have positive : tokens.toNat ≠ 0 := by omega
    have taken : (tokens - 1).toNat = tokens.toNat - 1 := UInt64.toNat_sub_of_le _ _ (UInt64.not_lt.mp empty)
    simp only [empty, positive, decide_false, Bool.false_eq_true, if_false, taken, and_self]

variable {cfg cur now}

/-- The time that counts is what has passed, up to ten seconds. -/
theorem toNat_refillTime (now last : UInt64) :
    (refillTime now last).toNat = min (now.toNat - last.toNat) 10000000000 := by
  have passed : (if now > last then now - last else 0).toNat = now.toNat - last.toNat := by
    split
    · rename_i later
      exact UInt64.toNat_sub_of_le _ _ (UInt64.le_of_lt later)
    · rename_i earlier
      exact (Nat.sub_eq_zero_of_le (UInt64.le_iff_toNat_le.mp (UInt64.not_lt.mp earlier))).symm
  have cap : rlMaxElapsedNs.toNat = 10000000000 := rfl
  unfold refillTime
  dsimp only
  rw [← passed]
  generalize (if now > last then now - last else 0) = elapsed
  split
  · rename_i long
    have long := UInt64.lt_iff_toNat_lt.mp long
    omega
  · rename_i short
    have short := UInt64.le_iff_toNat_le.mp (UInt64.not_lt.mp short)
    omega

theorem toNat_refilledTokens_le_burst : (refilledTokens cfg cur now).toNat ≤ cfg.burst.toNat := by
  unfold refilledTokens
  dsimp only
  split
  · exact Nat.le_refl _
  · rename_i within
    exact UInt64.le_iff_toNat_le.mp (UInt64.not_lt.mp within)

theorem refilledTokens_le : (refilledTokens cfg cur now).toNat * tokenUnit ≤
    (heldTokens cfg cur).toNat * tokenUnit + dueSince cfg cur now := by
  -- A sum or a product that wraps around is smaller than the exact one.
  have product : (refillTime now (lastArrival cur now) * cfg.ratePerSec).toNat ≤ dueSince cfg cur now := by
    rw [UInt64.toNat_mul, Nat.mul_comm]
    exact (Nat.mod_le ..).trans (Nat.mul_le_mul_left _ ((toNat_refillTime ..).le.trans (Nat.min_le_left ..)))
  have sum : (heldTokens cfg cur + refillTime now (lastArrival cur now) * cfg.ratePerSec / 1000000000).toNat ≤
      (heldTokens cfg cur).toNat + (refillTime now (lastArrival cur now) * cfg.ratePerSec).toNat / tokenUnit := by
    rw [UInt64.toNat_add, UInt64.toNat_div]
    exact Nat.mod_le ..
  have whole := Nat.div_mul_le_self (refillTime now (lastArrival cur now) * cfg.ratePerSec).toNat tokenUnit
  have refilled : (refilledTokens cfg cur now).toNat ≤
      (heldTokens cfg cur).toNat + (refillTime now (lastArrival cur now) * cfg.ratePerSec).toNat / tokenUnit := by
    unfold refilledTokens
    dsimp only
    split
    · rename_i excess
      exact (UInt64.le_iff_toNat_le.mp (UInt64.le_of_lt excess)).trans sum
    · exact sum
  have scaled := Nat.mul_le_mul_right tokenUnit refilled
  rw [Nat.add_mul] at scaled
  omega

end Refill

/-- The arrivals that the limiter lets through. -/
def admittedAt (cfg : RLConfig) : Option RLBucket → List UInt64 → List UInt64
  | _, [] => []
  | cur, now :: rest =>
    let (exceeded, bucket) := rlTake cfg cur now
    let later := admittedAt cfg (some bucket) rest
    if exceeded then later else now :: later

theorem admittedAt_cons (cfg : RLConfig) (cur : Option RLBucket) (now : UInt64) (rest : List UInt64) :
    admittedAt cfg cur (now :: rest) =
      if (refilledTokens cfg cur now).toNat = 0 then admittedAt cfg (some (rlTake cfg cur now).2) rest
      else now :: admittedAt cfg (some (rlTake cfg cur now).2) rest := by
  rw [admittedAt]
  dsimp only
  rw [(rlTake_spec cfg cur now).1]
  simp only [decide_eq_true_eq]

theorem mem_of_mem_admittedAt {cfg : RLConfig} {cur : Option RLBucket} {times : List UInt64} {t : UInt64}
    (admitted : t ∈ admittedAt cfg cur times) : t ∈ times := by
  induction times generalizing cur with
  | nil => exact admitted
  | cons now rest ih =>
    rw [admittedAt_cons] at admitted
    split at admitted
    · exact List.mem_cons_of_mem _ (ih admitted)
    · cases List.mem_cons.mp admitted with
      | inl first => exact first ▸ List.mem_cons_self
      | inr later => exact List.mem_cons_of_mem _ (ih later)

section Budget

variable {cfg : RLConfig} {times : List UInt64}

theorem countP_admittedAt_cons_le {cur : Option RLBucket} {now t1 : UInt64} {rest : List UInt64} {due : Nat}
    (others : (admittedAt cfg (some (rlTake cfg cur now).2) rest).countP (· ≤ t1) * tokenUnit ≤
      (rlTake cfg cur now).2.tokens.toNat * tokenUnit + due) :
    (admittedAt cfg cur (now :: rest)).countP (· ≤ t1) * tokenUnit ≤
      (refilledTokens cfg cur now).toNat * tokenUnit + due := by
  rw [(rlTake_spec cfg cur now).2.2] at others
  rw [admittedAt_cons]
  split
  · rename_i empty
    rw [empty] at others ⊢
    exact others
  · rename_i some
    have token : (refilledTokens cfg cur now).toNat * tokenUnit =
        ((refilledTokens cfg cur now).toNat - 1) * tokenUnit + tokenUnit := by
      rw [← Nat.succ_mul]
      congr 1
      omega
    -- This arrival counts for one at most.
    have one : ∀ l : List UInt64, (now :: l).countP (· ≤ t1) ≤ l.countP (· ≤ t1) + 1 := by
      intro l
      rw [List.countP_cons]
      split <;> omega
    have scaled := Nat.mul_le_mul_right tokenUnit (one (admittedAt cfg (Option.some (rlTake cfg cur now).2) rest))
    rw [Nat.add_mul] at scaled
    omega

theorem countP_admittedAt_eq_zero {cur : Option RLBucket} {t1 : UInt64} (behind : ∀ t ∈ times, t1 < t) :
    (admittedAt cfg cur times).countP (· ≤ t1) = 0 := by
  rw [List.countP_eq_zero]
  intro t admitted
  simpa using behind t (mem_of_mem_admittedAt admitted)

theorem countP_admittedAt_le {bucket : RLBucket} {t1 : UInt64} (sorted : times.Pairwise (· ≤ ·))
    (later : ∀ t ∈ times, bucket.lastRefillNs ≤ t) :
    (admittedAt cfg (some bucket) times).countP (· ≤ t1) * tokenUnit ≤
      bucket.tokens.toNat * tokenUnit + cfg.ratePerSec.toNat * (t1.toNat - bucket.lastRefillNs.toNat) := by
  induction times generalizing bucket with
  | nil => simp [admittedAt]
  | cons now rest ih =>
    obtain ⟨first, sorted⟩ := List.pairwise_cons.mp sorted
    have touched := (rlTake_spec cfg (some bucket) now).2.1
    by_cases early : now ≤ t1
    · have others := @ih (rlTake cfg (some bucket) now).2 sorted fun t mem => touched ▸ first t mem
      rw [touched] at others
      -- The tokens after the refill were held before it or have become due.
      have refilled : _ ≤ bucket.tokens.toNat * tokenUnit + dueSince cfg (some bucket) now :=
        @refilledTokens_le cfg (some bucket) now
      have due : dueSince cfg (some bucket) now + cfg.ratePerSec.toNat * (t1.toNat - now.toNat) =
          cfg.ratePerSec.toNat * (t1.toNat - bucket.lastRefillNs.toNat) := by
        have before := UInt64.le_iff_toNat_le.mp (later now List.mem_cons_self)
        have after := UInt64.le_iff_toNat_le.mp early
        have span : t1.toNat - bucket.lastRefillNs.toNat =
            now.toNat - bucket.lastRefillNs.toNat + (t1.toNat - now.toNat) := by omega
        rw [span, Nat.mul_add]
        rfl
      have counted := countP_admittedAt_cons_le others
      omega
    · have behind : ∀ t ∈ now :: rest, t1 < t := by
        refine List.forall_mem_cons.mpr ⟨UInt64.not_le.mp early, fun t mem => ?_⟩
        exact UInt64.lt_of_lt_of_le (UInt64.not_le.mp early) (first t mem)
      rw [countP_admittedAt_eq_zero behind]
      omega

end Budget

/--
Between any two instants, no more SYNs of a source are let through than the burst and what becomes due at
the rate in between.
-/
theorem syns_stay_within_budget (cfg : RLConfig) (cur : Option RLBucket) {times : List UInt64}
    (sorted : times.Pairwise (· ≤ ·)) (t0 t1 : UInt64) :
    (admittedAt cfg cur times).countP (fun t => t0 ≤ t ∧ t ≤ t1) * 1000000000 ≤
      cfg.burst.toNat * 1000000000 + cfg.ratePerSec.toNat * (t1.toNat - t0.toNat) := by
  induction times generalizing cur with
  | nil => simp [admittedAt]
  | cons now rest ih =>
    obtain ⟨first, sorted⟩ := List.pairwise_cons.mp sorted
    have touched := (rlTake_spec cfg cur now).2.1
    by_cases early : now < t0
    · -- The first arrival is outside; what it left in the bucket is of no account.
      have outside : ¬ (t0 ≤ now ∧ now ≤ t1) := fun inside => UInt64.not_le.mpr early inside.1
      rw [admittedAt_cons]
      split
      · exact ih (some (rlTake cfg cur now).2) sorted
      · rw [List.countP_cons_of_neg (by simpa using outside)]
        exact ih (some (rlTake cfg cur now).2) sorted
    · -- From here on, the refilled bucket holds the burst at most.
      have count : (admittedAt cfg cur (now :: rest)).countP (fun t => t0 ≤ t ∧ t ≤ t1) ≤
          (admittedAt cfg cur (now :: rest)).countP (· ≤ t1) :=
        List.countP_mono_left fun t _ inside => by simp_all
      have others := @countP_admittedAt_le cfg rest (rlTake cfg cur now).2 t1 sorted
        fun t mem => touched ▸ first t mem
      have counted := countP_admittedAt_cons_le others
      have burst := @toNat_refilledTokens_le_burst cfg cur now
      rw [touched] at counted
      have late := UInt64.le_iff_toNat_le.mp (UInt64.not_lt.mp early)
      have span : cfg.ratePerSec.toNat * (t1.toNat - now.toNat) ≤ cfg.ratePerSec.toNat * (t1.toNat - t0.toNat) :=
        Nat.mul_le_mul_left _ (by omega)
      calc _ ≤ (admittedAt cfg cur (now :: rest)).countP (· ≤ t1) * tokenUnit := Nat.mul_le_mul_right _ count
        _ ≤ (refilledTokens cfg cur now).toNat * tokenUnit + cfg.ratePerSec.toNat * (t1.toNat - now.toNat) :=
          counted
        _ ≤ _ := Nat.add_le_add (Nat.mul_le_mul_right _ burst) span

/-- Five SYNs in one second against a rate of two and a burst of three: the fourth is refused. -/
theorem five_syns_in_a_second :
    admittedAt ⟨2, 3, true⟩ none [0, 250000000, 500000000, 500000000, 1000000000] =
        [0, 250000000, 500000000, 1000000000] ∧
      (admittedAt ⟨2, 3, true⟩ none [0, 250000000, 500000000, 500000000, 1000000000]).countP
        (fun t => 0 ≤ t ∧ t ≤ 1000000000) * 1000000000 ≤ 3 * 1000000000 + 2 * (1000000000 - 0) :=
  ⟨by decide +kernel, syns_stay_within_budget ⟨2, 3, true⟩ none (by decide) 0 1000000000⟩

end Rivora

import Mathlib.Algebra.Order.Field.Basic
import Mathlib.Tactic.Linarith
import Mathlib.Tactic.Positivity

/-!
# Token buckets

A bucket is refilled at a rate up to its burst, and each pass takes one token. What has passed
since any moment and what is left together stay below the burst and what was refilled since, so a
window of any length has at most the burst and what its length refills.
-/
namespace TokenBucket

variable {Q : Type} [Field Q] [LinearOrder Q] [IsStrictOrderedRing Q]

structure Bucket (Q : Type) where
  tokens : Q
  lastRefill : Q

def Bucket.refill (burst rate now : Q) (bucket : Bucket Q) : Bucket Q :=
  ⟨min burst (bucket.tokens + max (now - bucket.lastRefill) 0 * rate), now⟩

def Bucket.take (bucket : Bucket Q) : Bucket Q := ⟨max (bucket.tokens - 1) 0, bucket.lastRefill⟩

/-- How many passes there were since a moment. -/
def countSince (passes : List Q) (moment : Q) : ℕ := passes.countP fun pass => moment ≤ pass

/-- How many passes there were in a window. -/
def countWindow (passes : List Q) (start length : Q) : ℕ :=
  passes.countP fun pass => start ≤ pass ∧ pass ≤ start + length

/-- The bucket after these passes. -/
structure Paced (burst rate : Q) (passes : List Q) (bucket : Bucket Q) : Prop where
  nonneg : 0 ≤ bucket.tokens
  le_burst : bucket.tokens ≤ burst
  past : ∀ pass ∈ passes, pass ≤ bucket.lastRefill
  reserve : ∀ moment, moment ≤ bucket.lastRefill →
    countSince passes moment + bucket.tokens ≤ burst + rate * (bucket.lastRefill - moment)
  windows : ∀ start length, 0 ≤ length →
    (countWindow passes start length : Q) ≤ burst + rate * length

variable {burst rate now : Q} {passes : List Q} {bucket : Bucket Q}

theorem paced_full (hburst : 0 ≤ burst) (hrate : 0 ≤ rate) (start : Q) :
    Paced burst rate [] ⟨burst, start⟩ := by
  refine ⟨hburst, le_refl _, by simp, ?_, ?_⟩
  · intro moment hmoment
    have hrefilled : 0 ≤ rate * (start - moment) := mul_nonneg hrate (sub_nonneg.mpr hmoment)
    simp only [countSince, List.countP_nil, Nat.cast_zero]
    linarith
  · intro from' length hlength
    have hrefilled : 0 ≤ rate * length := mul_nonneg hrate hlength
    simp only [countWindow, List.countP_nil, Nat.cast_zero]
    linarith

omit [Field Q] [IsStrictOrderedRing Q] in
theorem countSince_of_future {moment : Q} (h : ∀ pass ∈ passes, pass < moment) :
    countSince passes moment = 0 := by
  unfold countSince
  rw [List.countP_eq_zero]
  intro pass hpass
  simpa using h pass hpass

/-- Refilling keeps the bounds: no pass is later than the last refill. -/
theorem Paced.refill (h : Paced burst rate passes bucket) (hrate : 0 ≤ rate)
    (hnow : bucket.lastRefill ≤ now) :
    Paced burst rate passes (bucket.refill burst rate now) := by
  have helapsed : max (now - bucket.lastRefill) 0 = now - bucket.lastRefill :=
    max_eq_left (sub_nonneg.mpr hnow)
  have hgained : 0 ≤ (now - bucket.lastRefill) * rate :=
    mul_nonneg (sub_nonneg.mpr hnow) hrate
  have htokens : (bucket.refill burst rate now).tokens =
      min burst (bucket.tokens + (now - bucket.lastRefill) * rate) := by
    rw [Bucket.refill, helapsed]
  have hcap : (bucket.refill burst rate now).tokens ≤ burst := by
    rw [htokens]
    exact min_le_left _ _
  have hgain : (bucket.refill burst rate now).tokens ≤
      bucket.tokens + (now - bucket.lastRefill) * rate := by
    rw [htokens]
    exact min_le_right _ _
  have hfull := h.nonneg.trans h.le_burst
  refine ⟨?_, hcap, ?_, ?_, h.windows⟩
  · rw [htokens]
    exact le_min hfull (add_nonneg h.nonneg hgained)
  · intro pass hpass
    exact (h.past pass hpass).trans hnow
  · intro moment hmoment
    change moment ≤ now at hmoment
    show (countSince passes moment : Q) + _ ≤ burst + rate * (now - moment)
    by_cases hold : moment ≤ bucket.lastRefill
    · have hreserve := h.reserve moment hold
      linarith
    · have hnone : countSince passes moment = 0 := by
        apply countSince_of_future
        intro pass hpass
        exact (h.past pass hpass).trans_lt (not_le.mp hold)
      have hrefilled : 0 ≤ rate * (now - moment) := mul_nonneg hrate (sub_nonneg.mpr hmoment)
      rw [hnone, Nat.cast_zero]
      linarith

/-- A pass at the last refill takes a whole token. -/
theorem Paced.take (h : Paced burst rate passes bucket) (hrate : 0 ≤ rate)
    (htoken : 1 ≤ bucket.tokens) :
    Paced burst rate (bucket.lastRefill :: passes) bucket.take := by
  have htaken : bucket.take.tokens = bucket.tokens - 1 := max_eq_left (by linarith)
  have hcount : ∀ moment, moment ≤ bucket.lastRefill →
      countSince (bucket.lastRefill :: passes) moment = countSince passes moment + 1 := by
    intro moment hmoment
    exact List.countP_cons_of_pos (by simpa using hmoment)
  have hreserve : ∀ moment, moment ≤ bucket.lastRefill →
      (countSince (bucket.lastRefill :: passes) moment : Q) + bucket.take.tokens ≤
        burst + rate * (bucket.lastRefill - moment) := by
    intro moment hmoment
    have hbefore := h.reserve moment hmoment
    rw [hcount moment hmoment, htaken]
    push_cast
    linarith
  refine ⟨by linarith, by linarith [h.le_burst], ?_, hreserve, ?_⟩
  · intro pass hpass
    rcases List.mem_cons.mp hpass with rfl | hearlier
    · exact le_refl _
    · exact h.past pass hearlier
  · intro start length hlength
    by_cases hwithin : start ≤ bucket.lastRefill ∧ bucket.lastRefill ≤ start + length
    · have hsince : countWindow (bucket.lastRefill :: passes) start length ≤
          countSince (bucket.lastRefill :: passes) start := by
        apply List.countP_mono_left
        intro pass _ hpass
        simp only [decide_eq_true_eq] at hpass ⊢
        exact hpass.1
      have hbound := hreserve start hwithin.1
      have hgained : rate * (bucket.lastRefill - start) ≤ rate * length :=
        mul_le_mul_of_nonneg_left (by linarith [hwithin.2]) hrate
      have hcast : (countWindow (bucket.lastRefill :: passes) start length : Q) ≤
          countSince (bucket.lastRefill :: passes) start := Nat.cast_le.mpr hsince
      linarith
    · have hskip : countWindow (bucket.lastRefill :: passes) start length =
          countWindow passes start length := by
        exact List.countP_cons_of_neg (by simpa using hwithin)
      rw [hskip]
      exact h.windows start length hlength

/-- Waiting for what is missing of a token fills one up. -/
theorem one_le_refill (hburst : 1 ≤ burst) (hrate : 0 < rate)
    (hwait : bucket.lastRefill + (1 - bucket.tokens) / rate ≤ now) :
    1 ≤ (bucket.refill burst rate now).tokens := by
  have hmissing : 1 - bucket.tokens ≤ (now - bucket.lastRefill) * rate := by
    rw [← div_le_iff₀ hrate]
    linarith
  have helapsed : (now - bucket.lastRefill) * rate ≤ max (now - bucket.lastRefill) 0 * rate :=
    mul_le_mul_of_nonneg_right (le_max_left _ _) hrate.le
  refine le_min hburst ?_
  linarith

end TokenBucket

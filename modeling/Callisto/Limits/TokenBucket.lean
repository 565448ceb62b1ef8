import Mathlib.Algebra.Order.Field.Rat
import Mathlib.Data.NNRat.Defs
import Mathlib.Tactic.FieldSimp
import Mathlib.Tactic.Linarith
import Mathlib.Tactic.NormNum
import Mathlib.Tactic.Positivity
import Mathlib.Tactic.Ring

/-! The token bucket of the rate limiter, in exact arithmetic, and what it may grant in a window of time. -/

namespace Callisto.Limits

structure RateLimitConfig where
  requestsPerWindow : ℕ
  windowSeconds : ℚ := 10
  burstLimit : Option ℕ := none
  requests_pos : 0 < requestsPerWindow := by decide
  window_pos : 0 < windowSeconds := by norm_num

structure TokenBucket where
  capacity : ℚ
  tokens : ℚ
  refillRate : ℚ
  lastRefill : ℚ

namespace TokenBucket

def refill (bucket : TokenBucket) (now : ℚ) : TokenBucket :=
  { bucket with tokens := min bucket.capacity (bucket.tokens + (now - bucket.lastRefill) * bucket.refillRate), lastRefill := now }

def consume (bucket : TokenBucket) (tokens : ℕ) (now : ℚ) : TokenBucket × Bool :=
  let bucket := bucket.refill now
  if (tokens : ℚ) ≤ bucket.tokens then ({ bucket with tokens := bucket.tokens - tokens }, true) else (bucket, false)

def waitTime (bucket : TokenBucket) (tokens : ℕ) (now : ℚ) : TokenBucket × ℚ :=
  let bucket := bucket.refill now
  if (tokens : ℚ) ≤ bucket.tokens then (bucket, 0) else (bucket, (tokens - bucket.tokens) / bucket.refillRate)

@[simp] theorem refill_capacity (bucket : TokenBucket) (now : ℚ) : (bucket.refill now).capacity = bucket.capacity := rfl

@[simp] theorem refill_refillRate (bucket : TokenBucket) (now : ℚ) : (bucket.refill now).refillRate = bucket.refillRate := rfl

@[simp] theorem refill_lastRefill (bucket : TokenBucket) (now : ℚ) : (bucket.refill now).lastRefill = now := rfl

theorem waitTime_bucket (bucket : TokenBucket) (tokens : ℕ) (now : ℚ) : (bucket.waitTime tokens now).1 = bucket.refill now := by
  unfold waitTime
  by_cases enough : (tokens : ℚ) ≤ (bucket.refill now).tokens
  · simp only [if_pos enough]
  · simp only [if_neg enough]

end TokenBucket

/-- Tokens that a call has got, and the clock when it returned. -/
structure Grant where
  call : ℕ
  tokens : ℕ
  time : ℚ

def grantedIn (first last : ℚ) (grants : List Grant) : ℕ :=
  ((grants.filter fun grant => decide (first ≤ grant.time ∧ grant.time ≤ last)).map Grant.tokens).sum

theorem grantedIn_cons (first last : ℚ) (grant : Grant) (grants : List Grant) :
    grantedIn first last (grant :: grants) =
      (if first ≤ grant.time ∧ grant.time ≤ last then grant.tokens else 0) + grantedIn first last grants := by
  unfold grantedIn
  by_cases inside : first ≤ grant.time ∧ grant.time ≤ last
  · simp [inside]
  · simp only [List.filter_cons, if_neg inside, decide_eq_true_eq, zero_add]

theorem grantedIn_later {first last later : ℚ} {grants : List Grant} (past : ∀ grant ∈ grants, grant.time ≤ last) (after : last ≤ later) :
    grantedIn first later grants = grantedIn first last grants := by
  unfold grantedIn
  congr 2
  apply List.filter_congr
  intro grant member
  have before := past grant member
  simp only [before, before.trans after, and_true]

theorem grantedIn_after {first last : ℚ} {grants : List Grant} (past : ∀ grant ∈ grants, grant.time < first) :
    grantedIn first last grants = 0 := by
  unfold grantedIn
  rw [List.filter_eq_nil_iff.2]
  · rfl
  · intro grant member
    have before := past grant member
    simp [not_le.2 before]

/-- The tokens of a bucket, and what it has granted up to its latest refill. -/
structure Accounts (bucket : TokenBucket) (grants : List Grant) : Prop where
  rate : 0 < bucket.refillRate
  nonneg : 0 ≤ bucket.tokens
  full : bucket.tokens ≤ bucket.capacity
  past : ∀ grant ∈ grants, grant.time ≤ bucket.lastRefill
  running : ∀ first, first ≤ bucket.lastRefill →
    grantedIn first bucket.lastRefill grants + bucket.tokens ≤ bucket.capacity + bucket.refillRate * (bucket.lastRefill - first)
  window : ∀ first last, first ≤ last →
    (grantedIn first last grants : ℚ) ≤ bucket.capacity + bucket.refillRate * (last - first)

namespace Accounts

variable {bucket : TokenBucket} {grants : List Grant} {now : ℚ}

theorem refill (accounts : Accounts bucket grants) (later : bucket.lastRefill ≤ now) : Accounts (bucket.refill now) grants where
  rate := accounts.rate
  nonneg := by
    have earned : 0 ≤ (now - bucket.lastRefill) * bucket.refillRate := mul_nonneg (sub_nonneg.2 later) accounts.rate.le
    exact le_min (accounts.nonneg.trans accounts.full) (add_nonneg accounts.nonneg earned)
  full := min_le_left _ _
  past grant member := (accounts.past grant member).trans later
  running first before := by
    have whole : (bucket.refill now).tokens ≤ bucket.capacity := min_le_left _ _
    have credit : (bucket.refill now).tokens ≤ bucket.tokens + (now - bucket.lastRefill) * bucket.refillRate := min_le_right _ _
    simp only [TokenBucket.refill_lastRefill, TokenBucket.refill_capacity, TokenBucket.refill_refillRate] at before ⊢
    by_cases old : first ≤ bucket.lastRefill
    · have held := accounts.running first old
      rw [grantedIn_later accounts.past later]
      calc
        _ ≤ grantedIn first bucket.lastRefill grants + (bucket.tokens + (now - bucket.lastRefill) * bucket.refillRate) := by linarith
        _ ≤ bucket.capacity + bucket.refillRate * (bucket.lastRefill - first) + (now - bucket.lastRefill) * bucket.refillRate := by
          linarith
        _ = _ := by ring
    · have none : grantedIn first now grants = 0 :=
        grantedIn_after fun grant member => (accounts.past grant member).trans_lt (not_le.1 old)
      have earned : 0 ≤ bucket.refillRate * (now - first) := mul_nonneg accounts.rate.le (sub_nonneg.2 before)
      rw [none, Nat.cast_zero, zero_add]
      linarith
  window := accounts.window

theorem grant (accounts : Accounts bucket grants) {call tokens : ℕ} (enough : (tokens : ℚ) ≤ bucket.tokens) :
    Accounts { bucket with tokens := bucket.tokens - tokens } (⟨call, tokens, bucket.lastRefill⟩ :: grants) where
  rate := accounts.rate
  nonneg := sub_nonneg.2 enough
  full := by
    have positive : (0 : ℚ) ≤ tokens := Nat.cast_nonneg tokens
    have full := accounts.full
    simp only
    linarith
  past grant member := by
    obtain same | old := List.mem_cons.1 member
    · exact le_of_eq (by rw [same])
    · exact accounts.past grant old
  running first before := by
    have held := accounts.running first before
    rw [grantedIn_cons, if_pos ⟨before, le_refl _⟩, Nat.cast_add]
    linarith
  window first last ordered := by
    rw [grantedIn_cons]
    by_cases inside : first ≤ bucket.lastRefill ∧ bucket.lastRefill ≤ last
    · have held := accounts.running first inside.1
      have longer : bucket.refillRate * (bucket.lastRefill - first) ≤ bucket.refillRate * (last - first) :=
        mul_le_mul_of_nonneg_left (sub_le_sub_right inside.2 first) accounts.rate.le
      rw [if_pos inside, grantedIn_later accounts.past inside.2, Nat.cast_add]
      linarith
    · rw [if_neg inside, zero_add]
      exact accounts.window first last ordered

end Accounts

end Callisto.Limits

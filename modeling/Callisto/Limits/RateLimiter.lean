import Mathlib.Algebra.Order.Ring.Rat
import Mathlib.Logic.Function.Basic
import Callisto.Library.Runs
import Callisto.Limits.TokenBucket

/-! Tasks that share the bucket of one endpoint. The lock is never held across an await, so what a task does
between two awaits is one step; the clock may advance before each of its readings. -/

namespace Callisto.Limits

open Callisto.Library Callisto.Library.Runs

def limits : List (String × RateLimitConfig) := [
  ("gamma_general", { requestsPerWindow := 4000 }),
  ("gamma_markets", { requestsPerWindow := 120, burstLimit := some 12 }),
  ("gamma_events", { requestsPerWindow := 500 }),
  ("gamma_search", { requestsPerWindow := 350, burstLimit := some 70 }),
  ("clob_general", { requestsPerWindow := 9000 }),
  ("clob_market", { requestsPerWindow := 1500 }),
  ("clob_markets_batch", { requestsPerWindow := 500 }),
  ("clob_prices_history", { requestsPerWindow := 1000 }),
  ("data_general", { requestsPerWindow := 1000 }),
  ("data_trades", { requestsPerWindow := 120, burstLimit := some 12 }),
  ("data_positions", { requestsPerWindow := 30, burstLimit := some 3 })]

def configFor (endpoint : String) : RateLimitConfig := (limits.lookup endpoint).getD { requestsPerWindow := 1000 }

def RateLimitConfig.capacity (config : RateLimitConfig) : ℕ :=
  match config.burstLimit with
  | none => config.requestsPerWindow
  | some burst => if burst = 0 then config.requestsPerWindow else burst

def RateLimitConfig.refillRate (config : RateLimitConfig) : ℚ := config.requestsPerWindow / config.windowSeconds

theorem RateLimitConfig.refillRate_pos (config : RateLimitConfig) : 0 < config.refillRate :=
  div_pos (Nat.cast_pos.2 config.requests_pos) config.window_pos

/-- A call of `acquire`: in its back-off sleep with the seconds it sleeps, returned, or cancelled while asleep. -/
inductive Call where
  | sleeping (tokens : ℕ) (totalWaited waitTime : ℚ)
  | returned (tokens : ℕ) (totalWaited : ℚ)
  | cancelled (tokens : ℕ)

/-- The limiter at one endpoint and the calls of its tasks. What `acquire` returned is in `grants`, what
`consume` took from the bucket is in `taken`, the latest first. -/
structure RateLimiter where
  bucket : Option TokenBucket := none
  clock : ℚ
  calls : ℕ → Option Call := fun _ => none
  grants : List Grant := []
  taken : List (ℕ × ℕ) := []

/-- How far the clock goes before the bucket is made, before the wait is computed and before the tokens are consumed. -/
structure Delays where
  made : ℚ≥0 := 0
  looked : ℚ≥0 := 0
  consumed : ℚ≥0 := 0

inductive Event where
  | acquire (call tokens : ℕ) (delays : Delays)
  | wake (call : ℕ) (delays : Delays)
  | cancel (call : ℕ)
  | check (tokens : ℕ) (delays : Delays)

namespace RateLimiter

def getBucket (config : RateLimitConfig) (limiter : RateLimiter) (now : ℚ) : TokenBucket :=
  limiter.bucket.getD ⟨config.capacity, config.capacity, config.refillRate, now⟩

/-- One round of the loop of `acquire`. -/
def tryAcquire (config : RateLimitConfig) (limiter : RateLimiter) (call tokens : ℕ) (totalWaited : ℚ) (delays : Delays) : RateLimiter :=
  let made := limiter.clock + delays.made
  let looked := made + delays.looked
  let waiting := (limiter.getBucket config made).waitTime tokens looked
  if waiting.2 ≤ 0 then
    let now := looked + delays.consumed
    let consumed := waiting.1.consume tokens now
    { bucket := some consumed.1
      clock := now
      calls := Function.update limiter.calls call (some (.returned tokens totalWaited))
      grants := ⟨call, tokens, now⟩ :: limiter.grants
      taken := if consumed.2 then (call, tokens) :: limiter.taken else limiter.taken }
  else
    { limiter with
      bucket := some waiting.1
      clock := looked
      calls := Function.update limiter.calls call (some (.sleeping tokens totalWaited waiting.2)) }

def check (config : RateLimitConfig) (limiter : RateLimiter) (tokens : ℕ) (delays : Delays) : RateLimiter × Bool :=
  let made := limiter.clock + delays.made
  let looked := made + delays.looked
  let bucket := (limiter.getBucket config made).refill looked
  ({ limiter with bucket := some bucket, clock := looked }, decide ((tokens : ℚ) ≤ bucket.tokens))

def step (config : RateLimitConfig) (limiter : RateLimiter) : Event → RateLimiter
  | .acquire call tokens delays =>
    match limiter.calls call with
    | none => limiter.tryAcquire config call tokens 0 delays
    | some _ => limiter
  | .wake call delays =>
    match limiter.calls call with
    | some (.sleeping tokens totalWaited waitTime) => limiter.tryAcquire config call tokens (totalWaited + waitTime) delays
    | _ => limiter
  | .cancel call =>
    match limiter.calls call with
    | some (.sleeping tokens _ _) => { limiter with calls := Function.update limiter.calls call (some (.cancelled tokens)) }
    | _ => limiter
  | .check tokens delays => (limiter.check config tokens delays).1

/-- What `consume` took from the bucket for a call. -/
def takenBy (limiter : RateLimiter) (call : ℕ) : List ℕ := (limiter.taken.filter fun entry => entry.1 = call).map Prod.snd

end RateLimiter

def Call.due : Option Call → List ℕ
  | some (.returned tokens _) => [tokens]
  | _ => []

/-- The accounts of the bucket hold, and every call has taken what it should. -/
structure Metered (config : RateLimitConfig) (limiter : RateLimiter) : Prop where
  accounts : ∀ now, limiter.clock ≤ now → Accounts (limiter.getBucket config now) limiter.grants
  capacity : ∀ now, (limiter.getBucket config now).capacity = config.capacity
  rate : ∀ now, (limiter.getBucket config now).refillRate = config.refillRate
  clock : ∀ now, limiter.clock ≤ now → (limiter.getBucket config now).lastRefill ≤ now
  taken : ∀ call, limiter.takenBy call = Call.due (limiter.calls call)
  granted : limiter.taken = limiter.grants.map fun grant => (grant.call, grant.tokens)

namespace Metered

variable {config : RateLimitConfig} {limiter : RateLimiter}

theorem fresh (config : RateLimitConfig) (start : ℚ) : Metered config { clock := start } where
  accounts now _ := by
    refine ⟨config.refillRate_pos, Nat.cast_nonneg _, le_refl _, by simp, fun first before => ?_, fun first last ordered => ?_⟩
    · have earned := mul_nonneg config.refillRate_pos.le (sub_nonneg.2 before)
      simp only [RateLimiter.getBucket, Option.getD_none, grantedIn, List.filter_nil, List.map_nil, List.sum_nil] at earned ⊢
      simpa using earned
    · have earned := mul_nonneg config.refillRate_pos.le (sub_nonneg.2 ordered)
      have positive : (0 : ℚ) ≤ config.capacity := Nat.cast_nonneg _
      simp only [RateLimiter.getBucket, Option.getD_none, grantedIn, List.filter_nil, List.map_nil, List.sum_nil, Nat.cast_zero]
      linarith
  capacity _ := rfl
  rate _ := rfl
  clock now _ := le_refl now
  taken _ := rfl
  granted := rfl

theorem of_bucket {bucket : TokenBucket} (there : limiter.bucket = some bucket) (accounts : Accounts bucket limiter.grants)
    (capacity : bucket.capacity = config.capacity) (rate : bucket.refillRate = config.refillRate)
    (clock : bucket.lastRefill ≤ limiter.clock) (taken : ∀ call, limiter.takenBy call = Call.due (limiter.calls call))
    (granted : limiter.taken = limiter.grants.map fun grant => (grant.call, grant.tokens)) : Metered config limiter := by
  have same : ∀ now, limiter.getBucket config now = bucket := fun now => by rw [RateLimiter.getBucket, there, Option.getD_some]
  constructor
  · intro now _
    rw [same now]
    exact accounts
  · intro now
    rw [same now]
    exact capacity
  · intro now
    rw [same now]
    exact rate
  · intro now later
    rw [same now]
    exact clock.trans later
  · exact taken
  · exact granted

theorem later (delay : ℚ≥0) (clock : ℚ) : clock ≤ clock + delay := le_add_of_nonneg_right delay.2

theorem refilled (metered : Metered config limiter) (delays : Delays) :
    Accounts ((limiter.getBucket config (limiter.clock + delays.made)).refill (limiter.clock + delays.made + delays.looked))
      limiter.grants := by
  have made := later delays.made limiter.clock
  exact (metered.accounts _ made).refill ((metered.clock _ made).trans (later delays.looked _))

theorem check (metered : Metered config limiter) (tokens : ℕ) (delays : Delays) :
    Metered config (limiter.check config tokens delays).1 :=
  of_bucket rfl (metered.refilled delays) (metered.capacity _) (metered.rate _) (le_refl _) metered.taken metered.granted

theorem takenBy_update {call : ℕ} (metered : Metered config limiter) (idle : Call.due (limiter.calls call) = []) (outcome : Option Call)
    (due : Call.due outcome = []) (other : ℕ) : limiter.takenBy other = Call.due (Function.update limiter.calls call outcome other) := by
  rw [metered.taken other]
  by_cases same : other = call
  · rw [same, Function.update_self, due, idle]
  · rw [Function.update_of_ne same]

theorem consumes {bucket : TokenBucket} {grants : List Grant} {tokens : ℕ} {looked now : ℚ}
    (accounts : Accounts (bucket.refill looked) grants) (none : (bucket.waitTime tokens looked).2 ≤ 0) (later : looked ≤ now) :
    (tokens : ℚ) ≤ ((bucket.refill looked).refill now).tokens := by
  have enough : (tokens : ℚ) ≤ (bucket.refill looked).tokens := by
    by_contra short
    have positive : 0 < (tokens - (bucket.refill looked).tokens) / (bucket.refill looked).refillRate :=
      div_pos (sub_pos.2 (not_le.1 short)) accounts.rate
    simp only [TokenBucket.waitTime, if_neg short] at none
    exact absurd none (not_le.2 positive)
  have earned : 0 ≤ (now - looked) * (bucket.refill looked).refillRate := mul_nonneg (sub_nonneg.2 later) accounts.rate.le
  have kept : (bucket.refill looked).tokens ≤ ((bucket.refill looked).refill now).tokens :=
    le_min accounts.full (le_add_of_nonneg_right earned)
  exact enough.trans kept

theorem tryAcquire (metered : Metered config limiter) {call : ℕ} (idle : Call.due (limiter.calls call) = [])
    (tokens : ℕ) (totalWaited : ℚ) (delays : Delays) : Metered config (limiter.tryAcquire config call tokens totalWaited delays) := by
  have accounts := metered.refilled delays
  unfold RateLimiter.tryAcquire
  by_cases none : ((limiter.getBucket config (limiter.clock + delays.made)).waitTime tokens
      (limiter.clock + delays.made + delays.looked)).2 ≤ 0
  · have after := later delays.consumed (limiter.clock + delays.made + delays.looked)
    have enough := consumes accounts none after
    simp only [if_pos none, TokenBucket.waitTime_bucket, TokenBucket.consume, if_pos enough]
    have granted := @Accounts.grant _ _ (accounts.refill after) call tokens enough
    apply of_bucket rfl granted
    · exact metered.capacity _
    · exact metered.rate _
    · exact le_refl _
    · intro other
      have before := metered.taken other
      by_cases same : other = call
      · subst same
        rw [idle] at before
        simpa [RateLimiter.takenBy, Call.due] using before
      · have differs : call ≠ other := fun equal => same equal.symm
        simp only [RateLimiter.takenBy, if_true, Function.update_of_ne same] at before ⊢
        rw [← before, List.filter_cons_of_neg (by simpa using differs)]
    · simp only [if_true, List.map_cons, metered.granted]
  · simp only [if_neg none, TokenBucket.waitTime_bucket]
    exact of_bucket rfl accounts (metered.capacity _) (metered.rate _) (le_refl _)
      (metered.takenBy_update idle _ rfl) metered.granted

theorem cancel (metered : Metered config limiter) {call tokens : ℕ} (idle : Call.due (limiter.calls call) = []) :
    Metered config { limiter with calls := Function.update limiter.calls call (some (.cancelled tokens)) } where
  accounts := metered.accounts
  capacity := metered.capacity
  rate := metered.rate
  clock := metered.clock
  taken := metered.takenBy_update idle _ rfl
  granted := metered.granted

theorem step (metered : Metered config limiter) (event : Event) : Metered config (limiter.step config event) := by
  cases event with
  | acquire call tokens delays =>
    simp only [RateLimiter.step]
    cases known : limiter.calls call with
    | none => exact metered.tryAcquire (by rw [known]; rfl) tokens 0 delays
    | some _ => exact metered
  | wake call delays =>
    simp only [RateLimiter.step]
    split
    · next tokens totalWaited waitTime known =>
      exact metered.tryAcquire (by rw [known]; rfl) tokens (totalWaited + waitTime) delays
    · exact metered
  | cancel call =>
    simp only [RateLimiter.step]
    split
    · next tokens totalWaited waitTime known => exact metered.cancel (by rw [known]; rfl)
    · exact metered
  | check tokens delays => exact metered.check tokens delays

theorem run (config : RateLimitConfig) (start : ℚ) (events : List Event) :
    Metered config (run (RateLimiter.step config) { clock := start } events) :=
  invariant_all (fun _ event metered => metered.step event) (fresh config start) events

theorem bounded (metered : Metered config limiter) {bucket : TokenBucket} (there : limiter.bucket = some bucket) :
    0 ≤ bucket.tokens ∧ bucket.tokens ≤ config.capacity := by
  have same : limiter.getBucket config limiter.clock = bucket := by rw [RateLimiter.getBucket, there, Option.getD_some]
  have accounts := metered.accounts limiter.clock (le_refl _)
  have capacity := metered.capacity limiter.clock
  rw [same] at accounts capacity
  exact ⟨accounts.nonneg, capacity ▸ accounts.full⟩

end Metered

/-- No window of time sees more tokens granted than the capacity and what is refilled in it; every call that
returned has consumed its tokens once and no other call has consumed any. -/
theorem grants_within_rate (config : RateLimitConfig) (start : ℚ) (events : List Event) :
    let limiter := run (RateLimiter.step config) { clock := start } events
    (∀ first last, first ≤ last →
      (grantedIn first last limiter.grants : ℚ) ≤ config.capacity + config.refillRate * (last - first)) ∧
    (∀ bucket, limiter.bucket = some bucket → 0 ≤ bucket.tokens ∧ bucket.tokens ≤ config.capacity) ∧
    (∀ call, limiter.takenBy call = Call.due (limiter.calls call)) ∧
    limiter.taken = limiter.grants.map fun grant => (grant.call, grant.tokens) := by
  intro limiter
  have metered : Metered config limiter := Metered.run config start events
  have accounts := metered.accounts limiter.clock (le_refl _)
  constructor
  · intro first last ordered
    have bound := accounts.window first last ordered
    rwa [metered.capacity, metered.rate] at bound
  · exact ⟨fun _ there => metered.bounded there, metered.taken, metered.granted⟩

/-- Two tasks at an endpoint with a burst of three: the second waits, a third call is cancelled. -/
theorem positions_grants_within_rate :
    let events := [Event.acquire 0 2 {}, .acquire 1 2 {}, .acquire 2 3 {}, .cancel 2, .check 1 {}, .wake 1 ⟨0, 1, 0⟩]
    let limiter := run (RateLimiter.step (configFor "data_positions")) { clock := 5 } events
    grantedIn 5 6 limiter.grants = 4 ∧ (4 : ℚ) ≤ 3 + 3 * (6 - 5) ∧ limiter.takenBy 2 = [] ∧ limiter.takenBy 1 = [2] := by
  have bound := (grants_within_rate (configFor "data_positions") 5
    [.acquire 0 2 {}, .acquire 1 2 {}, .acquire 2 3 {}, .cancel 2, .check 1 {}, .wake 1 ⟨0, 1, 0⟩]).1 5 6 (by norm_num)
  have granted : grantedIn 5 6 (run (RateLimiter.step (configFor "data_positions")) { clock := 5 }
    [.acquire 0 2 {}, .acquire 1 2 {}, .acquire 2 3 {}, .cancel 2, .check 1 {}, .wake 1 ⟨0, 1, 0⟩]).grants = 4 := by decide +kernel
  have capacity : (configFor "data_positions").capacity = 3 := by decide +kernel
  have rate : (configFor "data_positions").refillRate = 3 := by decide +kernel
  rw [granted, capacity, rate] at bound
  exact ⟨granted, bound, by decide +kernel, by decide +kernel⟩

end Callisto.Limits

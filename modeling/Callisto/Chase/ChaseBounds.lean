import Mathlib.Algebra.BigOperators.Group.List.Basic
import Mathlib.Algebra.Order.Ring.Star
import Mathlib.Data.Rat.Star
import Callisto.Chase.PriceChaser

/-! What a chase sends to the venue, and at which prices. -/

namespace Callisto.Chase

open Callisto.Library Callisto.Library.Runs Callisto.Library.Decimals

def roundingError : ℚ := 1 / 20000

theorem clamp_range (price : ℚ) : 1 / 100 ≤ clamp price ∧ clamp price ≤ 99 / 100 :=
  ⟨le_max_left _ _, max_le (by norm_num) (min_le_left _ _)⟩

theorem clamp_mono {first second : ℚ} (le : first ≤ second) : clamp first ≤ clamp second :=
  max_le_max_left _ (min_le_min_left _ le)

theorem clamp_of_range {price : ℚ} (low : 1 / 100 ≤ price) (high : price ≤ 99 / 100) : clamp price = price := by
  rw [clamp, min_eq_right high, max_eq_right low]

theorem roundTo_clamp_range (price : ℚ) : 1 / 100 ≤ roundTo 4 (clamp price) ∧ roundTo 4 (clamp price) ≤ 99 / 100 := by
  have range := clamp_range price
  have lowest : roundTo 4 (1 / 100) = 1 / 100 := @roundTo_of_scaled 4 (1 / 100) 100 (by norm_num)
  have highest : roundTo 4 (99 / 100) = 99 / 100 := @roundTo_of_scaled 4 (99 / 100) 9900 (by norm_num)
  constructor
  · calc
      (1 / 100 : ℚ) = roundTo 4 (1 / 100) := lowest.symm
      _ ≤ _ := roundTo_mono 4 range.1
  · calc
      _ ≤ roundTo 4 (99 / 100) := roundTo_mono 4 range.2
      _ = _ := highest

theorem roundTo_near (price : ℚ) : price - roundingError ≤ roundTo 4 price ∧ roundTo 4 price ≤ price + roundingError := by
  have close := roundTo_close 4 price
  unfold roundingError
  norm_num at close ⊢
  exact close

section
variable {config : PriceChaseConfig} {originalPrice : ℚ}

theorem rawAdjustment_nonneg (positive : 0 ≤ originalPrice) (attempt : ℕ) : 0 ≤ rawAdjustment config originalPrice attempt := by
  have steps : (0 : ℚ) ≤ (if config.chaseOnFirstRetry then attempt else attempt - 1 : ℕ) * config.priceIncrementPerRetry :=
    mul_nonneg (Nat.cast_nonneg _) config.increment_nonneg
  have slippage : 0 ≤ originalPrice * (config.maxSlippagePercent / 100) :=
    mul_nonneg positive (div_nonneg config.slippage_nonneg (by norm_num))
  exact le_min (le_min steps config.total_nonneg) slippage

theorem rawAdjustment_mono {first second : ℕ} (le : first ≤ second) :
    rawAdjustment config originalPrice first ≤ rawAdjustment config originalPrice second := by
  have fewer : (if config.chaseOnFirstRetry then first else first - 1) ≤ if config.chaseOnFirstRetry then second else second - 1 := by
    split_ifs <;> omega
  have steps : ((if config.chaseOnFirstRetry then first else first - 1 : ℕ) : ℚ) * config.priceIncrementPerRetry ≤
      (if config.chaseOnFirstRetry then second else second - 1 : ℕ) * config.priceIncrementPerRetry :=
    mul_le_mul_of_nonneg_right (Nat.cast_le.2 fewer) config.increment_nonneg
  exact min_le_min_right _ (min_le_min_right _ steps)

def chasePrice (config : PriceChaseConfig) (originalPrice : ℚ) (side : Side) (attempt : ℕ) : ℚ :=
  (calculateChasePrice config originalPrice side attempt).1

theorem chasePrice_zero (side : Side) : chasePrice config originalPrice side 0 = clamp originalPrice := by
  simp [chasePrice, calculateChasePrice]

theorem chasePrice_buy {attempt : ℕ} (retry : attempt ≠ 0) :
    chasePrice config originalPrice .buy attempt = roundTo 4 (clamp (originalPrice + rawAdjustment config originalPrice attempt)) := by
  simp [chasePrice, calculateChasePrice, retry]

theorem chasePrice_sell {attempt : ℕ} (retry : attempt ≠ 0) :
    chasePrice config originalPrice .sell attempt = roundTo 4 (clamp (originalPrice - rawAdjustment config originalPrice attempt)) := by
  simp [chasePrice, calculateChasePrice, retry]

theorem chasePrice_range (side : Side) (attempt : ℕ) :
    1 / 100 ≤ chasePrice config originalPrice side attempt ∧ chasePrice config originalPrice side attempt ≤ 99 / 100 := by
  by_cases first : attempt = 0
  · rw [first, chasePrice_zero]
    exact clamp_range originalPrice
  · cases side with
    | buy =>
      rw [chasePrice_buy first]
      exact roundTo_clamp_range _
    | sell =>
      rw [chasePrice_sell first]
      exact roundTo_clamp_range _

variable (low : 1 / 100 ≤ originalPrice)
include low

theorem chasePrice_buy_mono {first second : ℕ} (before : first < second) :
    chasePrice config originalPrice .buy first ≤ chasePrice config originalPrice .buy second + roundingError := by
  have retry : second ≠ 0 := by omega
  have error : 0 ≤ roundingError := by norm_num [roundingError]
  have adjusted := @rawAdjustment_nonneg config originalPrice (by linarith) second
  by_cases start : first = 0
  · have near := roundTo_near (clamp (originalPrice + rawAdjustment config originalPrice second))
    have raised : clamp originalPrice ≤ clamp (originalPrice + rawAdjustment config originalPrice second) := clamp_mono (by linarith)
    rw [start, chasePrice_zero, chasePrice_buy retry]
    linarith
  · have more := @rawAdjustment_mono config originalPrice _ _ before.le
    have ordered : roundTo 4 (clamp (originalPrice + rawAdjustment config originalPrice first)) ≤
        roundTo 4 (clamp (originalPrice + rawAdjustment config originalPrice second)) := roundTo_mono 4 (clamp_mono (by linarith))
    rw [chasePrice_buy start, chasePrice_buy retry]
    linarith

theorem chasePrice_sell_mono {first second : ℕ} (before : first < second) :
    chasePrice config originalPrice .sell second ≤ chasePrice config originalPrice .sell first + roundingError := by
  have retry : second ≠ 0 := by omega
  have error : 0 ≤ roundingError := by norm_num [roundingError]
  have adjusted := @rawAdjustment_nonneg config originalPrice (by linarith) second
  by_cases start : first = 0
  · have near := roundTo_near (clamp (originalPrice - rawAdjustment config originalPrice second))
    have lowered : clamp (originalPrice - rawAdjustment config originalPrice second) ≤ clamp originalPrice := clamp_mono (by linarith)
    rw [start, chasePrice_zero, chasePrice_sell retry]
    linarith
  · have more := @rawAdjustment_mono config originalPrice _ _ before.le
    have ordered : roundTo 4 (clamp (originalPrice - rawAdjustment config originalPrice second)) ≤
        roundTo 4 (clamp (originalPrice - rawAdjustment config originalPrice first)) := roundTo_mono 4 (clamp_mono (by linarith))
    rw [chasePrice_sell start, chasePrice_sell retry]
    linarith

variable (high : originalPrice ≤ 99 / 100)
include high

theorem chasePrice_buy_le (attempt : ℕ) :
    chasePrice config originalPrice .buy attempt ≤ originalPrice * (1 + config.maxSlippagePercent / 100) + roundingError ∧
      chasePrice config originalPrice .buy attempt ≤ originalPrice + config.maxTotalChase + roundingError := by
  have error : 0 ≤ roundingError := by norm_num [roundingError]
  have total : rawAdjustment config originalPrice attempt ≤ config.maxTotalChase := (min_le_left _ _).trans (min_le_right _ _)
  have slippage : rawAdjustment config originalPrice attempt ≤ originalPrice * (config.maxSlippagePercent / 100) := min_le_right _ _
  have adjusted := @rawAdjustment_nonneg config originalPrice (by linarith) attempt
  have paid : chasePrice config originalPrice .buy attempt ≤ originalPrice + rawAdjustment config originalPrice attempt + roundingError := by
    by_cases start : attempt = 0
    · rw [start] at adjusted ⊢
      rw [chasePrice_zero, clamp_of_range low high]
      linarith
    · have near := roundTo_near (clamp (originalPrice + rawAdjustment config originalPrice attempt))
      have capped : clamp (originalPrice + rawAdjustment config originalPrice attempt) ≤
          originalPrice + rawAdjustment config originalPrice attempt := max_le (by linarith) (min_le_right _ _)
      rw [chasePrice_buy start]
      linarith
  constructor <;> linarith

theorem chasePrice_sell_ge (attempt : ℕ) :
    originalPrice * (1 - config.maxSlippagePercent / 100) - roundingError ≤ chasePrice config originalPrice .sell attempt ∧
      originalPrice - config.maxTotalChase - roundingError ≤ chasePrice config originalPrice .sell attempt := by
  have error : 0 ≤ roundingError := by norm_num [roundingError]
  have total : rawAdjustment config originalPrice attempt ≤ config.maxTotalChase := (min_le_left _ _).trans (min_le_right _ _)
  have slippage : rawAdjustment config originalPrice attempt ≤ originalPrice * (config.maxSlippagePercent / 100) := min_le_right _ _
  have adjusted := @rawAdjustment_nonneg config originalPrice (by linarith) attempt
  have got : originalPrice - rawAdjustment config originalPrice attempt - roundingError ≤ chasePrice config originalPrice .sell attempt := by
    by_cases start : attempt = 0
    · rw [start] at adjusted ⊢
      rw [chasePrice_zero, clamp_of_range low high]
      linarith
    · have near := roundTo_near (clamp (originalPrice - rawAdjustment config originalPrice attempt))
      have kept : originalPrice - rawAdjustment config originalPrice attempt ≤
          clamp (originalPrice - rawAdjustment config originalPrice attempt) := le_max_of_le_right (le_min (by linarith) (le_refl _))
      rw [chasePrice_sell start]
      linarith
  constructor <;> linarith

end

/-- The quantity filled and the quantity that still rests, over all orders of the chase. -/
def ChaseRun.live (chase : ChaseRun) : ℚ := (chase.orders.map VenueOrder.live).sum

def Chased (config : PriceChaseConfig) (originalPrice : ℚ) (attempts : List RetryAttempt) : Side → Prop
  | .buy => attempts.Pairwise (fun earlier later => earlier.adjustedPrice ≤ later.adjustedPrice + roundingError) ∧
      ∀ attempt ∈ attempts, attempt.adjustedPrice ≤ originalPrice * (1 + config.maxSlippagePercent / 100) + roundingError ∧
        attempt.adjustedPrice ≤ originalPrice + config.maxTotalChase + roundingError
  | .sell => attempts.Pairwise (fun earlier later => later.adjustedPrice ≤ earlier.adjustedPrice + roundingError) ∧
      ∀ attempt ∈ attempts, originalPrice * (1 - config.maxSlippagePercent / 100) - roundingError ≤ attempt.adjustedPrice ∧
        originalPrice - config.maxTotalChase - roundingError ≤ attempt.adjustedPrice

/-- What a chase for `size` should keep to. -/
structure Kept (config : PriceChaseConfig) (side : Side) (originalPrice size : ℚ) (chase : ChaseRun) : Prop where
  exposure : chase.live ≤ size
  reported : chase.totalFilled = (chase.attempts.map RetryAttempt.fillSize).sum
  filled : chase.totalFilled ≤ size
  ranged : ∀ attempt ∈ chase.attempts, 1 / 100 ≤ attempt.adjustedPrice ∧ attempt.adjustedPrice ≤ 99 / 100
  chased : Chased config originalPrice chase.attempts side

structure LoopSound (config : PriceChaseConfig) (side : Side) (originalPrice size : ℚ) (chase : ChaseRun) : Prop where
  remaining : 0 ≤ chase.remainingSize
  reported : chase.totalFilled = (chase.attempts.map RetryAttempt.fillSize).sum
  budget : chase.totalFilled + chase.remainingSize ≤ size
  whole : chase.ended = false → chase.totalFilled + chase.remainingSize = size
  count : chase.attempts.length = chase.attempt
  prices : chase.attempts.map RetryAttempt.adjustedPrice = (List.range chase.attempt).map (chasePrice config originalPrice side)

/-- What an order has filled, or may still fill, is at most what its attempt was reported to fill. -/
def Reported (order : VenueOrder) (attempt : RetryAttempt) : Prop := order.filled + order.resting ≤ attempt.fillSize

instance (order : VenueOrder) (attempt : RetryAttempt) : Decidable (Reported order attempt) := inferInstanceAs (Decidable (_ ≤ _))

/-- An order is placed when the earlier ones have left nothing at the venue beyond their reports. -/
def Settled (chase : ChaseRun) : Event → Prop
  | .place _ => chase.ended = false → List.Forall₂ Reported chase.orders chase.attempts
  | _ => True

instance (chase : ChaseRun) : ∀ event, Decidable (Settled chase event)
  | .place _ => inferInstanceAs (Decidable (chase.ended = false → List.Forall₂ Reported chase.orders chase.attempts))
  | .fill _ _ => isTrue trivial
  | .lapse _ _ => isTrue trivial

section
variable {config : PriceChaseConfig} {side : Side} {originalPrice size : ℚ} {chase : ChaseRun}

theorem LoopSound.start (config : PriceChaseConfig) (side : Side) (originalPrice : ℚ) (positive : 0 ≤ size) :
    LoopSound config side originalPrice size { remainingSize := size } :=
  ⟨positive, rfl, by simp, fun _ => by simp, rfl, rfl⟩

theorem modify_live_le {orders : List VenueOrder} {change : VenueOrder → VenueOrder} (le : ∀ order, (change order).live ≤ order.live) (index : ℕ) :
    ((orders.modify index change).map VenueOrder.live).sum ≤ (orders.map VenueOrder.live).sum := by
  induction orders generalizing index with
  | nil => simp
  | cons order rest ih =>
    cases index with
    | zero =>
      have first := le order
      simp only [List.modify_zero_cons, List.map_cons, List.sum_cons]
      linarith
    | succ index =>
      have later := ih index
      simp only [List.modify_succ_cons, List.map_cons, List.sum_cons]
      linarith

theorem VenueOrder.fill_live (fillSize : ℚ) (order : VenueOrder) : (order.fill fillSize).live ≤ order.live := by
  unfold VenueOrder.fill VenueOrder.live
  split_ifs
  · simp
  · exact le_refl _

theorem VenueOrder.lapse_live (lapsed : ℚ) (order : VenueOrder) : (order.lapse lapsed).live ≤ order.live := by
  unfold VenueOrder.lapse VenueOrder.live
  split_ifs with within
  · simp only
    linarith [within.1]
  · exact le_refl _

variable (sound : LoopSound config side originalPrice size chase)
include sound

theorem LoopSound.place (running : chase.ended = false) {placement : Placement}
    (within : placement.Within chase.remainingSize) :
    LoopSound config side originalPrice size (chase.place config side originalPrice placement) := by
  obtain ⟨-, -, -, reported, sent⟩ := within
  have rest : max (chase.remainingSize - placement.result.2) 0 = chase.remainingSize - placement.result.2 :=
    max_eq_left (sub_nonneg.2 sent)
  have budget := sound.budget
  constructor
  · unfold ChaseRun.place
    simp only [rest]
    split_ifs
    · exact le_refl _
    · exact sub_nonneg.2 sent
  · simp [ChaseRun.place, sound.reported]
  · unfold ChaseRun.place
    simp only [rest]
    split_ifs <;> linarith [sound.remaining]
  · intro goes
    have nodust : ¬ chase.remainingSize - placement.result.2 ≤ dustThreshold := by
      intro dust
      simp [ChaseRun.place, rest, dust] at goes
    have whole := sound.whole running
    unfold ChaseRun.place
    simp only [rest, if_neg nodust]
    linarith
  · simp [ChaseRun.place, sound.count]
  · simp [ChaseRun.place, sound.prices, List.range_succ, chasePrice]

theorem LoopSound.step (event : Event) :
    LoopSound config side originalPrice size (step config side originalPrice chase event) := by
  cases event with
  | place placement =>
    by_cases admitted : chase.ended = false ∧ placement.Within chase.remainingSize
    · simp only [Chase.step, if_pos admitted]
      exact sound.place admitted.1 admitted.2
    · simp only [Chase.step, if_neg admitted]
      exact sound
  | fill index fillSize => exact ⟨sound.remaining, sound.reported, sound.budget, sound.whole, sound.count, sound.prices⟩
  | lapse index lapsed => exact ⟨sound.remaining, sound.reported, sound.budget, sound.whole, sound.count, sound.prices⟩

theorem LoopSound.pairwise {ordered : ℚ → ℚ → Prop}
    (prices : ∀ first second, first < second → ordered (chasePrice config originalPrice side first) (chasePrice config originalPrice side second)) :
    chase.attempts.Pairwise fun earlier later => ordered earlier.adjustedPrice later.adjustedPrice := by
  rw [← List.pairwise_map, sound.prices, List.pairwise_map]
  exact List.pairwise_lt_range.imp fun before => prices _ _ before

theorem LoopSound.forall_price {good : ℚ → Prop}
    (prices : ∀ attempt, good (chasePrice config originalPrice side attempt)) : ∀ attempt ∈ chase.attempts, good attempt.adjustedPrice := by
  intro attempt member
  have among : attempt.adjustedPrice ∈ chase.attempts.map RetryAttempt.adjustedPrice := List.mem_map_of_mem member
  rw [sound.prices] at among
  obtain ⟨number, -, same⟩ := List.mem_map.1 among
  exact same ▸ prices number

/-- All that a chase should keep to but for the exposure, the loop keeps in any case. -/
theorem LoopSound.kept_iff (low : 1 / 100 ≤ originalPrice)
    (high : originalPrice ≤ 99 / 100) : Kept config side originalPrice size chase ↔ chase.live ≤ size := by
  constructor
  · exact Kept.exposure
  · intro exposure
    have filled : chase.totalFilled ≤ size := by linarith [sound.remaining, sound.budget]
    have chased : Chased config originalPrice chase.attempts side := by
      cases side with
      | buy =>
        exact ⟨@LoopSound.pairwise _ _ _ _ _ sound (fun earlier later => earlier ≤ later + roundingError)
            (fun _ _ before => chasePrice_buy_mono low before),
          @LoopSound.forall_price _ _ _ _ _ sound
            (fun price => price ≤ originalPrice * (1 + config.maxSlippagePercent / 100) + roundingError ∧
              price ≤ originalPrice + config.maxTotalChase + roundingError) (chasePrice_buy_le low high)⟩
      | sell =>
        exact ⟨@LoopSound.pairwise _ _ _ _ _ sound (fun earlier later => later ≤ earlier + roundingError)
            (fun _ _ before => chasePrice_sell_mono low before),
          @LoopSound.forall_price _ _ _ _ _ sound
            (fun price => originalPrice * (1 - config.maxSlippagePercent / 100) - roundingError ≤ price ∧
              originalPrice - config.maxTotalChase - roundingError ≤ price) (chasePrice_sell_ge low high)⟩
    exact ⟨exposure, sound.reported, filled,
      @LoopSound.forall_price _ _ _ _ _ sound (fun price => 1 / 100 ≤ price ∧ price ≤ 99 / 100) (chasePrice_range side), chased⟩

theorem live_le_reported (settled : List.Forall₂ Reported chase.orders chase.attempts) : chase.live ≤ chase.totalFilled := by
  rw [sound.reported]
  refine List.Forall₂.sum_le_sum ?_
  rw [List.forall₂_map_left_iff, List.forall₂_map_right_iff]
  exact settled

theorem step_live (kept : chase.live ≤ size) {event : Event}
    (settled : Settled chase event) : (Chase.step config side originalPrice chase event).live ≤ size := by
  cases event with
  | place placement =>
    by_cases admitted : chase.ended = false ∧ placement.Within chase.remainingSize
    · have whole := sound.whole admitted.1
      have earlier := live_le_reported sound (settled admitted.1)
      have sent := admitted.2.2.2.1
      have grown : (chase.place config side originalPrice placement).live = chase.live + (placement.filledNow + placement.rests) := by
        simp [ChaseRun.live, ChaseRun.place, VenueOrder.live]
      rw [Chase.step, if_pos admitted, grown]
      linarith
    · rw [Chase.step, if_neg admitted]
      exact kept
  | fill index fillSize => exact (modify_live_le (VenueOrder.fill_live fillSize) index).trans kept
  | lapse index lapsed => exact (modify_live_le (VenueOrder.lapse_live lapsed) index).trans kept

end

/-- A chase whose orders are placed with nothing left of the earlier ones keeps to its size and prices throughout. -/
theorem chase_kept (config : PriceChaseConfig) (side : Side) {originalPrice size : ℚ} (low : 1 / 100 ≤ originalPrice)
    (high : originalPrice ≤ 99 / 100) (positive : 0 ≤ size) (events : List Event)
    (settled : Meets (step config side originalPrice) Settled { remainingSize := size } events) :
    Always (step config side originalPrice) (Kept config side originalPrice size) { remainingSize := size } events := by
  have keeps : ∀ chase event, LoopSound config side originalPrice size chase ∧ chase.live ≤ size → Settled chase event →
      LoopSound config side originalPrice size (step config side originalPrice chase event) ∧
        (step config side originalPrice chase event).live ≤ size :=
    fun chase event held settled => ⟨held.1.step event, step_live held.1 held.2 settled⟩
  have start := LoopSound.start config side originalPrice positive
  have always := always_of_meets keeps ⟨start, by simpa [ChaseRun.live] using positive⟩ settled
  intro first isPrefix
  obtain ⟨sound, live⟩ := always first isPrefix
  exact (sound.kept_iff low high).2 live

/-- The order for ten rests, and another one for ten is placed beside it. -/
theorem chase_not_kept :
    ¬ ∀ (config : PriceChaseConfig) (side : Side) (originalPrice size : ℚ), 1 / 100 ≤ originalPrice → originalPrice ≤ 99 / 100 → 0 ≤ size →
      ∀ events, Always (step config side originalPrice) (Kept config side originalPrice size) { remainingSize := size } events := by
  intro all
  have kept := all {} .buy (1 / 2) 10 (by norm_num) (by norm_num) (by norm_num)
    [.place ⟨0, 10, some ("open", 0)⟩, .place ⟨0, 10, some ("open", 0)⟩] _ (List.prefix_refl _)
  have live : (run (step {} .buy (1 / 2)) { remainingSize := 10 }
      [.place ⟨0, 10, some ("open", 0)⟩, .place ⟨0, 10, some ("open", 0)⟩]).live = 20 := by decide +kernel
  have exposure := kept.exposure
  rw [live] at exposure
  exact absurd exposure (by norm_num)

def centChase : PriceChaseConfig where
  maxRetries := 2
  priceIncrementPerRetry := 1 / 100
  maxTotalChase := 3 / 100
  finalRetryOrderType := "GTD"
  finalRetryGtdSeconds := 61
  maxSlippagePercent := 5
  chaseOnFirstRetry := true
  increment_nonneg := by norm_num
  total_nonneg := by norm_num
  slippage_nonneg := by norm_num

/-- Four of ten shares are filled, and the rest lapses before the retry for six; a call that raises leaves nothing behind, and the last
order is filled while it rests. -/
def centRun : List Event :=
  [.place ⟨4, 6, some ("partial", 4)⟩, .lapse 0 6, .place ⟨0, 0, none⟩, .place ⟨1, 5, some ("open", 1)⟩, .fill 2 5]

theorem chase_kept_cent : Always (step centChase .buy (1 / 2)) (Kept centChase .buy (1 / 2) 10) { remainingSize := 10 } centRun :=
  chase_kept centChase .buy (by norm_num) (by norm_num) (by norm_num) centRun (by decide +kernel)

end Callisto.Chase

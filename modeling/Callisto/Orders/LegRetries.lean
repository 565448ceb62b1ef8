import Callisto.Library.Dialogue
import Callisto.Orders.DailySpend
import Callisto.Ws.Payload

/-! The calls of the venue's `place_order` that one live leg makes: the adapter's post-only reprice, the retries, and the fallback token. -/

namespace Callisto.Orders

open Callisto.Library
open Callisto.Ws (strip)

inductive OrderSide where
  | buy
  | sell
  deriving DecidableEq

/-- `OrderStatus` of the live execution service. -/
inductive OrderStatus where
  | pending
  | open_
  | filled
  | partiallyFilled
  | cancelled
  | expired
  | failed
  deriving DecidableEq

/-- `_map_trading_status` -/
def mapTradingStatus : OrderStatus → ExecutionStatus
  | .filled => .executed
  | .open_ | .partiallyFilled => .open_
  | .pending => .submitted
  | .cancelled | .expired | .failed => .failed

/-- `_POST_ONLY_REPRICE_TICK` -/
def postOnlyRepriceTick : ℚ := 1 / 100

def priceTolerance : ℚ := 1 / 1000000000

def clampBinaryPrice (value : ℚ) : ℚ := max postOnlyRepriceTick (min (99 / 100) value)

/-- `str.lower`, the service's test of a message for an authentication failure, and the rendering of a price with four digits. -/
structure TextOps where
  lower : String → String
  isAuthFailureMessage : String → Bool
  price4 : ℚ → String

def plainOps : TextOps := ⟨id, fun _ => false, fun _ => ""⟩

/-- `part in text` -/
def contains (part text : String) : Bool := decide (part.toList <:+: text.toList)

/-- `str.strip(" |")` -/
def stripBars (text : String) : String :=
  let bar := fun char => char = ' ' || char = '|'
  String.ofList ((text.toList.dropWhile bar).reverse.dropWhile bar).reverse

/-- The arguments of one call of `place_order` that differ between the calls of a leg. -/
structure Placement where
  tokenId : String
  price : ℚ
  size : ℚ

/-- What the caller sees of a call: an exception with its text, or an order with its status and error text. -/
inductive PlaceReport where
  | raised (message : String)
  | returned (status : OrderStatus) (errorMessage : Option String)

/-- How far `execute_live_order` comes before it places: it stops with a submission and a text, or has a price. -/
inductive Preparation where
  | stopped (submission errorMessage : String)
  | resolved (price : ℚ)

structure LiveOrderExecution where
  status : ExecutionStatus
  errorMessage : Option String
  submission : String

/-- A live leg as it is submitted: the size before the minimum, its token and the lookup that finds another one, the policy, and how each of its
calls of `execute_live_order` is prepared. -/
structure LegOrder where
  requestedShares : ℚ
  tokenId : String
  marketId : String
  outcome : String
  fetchedTokenId : Option String
  side : OrderSide
  postOnly : Bool
  retryLimit : Option ℤ
  prepare : ℕ → Preparation

namespace LegOrder

def shares (leg : LegOrder) : ℚ := liveShares leg.requestedShares

/-- The retries that are allowed; an absent or unreadable limit allows none. -/
def retries (leg : LegOrder) : ℕ := (max 0 (min 50 (leg.retryLimit.getD 0))).toNat

abbrev Venue := Dialogue Placement PlaceReport

variable (ops : TextOps)

/-- `_is_post_only_cross_reject` -/
def isPostOnlyCrossReject (errorMessage : Option String) : Bool :=
  let text := ops.lower (strip (errorMessage.getD ""))
  contains "post-only" text && contains "crosses book" text

def retryPrice (side : OrderSide) (price : ℚ) : ℚ :=
  match side with
  | .buy => clampBinaryPrice (price - postOnlyRepriceTick)
  | .sell => clampBinaryPrice (price + postOnlyRepriceTick)

def exceptionExecution (message : String) : LiveOrderExecution :=
  ⟨.failed, some message, if ops.isAuthFailureMessage message then "auth_unavailable" else "exception"⟩

def orderExecution (status : OrderStatus) (errorMessage : Option String) : LiveOrderExecution :=
  ⟨mapTradingStatus status, if mapTradingStatus status = .failed then errorMessage else none, "live"⟩

def joinedError (first : Option String) (price : ℚ) (second : Option String) : Option String :=
  if second.getD "" = "" then first
  else some (stripBars (first.getD "" ++ " | post_only_retry_price=" ++ ops.price4 price ++ " failed: " ++ second.getD ""))

def normalizedPrice (resolved : ℚ) : ℚ := if priceTolerance ≤ |clampBinaryPrice resolved - resolved| then clampBinaryPrice resolved else resolved

/-- A post-only order that would cross is to be placed once more, one tick away. -/
def Reprices (postOnly : Bool) (side : OrderSide) (price : ℚ) (status : OrderStatus) (errorMessage : Option String) : Prop :=
  postOnly = true ∧ mapTradingStatus status = .failed ∧ isPostOnlyCrossReject ops errorMessage = true ∧
    priceTolerance ≤ |retryPrice side price - price|

instance (postOnly : Bool) (side : OrderSide) (price : ℚ) (status : OrderStatus) (errorMessage : Option String) :
    Decidable (Reprices ops postOnly side price status errorMessage) := inferInstanceAs (Decidable (_ ∧ _))

/-- What a repriced order is reported as, given the report of the first one. -/
def retryExecution (status : OrderStatus) (errorMessage : Option String) (price : ℚ) : PlaceReport → LiveOrderExecution
  | .raised message => exceptionExecution ops message
  | .returned retryStatus retryError =>
    if mapTradingStatus retryStatus ≠ .failed then orderExecution retryStatus retryError
    else orderExecution status (joinedError ops errorMessage price retryError)

def afterFirst (postOnly : Bool) (side : OrderSide) (size : ℚ) (tokenId : String) (price : ℚ) : PlaceReport → Venue LiveOrderExecution
  | .raised message => pure (exceptionExecution ops message)
  | .returned status errorMessage =>
    if Reprices ops postOnly side price status errorMessage then do
      let report ← Dialogue.send ⟨tokenId, retryPrice side price, size⟩
      pure (retryExecution ops status errorMessage (retryPrice side price) report)
    else pure (orderExecution status errorMessage)

/-- `execute_live_order` with its preparation. -/
def placeLive (postOnly : Bool) (side : OrderSide) (size : ℚ) (tokenId : String) : Preparation → Venue LiveOrderExecution
  | .stopped submission errorMessage => pure ⟨.failed, some errorMessage, submission⟩
  | .resolved resolved => do
    let report ← Dialogue.send ⟨tokenId, normalizedPrice resolved, size⟩
    afterFirst ops postOnly side size tokenId (normalizedPrice resolved) report

/-- `execute_live_order`, as the given call of the leg. -/
def executeLiveOrder (leg : LegOrder) (tokenId : String) (call : ℕ) : Venue LiveOrderExecution :=
  placeLive ops leg.postOnly leg.side leg.shares tokenId (leg.prepare call)

def isTransient (execution : LiveOrderExecution) : Bool := execution.status = .failed && execution.submission = "exception"

/-- The retry loop with the retries that are left; `call` counts the calls made. -/
def retryTransient (leg : LegOrder) : ℕ → ℕ → LiveOrderExecution → Venue (ℕ × LiveOrderExecution)
  | 0, call, execution => pure (call, execution)
  | left + 1, call, execution =>
    if isTransient execution then do
      let again ← leg.executeLiveOrder ops leg.tokenId call
      retryTransient leg left (call + 1) again
    else pure (call, execution)

/-- The token to try when the venue does not know the leg's order book. -/
def fallbackToken (leg : LegOrder) (execution : LiveOrderExecution) : Option String :=
  let text := ops.lower (execution.errorMessage.getD "")
  if execution.status = .failed && contains "orderbook" text && contains "does not exist" text && strip leg.marketId != "" &&
    strip leg.outcome != "" then
    leg.fetchedTokenId.filter fun tokenId => tokenId != "" && tokenId != leg.tokenId
  else none

def retryToken (leg : LegOrder) (call : ℕ) (execution : LiveOrderExecution) : Venue (String × LiveOrderExecution) :=
  match leg.fallbackToken ops execution with
  | none => pure (leg.tokenId, execution)
  | some tokenId => do
    let again ← leg.executeLiveOrder ops tokenId call
    if again.status ≠ .failed then pure (tokenId, again)
    else pure (leg.tokenId, { again with errorMessage := some (stripBars
      (again.errorMessage.getD "" ++ " | retry_token=" ++ tokenId ++ " failed: " ++ again.errorMessage.getD "")) })

/-- The execution part of `submit_execution_leg` for a live leg. -/
def submitLive (leg : LegOrder) : Venue (String × LiveOrderExecution) := do
  let first ← leg.executeLiveOrder ops leg.tokenId 0
  let (call, execution) ← leg.retryTransient ops leg.retries 1 first
  leg.retryToken ops call execution

end LegOrder

/-- One call's outcome at the venue: whether it accepted the order, and what the caller sees. -/
structure PlaceOutcome where
  accepted : Bool
  report : PlaceReport

/-- A leg between two calls of `place_order`, with the size that the venue has accepted for it. -/
structure LegProgress where
  dialogue : LegOrder.Venue (String × LiveOrderExecution)
  acceptedSize : ℚ

namespace LegProgress

def start (ops : TextOps) (leg : LegOrder) : LegProgress := ⟨leg.submitLive ops, 0⟩

def step (progress : LegProgress) (outcome : PlaceOutcome) : LegProgress :=
  match progress.dialogue.request? with
  | none => progress
  | some placement =>
    ⟨progress.dialogue.answer outcome.report, if outcome.accepted then progress.acceptedSize + placement.size else progress.acceptedSize⟩

/-- At most the leg's size is accepted, and once an order is accepted no other one is submitted. -/
def OneOrder (leg : LegOrder) (progress : LegProgress) : Prop :=
  progress.acceptedSize ≤ leg.shares ∧ (0 < progress.acceptedSize → progress.dialogue.request? = none)

end LegProgress

namespace LegOrder

variable {ops : TextOps}

theorem allAsk_placeLive {postOnly : Bool} {side : OrderSide} {size : ℚ} {tokenId : String} {preparation : Preparation} {good : Placement → Prop}
    (first : ∀ resolved, preparation = .resolved resolved → good ⟨tokenId, normalizedPrice resolved, size⟩)
    (again : ∀ resolved, preparation = .resolved resolved → good ⟨tokenId, retryPrice side (normalizedPrice resolved), size⟩) :
    (placeLive ops postOnly side size tokenId preparation).AllAsk good := by
  cases preparation with
  | stopped submission errorMessage => trivial
  | resolved resolved =>
    refine (Dialogue.allAsk_send (first resolved rfl)).bind fun report => ?_
    cases report with
    | raised message => trivial
    | returned status errorMessage =>
      unfold afterFirst
      by_cases reprices : Reprices ops postOnly side (normalizedPrice resolved) status errorMessage
      · simp only [if_pos reprices]
        exact (Dialogue.allAsk_send (again resolved rfl)).bind fun _ => trivial
      · simp only [if_neg reprices]
        trivial

theorem allAsk_executeLiveOrder (leg : LegOrder) (tokenId : String) (call : ℕ) :
    (leg.executeLiveOrder ops tokenId call).AllAsk fun placement => placement.size = leg.shares :=
  allAsk_placeLive (fun _ _ => rfl) fun _ _ => rfl

theorem allAsk_retryTransient (leg : LegOrder) (left call : ℕ) (execution : LiveOrderExecution) :
    (leg.retryTransient ops left call execution).AllAsk fun placement => placement.size = leg.shares := by
  induction left generalizing call execution with
  | zero => trivial
  | succ left ih =>
    unfold retryTransient
    by_cases transient : isTransient execution = true
    · rw [if_pos transient]
      exact (allAsk_executeLiveOrder leg leg.tokenId call).bind fun again => ih (call + 1) again
    · rw [if_neg transient]
      trivial

theorem allAsk_retryToken (leg : LegOrder) (call : ℕ) (execution : LiveOrderExecution) :
    (leg.retryToken ops call execution).AllAsk fun placement => placement.size = leg.shares := by
  unfold retryToken
  cases leg.fallbackToken ops execution with
  | none => trivial
  | some tokenId =>
    refine (allAsk_executeLiveOrder leg tokenId call).bind fun again => ?_
    by_cases failed : again.status ≠ .failed
    · simp only [if_pos failed]
      trivial
    · simp only [if_neg failed]
      trivial

theorem allAsk_submitLive (leg : LegOrder) : (leg.submitLive ops).AllAsk fun placement => placement.size = leg.shares :=
  (allAsk_executeLiveOrder leg leg.tokenId 0).bind fun first =>
    (allAsk_retryTransient leg leg.retries 1 first).bind fun retried => allAsk_retryToken leg retried.1 retried.2

theorem shares_pos (leg : LegOrder) : 0 < leg.shares := liveShares_pos leg.requestedShares

end LegOrder

namespace LegProgress

/-- The orders to come are of the leg's size, and what is accepted is not negative. -/
structure Sound (leg : LegOrder) (progress : LegProgress) : Prop where
  sized : progress.dialogue.AllAsk fun placement => placement.size = leg.shares
  nonneg : 0 ≤ progress.acceptedSize

theorem sound_step {leg : LegOrder} {progress : LegProgress} (sound : Sound leg progress) (outcome : PlaceOutcome) :
    Sound leg (progress.step outcome) := by
  unfold step
  cases waits : progress.dialogue.request? with
  | none => exact sound
  | some placement =>
    refine ⟨sound.sized.answer outcome.report, ?_⟩
    have size : placement.size = leg.shares := sound.sized.request waits
    have positive := leg.shares_pos
    have nonneg := sound.nonneg
    change 0 ≤ if outcome.accepted then progress.acceptedSize + placement.size else progress.acceptedSize
    split_ifs
    · linarith
    · exact nonneg

end LegProgress

/-- An order of a leg that waits for the venue's reply: its token and price, the calls of `execute_live_order` so far, the retries left,
whether the token is the one that the lookup found, and what the order was reported as that this one replaces one tick away. -/
structure LegPhase where
  tokenId : String
  price : ℚ
  calls : ℕ
  left : ℕ
  onFallback : Bool
  crossed : Option (OrderStatus × Option String)

namespace LegPhase

variable (ops : TextOps) (leg : LegOrder)

def execution (phase : LegPhase) (report : PlaceReport) : LiveOrderExecution :=
  match phase.crossed, report with
  | some (status, errorMessage), report => LegOrder.retryExecution ops status errorMessage phase.price report
  | none, .raised message => LegOrder.exceptionExecution ops message
  | none, .returned status errorMessage => LegOrder.orderExecution status errorMessage

/-- After a call of `execute_live_order` that ended so, with these retries left and so many calls made, the leg places another order:
a retry gets as far as placing, at once or after some that do not, or the lookup finds another token. -/
inductive Resubmits : ℕ → ℕ → LiveOrderExecution → Prop
  | retried {left call : ℕ} {execution : LiveOrderExecution} {price : ℚ} : LegOrder.isTransient execution = true →
      leg.prepare call = .resolved price → Resubmits (left + 1) call execution
  | unprepared {left call : ℕ} {execution : LiveOrderExecution} {submission errorMessage : String} :
      LegOrder.isTransient execution = true → leg.prepare call = .stopped submission errorMessage →
      Resubmits left (call + 1) ⟨.failed, some errorMessage, submission⟩ → Resubmits (left + 1) call execution
  | otherToken {left call : ℕ} {execution : LiveOrderExecution} {tokenId : String} {price : ℚ} :
      (left = 0 ∨ LegOrder.isTransient execution = false) → leg.fallbackToken ops execution = some tokenId →
      leg.prepare call = .resolved price → Resubmits left call execution

/-- The report of an order that makes its leg place another one: it crossed the book and its price can move, or its call is done and
another one follows. -/
inductive PlacesAgain (phase : LegPhase) : PlaceReport → Prop
  | oneTickAway {status : OrderStatus} {errorMessage : Option String} : phase.crossed = none →
      LegOrder.Reprices ops leg.postOnly leg.side phase.price status errorMessage → PlacesAgain phase (.returned status errorMessage)
  | resubmitted {report : PlaceReport} : phase.onFallback = false → Resubmits ops leg phase.left phase.calls (phase.execution ops report) →
      (∀ status errorMessage, report = .returned status errorMessage → phase.crossed = none →
        ¬ LegOrder.Reprices ops leg.postOnly leg.side phase.price status errorMessage) → PlacesAgain phase report

/-- The order with the token that the lookup finds, if it comes to one. -/
def onOtherToken (call : ℕ) (execution : LiveOrderExecution) : Option LegPhase :=
  (leg.fallbackToken ops execution).bind fun tokenId =>
    match leg.prepare call with
    | .stopped _ _ => none
    | .resolved resolved => some ⟨tokenId, LegOrder.normalizedPrice resolved, call + 1, 0, true, none⟩

def afterCall : ℕ → ℕ → LiveOrderExecution → Option LegPhase
  | 0, call, execution => onOtherToken ops leg call execution
  | left + 1, call, execution =>
    if LegOrder.isTransient execution then
      match leg.prepare call with
      | .resolved resolved => some ⟨leg.tokenId, LegOrder.normalizedPrice resolved, call + 1, left, false, none⟩
      | .stopped submission errorMessage => afterCall left (call + 1) ⟨.failed, some errorMessage, submission⟩
    else onOtherToken ops leg call execution

def after (phase : LegPhase) (execution : LiveOrderExecution) : Option LegPhase :=
  if phase.onFallback then none else afterCall ops leg phase.left phase.calls execution

def next (phase : LegPhase) (report : PlaceReport) : Option LegPhase :=
  match phase.crossed, report with
  | none, .returned status errorMessage =>
    if LegOrder.Reprices ops leg.postOnly leg.side phase.price status errorMessage then
      some { phase with price := LegOrder.retryPrice leg.side phase.price, crossed := some (status, errorMessage) }
    else phase.after ops leg (phase.execution ops (.returned status errorMessage))
  | _, report => phase.after ops leg (phase.execution ops report)

def first : Option LegPhase :=
  match leg.prepare 0 with
  | .resolved resolved => some ⟨leg.tokenId, LegOrder.normalizedPrice resolved, 1, leg.retries, false, none⟩
  | .stopped submission errorMessage => afterCall ops leg leg.retries 1 ⟨.failed, some errorMessage, submission⟩

def step (phase : Option LegPhase) (outcome : PlaceOutcome) : Option LegPhase := phase.bind fun waiting => waiting.next ops leg outcome.report

/-- An order that the venue accepts is not reported in a way that makes the leg place another one. -/
def EndsWhenAccepted (phase : Option LegPhase) (outcome : PlaceOutcome) : Prop :=
  ∀ waiting ∈ phase, outcome.accepted = true → ¬ PlacesAgain ops leg waiting outcome.report

end LegPhase

namespace LegPhase

variable {ops : TextOps} {leg : LegOrder}

theorem onOtherToken_isSome {call : ℕ} {execution : LiveOrderExecution} : (onOtherToken ops leg call execution).isSome ↔
    ∃ tokenId price, leg.fallbackToken ops execution = some tokenId ∧ leg.prepare call = .resolved price := by
  unfold onOtherToken
  cases leg.fallbackToken ops execution with
  | none => simp
  | some tokenId =>
    cases leg.prepare call with
    | stopped submission errorMessage => simp
    | resolved resolved => simp

theorem afterCall_isSome {left call : ℕ} {execution : LiveOrderExecution} :
    (afterCall ops leg left call execution).isSome ↔ Resubmits ops leg left call execution := by
  induction left generalizing call execution with
  | zero =>
    rw [afterCall, onOtherToken_isSome]
    constructor
    · rintro ⟨tokenId, price, found, prepared⟩
      exact .otherToken (Or.inl rfl) found prepared
    · intro again
      cases again with
      | otherToken _ found prepared => exact ⟨_, _, found, prepared⟩
  | succ left ih =>
    unfold afterCall
    by_cases transient : LegOrder.isTransient execution = true
    · rw [if_pos transient]
      cases prepared : leg.prepare call with
      | resolved resolved => exact iff_of_true rfl (.retried transient prepared)
      | stopped submission errorMessage =>
        dsimp only
        rw [ih]
        constructor
        · exact .unprepared transient prepared
        · intro again
          cases again with
          | retried _ other => exact nomatch prepared.symm.trans other
          | unprepared _ other later =>
            cases prepared.symm.trans other
            exact later
          | otherToken last found other => exact nomatch prepared.symm.trans other
    · rw [if_neg transient, onOtherToken_isSome]
      have ended : LegOrder.isTransient execution = false := by simpa using transient
      constructor
      · rintro ⟨tokenId, price, found, prepared⟩
        exact .otherToken (Or.inr ended) found prepared
      · intro again
        cases again with
        | retried goes _ => exact absurd goes transient
        | unprepared goes _ _ => exact absurd goes transient
        | otherToken _ found prepared => exact ⟨_, _, found, prepared⟩

theorem after_isSome {phase : LegPhase} {execution : LiveOrderExecution} : (phase.after ops leg execution).isSome ↔
    phase.onFallback = false ∧ Resubmits ops leg phase.left phase.calls execution := by
  unfold after
  cases phase.onFallback with
  | true => simp
  | false => simp [afterCall_isSome]

theorem next_isSome {phase : LegPhase} {report : PlaceReport} : (phase.next ops leg report).isSome ↔ PlacesAgain ops leg phase report := by
  unfold next
  split
  · next status errorMessage crossed =>
    by_cases reprices : LegOrder.Reprices ops leg.postOnly leg.side phase.price status errorMessage
    · rw [if_pos reprices]
      exact iff_of_true rfl (.oneTickAway crossed reprices)
    · rw [if_neg reprices, after_isSome]
      constructor
      · rintro ⟨own, again⟩
        exact .resubmitted own again fun _ _ same _ => by
          cases same
          exact reprices
      · intro again
        cases again with
        | oneTickAway _ goes => exact absurd goes reprices
        | resubmitted own again _ => exact ⟨own, again⟩
  · next other =>
    rw [after_isSome]
    constructor
    · rintro ⟨own, again⟩
      exact .resubmitted own again fun status errorMessage same crossed => absurd same (other status errorMessage crossed)
    · intro again
      cases again with
      | oneTickAway crossed _ => exact absurd rfl (other _ _ crossed)
      | resubmitted own again _ => exact ⟨own, again⟩

/-- The dialogue waits for the order, and goes on as the phases do. -/
inductive Follows (ops : TextOps) (leg : LegOrder) : Option LegPhase → LegOrder.Venue (String × LiveOrderExecution) → Prop
  | done (result : String × LiveOrderExecution) : Follows ops leg none (.done result)
  | waits {phase : LegPhase} {next : PlaceReport → LegOrder.Venue (String × LiveOrderExecution)} :
      (∀ report, Follows ops leg (phase.next ops leg report) (next report)) →
      Follows ops leg (some phase) (.ask ⟨phase.tokenId, phase.price, leg.shares⟩ next)

theorem follows_placeLive {phase : LegPhase} {resolved : ℚ} {rest : LiveOrderExecution → LegOrder.Venue (String × LiveOrderExecution)}
    (price : phase.price = LegOrder.normalizedPrice resolved) (fresh : phase.crossed = none)
    (goesOn : ∀ execution, Follows ops leg (phase.after ops leg execution) (rest execution)) :
    Follows ops leg (some phase) (LegOrder.placeLive ops leg.postOnly leg.side leg.shares phase.tokenId (.resolved resolved) >>= rest) := by
  obtain ⟨tokenId, placed, calls, left, onFallback, crossed⟩ := phase
  dsimp only at price fresh
  subst price fresh
  refine .waits fun report => ?_
  cases report with
  | raised message => exact goesOn (LegOrder.exceptionExecution ops message)
  | returned status errorMessage =>
    change Follows ops leg _ (LegOrder.afterFirst ops leg.postOnly leg.side leg.shares tokenId (LegOrder.normalizedPrice resolved)
      (.returned status errorMessage) >>= rest)
    unfold LegOrder.afterFirst
    by_cases reprices : LegOrder.Reprices ops leg.postOnly leg.side (LegOrder.normalizedPrice resolved) status errorMessage
    · simp only [next, if_pos reprices]
      exact .waits fun report => goesOn _
    · simp only [next, if_neg reprices]
      exact goesOn _

theorem follows_retryToken (call : ℕ) (execution : LiveOrderExecution) :
    Follows ops leg (onOtherToken ops leg call execution) (leg.retryToken ops call execution) := by
  unfold onOtherToken LegOrder.retryToken LegOrder.executeLiveOrder
  cases leg.fallbackToken ops execution with
  | none => exact .done _
  | some tokenId =>
    cases prepared : leg.prepare call with
    | stopped submission errorMessage =>
      simp only [Option.bind_some]
      exact .done _
    | resolved resolved =>
      simp only [Option.bind_some]
      refine follows_placeLive rfl rfl fun again => ?_
      by_cases failed : again.status ≠ .failed
      · simp only [if_pos failed]
        exact .done _
      · simp only [if_neg failed]
        exact .done _

theorem follows_retryTransient (left call : ℕ) (execution : LiveOrderExecution) : Follows ops leg (afterCall ops leg left call execution)
    (leg.retryTransient ops left call execution >>= fun retried => leg.retryToken ops retried.1 retried.2) := by
  induction left generalizing call execution with
  | zero => exact follows_retryToken call execution
  | succ left ih =>
    unfold afterCall LegOrder.retryTransient
    by_cases transient : LegOrder.isTransient execution = true
    · simp only [if_pos transient]
      unfold LegOrder.executeLiveOrder
      cases prepared : leg.prepare call with
      | resolved resolved =>
        rw [Dialogue.bind_assoc]
        exact follows_placeLive rfl rfl fun again => ih (call + 1) again
      | stopped submission errorMessage => exact ih (call + 1) _
    · simp only [if_neg transient]
      exact follows_retryToken call execution

theorem follows_submitLive (ops : TextOps) (leg : LegOrder) : Follows ops leg (first ops leg) (leg.submitLive ops) := by
  unfold first LegOrder.submitLive LegOrder.executeLiveOrder
  cases prepared : leg.prepare 0 with
  | resolved resolved => exact follows_placeLive rfl rfl fun execution => follows_retryTransient leg.retries 1 execution
  | stopped submission errorMessage => exact follows_retryTransient leg.retries 1 _

variable {phase : Option LegPhase} {progress : LegProgress}

theorem Follows.step (follows : Follows ops leg phase progress.dialogue) (outcome : PlaceOutcome) :
    Follows ops leg (step ops leg phase outcome) (progress.step outcome).dialogue := by
  obtain ⟨dialogue, acceptedSize⟩ := progress
  cases follows with
  | done result => exact .done result
  | waits later => exact later outcome.report

theorem Follows.request? (follows : Follows ops leg phase progress.dialogue) : progress.dialogue.request? = none ↔ phase = none := by
  obtain ⟨dialogue, acceptedSize⟩ := progress
  cases follows with
  | done result => exact iff_of_true rfl rfl
  | waits later => exact iff_of_false nofun nofun

end LegPhase

namespace LegProgress

open LegPhase (Follows EndsWhenAccepted)

variable {ops : TextOps} {leg : LegOrder} {phase : Option LegPhase} {progress : LegProgress}

theorem oneOrder_step (follows : Follows ops leg phase progress.dialogue) (sound : Sound leg progress) (held : OneOrder leg progress)
    (outcome : PlaceOutcome) : OneOrder leg (progress.step outcome) ↔ EndsWhenAccepted ops leg phase outcome := by
  have later := follows.step outcome
  cases waiting : phase with
  | none =>
    rw [waiting] at follows
    have ended : progress.step outcome = progress := by
      rw [step, follows.request?.2 rfl]
    rw [ended]
    exact iff_of_true held nofun
  | some order =>
    rw [waiting] at follows later
    obtain ⟨placement, waits⟩ := Option.ne_none_iff_exists'.1 fun none_ => nomatch follows.request?.1 none_
    have size : placement.size = leg.shares := sound.sized.request waits
    have positive := leg.shares_pos
    have nothing : progress.acceptedSize = 0 := by
      by_contra some_
      have accepted : 0 < progress.acceptedSize := lt_of_le_of_ne sound.nonneg (Ne.symm some_)
      exact absurd (waits.symm.trans (held.2 accepted)) nofun
    have total : (progress.step outcome).acceptedSize = if outcome.accepted then leg.shares else 0 := by
      unfold step
      rw [waits]
      simp only [nothing, size, zero_add]
    have again : (progress.step outcome).dialogue.request? = none ↔ ¬ LegPhase.PlacesAgain ops leg order outcome.report := by
      rw [later.request?, ← LegPhase.next_isSome, Option.not_isSome_iff_eq_none]
      rfl
    unfold OneOrder EndsWhenAccepted
    rw [total, again]
    by_cases accepted : outcome.accepted = true
    · simp [accepted, positive]
    · simp [accepted, positive.le]

/-- Over all outcomes of a leg's calls, at most its size is accepted and nothing is submitted after an acceptance, exactly when no accepted
order is reported in a way that makes the leg place again. -/
theorem oneOrder_iff (ops : TextOps) (leg : LegOrder) (outcomes : List PlaceOutcome) :
    Runs.Always step (OneOrder leg) (start ops leg) outcomes ↔
      Runs.Meets (LegPhase.step ops leg) (EndsWhenAccepted ops leg) (LegPhase.first ops leg) outcomes := by
  have both : ∀ (progress : LegProgress) (phase : Option LegPhase), Follows ops leg phase progress.dialogue → Sound leg progress →
      OneOrder leg progress →
      (Runs.Always step (OneOrder leg) progress outcomes ↔ Runs.Meets (LegPhase.step ops leg) (EndsWhenAccepted ops leg) phase outcomes) := by
    induction outcomes with
    | nil =>
      intro progress phase _ _ held
      refine iff_of_true (fun first isPrefix => ?_) trivial
      rw [List.prefix_nil.1 isPrefix]
      exact held
    | cons outcome rest ih =>
      intro progress phase follows sound held
      rw [Runs.always_cons, Runs.meets_cons, ← oneOrder_step follows sound held outcome]
      constructor
      · rintro ⟨_, later⟩
        have next := later [] (List.nil_prefix)
        exact ⟨next, (ih _ _ (follows.step outcome) (sound_step sound outcome) next).1 later⟩
      · rintro ⟨next, later⟩
        exact ⟨held, (ih _ _ (follows.step outcome) (sound_step sound outcome) next).2 later⟩
  exact both (start ops leg) (LegPhase.first ops leg) (LegPhase.follows_submitLive ops leg) ⟨leg.allAsk_submitLive, le_rfl⟩
    ⟨leg.shares_pos.le, fun more => absurd more (lt_irrefl 0)⟩


def timeoutLeg : LegOrder := ⟨5, "token", "market", "yes", none, .buy, false, some 1, fun _ => .resolved (1 / 2)⟩

/-- The first order is accepted and its call times out; the retry is accepted too. -/
def acceptedTwice : List PlaceOutcome := [⟨true, .raised "timeout"⟩, ⟨true, .returned .open_ none⟩]

theorem twoOrders_acceptedTwice : (Runs.run step (start plainOps timeoutLeg) acceptedTwice).acceptedSize = 10 ∧ timeoutLeg.shares = 5 ∧
    ¬ Runs.Always step (OneOrder timeoutLeg) (start plainOps timeoutLeg) acceptedTwice := by
  have total : (Runs.run step (start plainOps timeoutLeg) acceptedTwice).acceptedSize = 10 := by decide +kernel
  have size : timeoutLeg.shares = 5 := by decide +kernel
  refine ⟨total, size, fun always => ?_⟩
  have bounded := (always acceptedTwice List.prefix_rfl).1
  rw [total, size] at bounded
  norm_num at bounded

end LegProgress

end Callisto.Orders

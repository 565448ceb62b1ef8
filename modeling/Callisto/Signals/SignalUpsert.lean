import Callisto.Library.Decimals
import Callisto.Ws.Payload

/-! What one upsert of a trade signal does to the row that it finds. -/

namespace Callisto.Signals

open Callisto.Library
open Callisto.Library.Decimals (roundTo)
open Callisto.Ws (strip)

/-- A row of `trade_signals`. A value that JSON holds below the top level of a document is of type `δ`. -/
structure TradeSignal (δ : Type) where
  source : String
  sourceItemId : Option String
  signalType : String
  strategyType : Option String
  marketId : String
  marketQuestion : Option String
  direction : Option String
  entryPrice : Option ℚ
  edgePercent : Option ℚ
  confidence : Option ℚ
  liquidity : Option ℚ
  expiresAt : Option ℤ
  payloadJson : Option (Dict String δ)
  strategyContextJson : Option (Dict String δ)
  qualityPassed : Option Bool
  qualityRejectionReasons : Option (List String)
  status : String
  effectivePrice : Option ℚ
  createdAt : Option ℤ
  updatedAt : Option ℤ
  runtimeSequence : Option ℤ

/-- The arguments of `upsert_trade_signal`, and the time of the call, in microseconds. -/
structure SignalUpsert (δ : Type) where
  source : String
  sourceItemId : Option String
  signalType : String
  strategyType : Option String
  marketId : String
  marketQuestion : Option String
  direction : Option String
  entryPrice : Option ℚ
  edgePercent : Option ℚ
  confidence : Option ℚ
  liquidity : Option ℚ
  expiresAt : Option ℤ
  payloadJson : Option (Dict String δ)
  strategyContextJson : Option (Dict String δ)
  qualityPassed : Option Bool
  qualityRejectionReasons : Option (List String)
  runtimeSequence : ℤ
  now : ℤ

/-- What the calls read from elsewhere: `ensure_market_roster_payload`, the text of a time, the values of nested JSON,
and a setting. -/
structure SignalRules (δ : Type) where
  lower : String → String
  ensureMarketRosterPayload : Option (Dict String δ) → String → Option String → Dict String δ
  emittedAt : ℤ → δ
  normalizeItem : δ → δ
  isScalar : δ → Bool
  asDict : δ → Option (Dict String δ)
  skippedReactivationCooldownSeconds : ℚ

def signalActiveStatuses : List String := ["pending", "selected", "submitted"]

def signalReactivatableStatuses : List String := ["selected", "submitted", "executed", "skipped", "expired", "failed"]

def activeRefreshSources : List String := ["crypto", "scanner", "traders", "weather"]

def skippedReactivationVolatileKeys : List String :=
  ["bridge_run_at", "bridge_source", "book_updated_at", "best_ask", "best_bid", "current_no_price", "current_yes_price",
    "ingested_at", "last_price_update", "last_trade_price", "liquidity", "market_data_age_ms", "mid_price", "observed_at",
    "no_price", "outcome_prices", "price_age_seconds", "price_updated_at", "published_at", "quote_age_seconds",
    "quote_updated_at", "runtime_sequence", "roster_hash", "scan_completed_at", "scan_started_at", "sequence",
    "signal_emitted_at", "updated_at", "volume", "yes_price"]

def skippedReactivationFlagKeys : List String :=
  ["asset", "condition_id", "direction", "event_slug", "timeframe", "market_id", "market_slug", "mode", "no_token_id",
    "outcome", "price_policy", "regime", "selected_market_id", "selected_direction", "selected_outcome", "selected_token_id",
    "side", "strategy_mode", "time_in_force", "token_id", "yes_token_id", "oracle_available", "oracle_source", "is_live",
    "is_current"]

def oracleStatusKeys : List String := ["availability_state", "freshness_state", "directional_state", "source", "available"]

def skippedReactivationLiquidityBands : List ℚ := [250, 500, 1000, 2000, 4000, 8000, 16000, 32000]

/-- `_delta_crosses_threshold` -/
def deltaCrossesThreshold (existing incoming : Option ℚ) (absThreshold relThreshold : ℚ) : Bool :=
  match existing.map (roundTo 10), incoming.map (roundTo 10) with
  | some existingValue, some incomingValue =>
    let delta := |incomingValue - existingValue|
    if absThreshold ≤ delta then true
    else if relThreshold ≤ 0 then false
    else decide (relThreshold ≤ delta / max (max |existingValue| |incomingValue|) 1)
  | existingValue, incomingValue => decide (existingValue ≠ incomingValue)

/-- `_liquidity_band` -/
def liquidityBand (value : Option ℚ) : ℤ :=
  match value.map (roundTo 10) with
  | none => -1
  | some parsed => skippedReactivationLiquidityBands.countP fun threshold => threshold ≤ parsed

/-- `_normalize_reason_list` -/
def normalizeReasonList (values : Option (List String)) : List String :=
  (((values.getD []).map strip).filter fun item => item ≠ "").mergeSort fun first second => decide (first ≤ second)

section
variable {δ : Type} [DecidableEq δ]

def sameDict (first second : Dict String δ) : Bool :=
  (first.entries ++ second.entries).all fun entry => decide (first.get? entry.1 = second.get? entry.1)

def sameJson (first second : Option (Dict String δ)) : Bool :=
  match first, second with
  | none, none => true
  | some first, some second => sameDict first second
  | _, _ => false

/-- `_strip_auto_emitted_keys` -/
def stripAutoEmittedKeys (payload : Dict String δ) : Dict String δ := payload.erase "signal_emitted_at"

variable (rules : SignalRules δ)

namespace SignalRules

/-- `_normalize_reactivation_value`, for a document -/
def normalizeReactivationValue (payload : Dict String δ) : Dict String δ :=
  (skippedReactivationVolatileKeys.foldl Dict.erase payload).mapValues fun _ item => rules.normalizeItem item

def flag (payload : Option (Dict String δ)) (key : String) : Option δ :=
  ((payload.bind fun payload => payload.get? key).filter rules.isScalar).map rules.normalizeItem

/-- `_extract_reactivation_flags`: what each flag's key holds. -/
def extractReactivationFlags (payload context : Option (Dict String δ)) : List (Option δ) :=
  let oracleStatus := (payload.bind fun payload => payload.get? "oracle_status").bind rules.asDict
  skippedReactivationFlagKeys.map (rules.flag payload) ++ skippedReactivationFlagKeys.map (rules.flag context) ++
    oracleStatusKeys.map fun key => (oracleStatus.bind fun status => status.get? key).map rules.normalizeItem

def incomingPayload (call : SignalUpsert δ) : Dict String δ :=
  (rules.ensureMarketRosterPayload call.payloadJson call.marketId call.marketQuestion).set "signal_emitted_at" (rules.emittedAt call.now)

def labelsDiffer (row : TradeSignal δ) (call : SignalUpsert δ) : Bool :=
  decide (row.sourceItemId.getD "" ≠ call.sourceItemId.getD "") || decide (row.signalType ≠ call.signalType) ||
    decide (row.strategyType.getD "" ≠ call.strategyType.getD "") || decide (row.marketId ≠ call.marketId) ||
    decide (row.marketQuestion.getD "" ≠ call.marketQuestion.getD "") || decide (row.direction.getD "" ≠ call.direction.getD "")

def qualityDiffers (row : TradeSignal δ) (call : SignalUpsert δ) : Bool :=
  match call.qualityPassed with
  | none => false
  | some passed => decide (row.qualityPassed.getD false ≠ passed) ||
      decide (normalizeReasonList row.qualityRejectionReasons ≠ normalizeReasonList call.qualityRejectionReasons)

/-- `_has_signal_material_change` -/
def hasSignalMaterialChange (row : TradeSignal δ) (call : SignalUpsert δ) : Bool :=
  labelsDiffer row call ||
    deltaCrossesThreshold row.entryPrice call.entryPrice (2 / 1000) 0 ||
    deltaCrossesThreshold row.edgePercent call.edgePercent (1 / 10) 0 ||
    deltaCrossesThreshold row.confidence call.confidence (5 / 1000) 0 ||
    deltaCrossesThreshold row.liquidity call.liquidity 100 (5 / 100) ||
    !sameDict (rules.normalizeReactivationValue (rules.ensureMarketRosterPayload row.payloadJson call.marketId call.marketQuestion))
      (rules.normalizeReactivationValue (rules.incomingPayload call)) ||
    !sameJson (row.strategyContextJson.map rules.normalizeReactivationValue)
      (call.strategyContextJson.map rules.normalizeReactivationValue) ||
    qualityDiffers row call

def expiryDiffers (existing incoming : Option ℤ) : Bool :=
  match existing, incoming with
  | some existing, some incoming => decide (15000000 ≤ |incoming - existing|)
  | existing, incoming => decide (existing ≠ incoming)

/-- `_has_skipped_signal_material_change` -/
def hasSkippedSignalMaterialChange (row : TradeSignal δ) (call : SignalUpsert δ) : Bool :=
  labelsDiffer row call ||
    deltaCrossesThreshold row.entryPrice call.entryPrice (5 / 1000) 0 ||
    deltaCrossesThreshold row.edgePercent call.edgePercent (1 / 4) 0 ||
    deltaCrossesThreshold row.confidence call.confidence (1 / 100) 0 ||
    deltaCrossesThreshold row.liquidity call.liquidity 250 (1 / 10) ||
    decide (liquidityBand row.liquidity ≠ liquidityBand call.liquidity) ||
    decide (rules.extractReactivationFlags (row.payloadJson.map rules.normalizeReactivationValue)
        (row.strategyContextJson.map rules.normalizeReactivationValue) ≠
      rules.extractReactivationFlags (some (rules.normalizeReactivationValue (rules.incomingPayload call)))
        (call.strategyContextJson.map rules.normalizeReactivationValue)) ||
    expiryDiffers row.expiresAt call.expiresAt ||
    qualityDiffers row call

/-- `_should_reactivate_unchanged_skipped_scanner_signal` -/
def shouldReactivateUnchanged (row : TradeSignal δ) (call : SignalUpsert δ) : Bool :=
  if rules.lower (strip call.source) ≠ "scanner" ∨ rules.lower (strip row.source) ≠ "scanner" then false
  else match row.updatedAt.or row.createdAt with
    | none => true
    | some updatedAt => decide (0 < rules.skippedReactivationCooldownSeconds) &&
        decide (rules.skippedReactivationCooldownSeconds ≤ ((call.now - updatedAt : ℤ) : ℚ) / 1000000)

/-- The values of the conditional update, over the row that it changes. -/
def newValues (call : SignalUpsert δ) (reactivates : Bool) (row : TradeSignal δ) : TradeSignal δ :=
  { row with
    sourceItemId := call.sourceItemId
    signalType := call.signalType
    strategyType := call.strategyType
    marketId := call.marketId
    marketQuestion := call.marketQuestion
    direction := call.direction
    entryPrice := call.entryPrice
    edgePercent := call.edgePercent
    confidence := call.confidence
    liquidity := call.liquidity
    expiresAt := call.expiresAt
    payloadJson := some (rules.incomingPayload call)
    strategyContextJson := call.strategyContextJson
    updatedAt := some call.now
    qualityPassed := if call.qualityPassed.isSome then call.qualityPassed else row.qualityPassed
    qualityRejectionReasons := if call.qualityPassed.isSome then call.qualityRejectionReasons.filter fun reasons => !reasons.isEmpty
      else row.qualityRejectionReasons
    status := if reactivates then "pending" else row.status
    effectivePrice := if reactivates then none else row.effectivePrice
    runtimeSequence := some call.runtimeSequence }

def activeRefresh (row : TradeSignal δ) (call : SignalUpsert δ) : TradeSignal δ :=
  { row with
    expiresAt := call.expiresAt
    payloadJson :=
      if sameDict (stripAutoEmittedKeys (rules.ensureMarketRosterPayload row.payloadJson call.marketId call.marketQuestion))
          (stripAutoEmittedKeys (rules.incomingPayload call)) then row.payloadJson
      else some (rules.incomingPayload call)
    strategyContextJson :=
      if sameJson (row.strategyContextJson.map rules.normalizeReactivationValue)
          (call.strategyContextJson.map rules.normalizeReactivationValue) then row.strategyContextJson
      else call.strategyContextJson
    qualityPassed := if call.qualityPassed.isSome then call.qualityPassed else row.qualityPassed
    qualityRejectionReasons := if call.qualityPassed.isSome then call.qualityRejectionReasons.filter fun reasons => !reasons.isEmpty
      else row.qualityRejectionReasons }

end SignalRules

inductive Plan (δ : Type) where
  | stale
  | update (reactivates : Bool)
  | assign (session : TradeSignal δ)

namespace SignalRules

def assigned (call : SignalUpsert δ) (session : TradeSignal δ) : Plan δ :=
  .assign { session with runtimeSequence := some call.runtimeSequence }

/-- `upsert_trade_signal`, from the row it selects to its first write. -/
def plan (row : TradeSignal δ) (call : SignalUpsert δ) : Plan δ :=
  if ∃ existing ∈ row.runtimeSequence, call.runtimeSequence ≤ existing then .stale
  else
    let status := rules.lower (strip row.status)
    let active := decide (status ∈ signalActiveStatuses)
    if status ∈ signalActiveStatuses ∨ status ∈ signalReactivatableStatuses then
      let material := if active then rules.hasSignalMaterialChange row call
        else if status = "skipped" then rules.hasSkippedSignalMaterialChange row call else true
      if active = true ∧ material = false then
        assigned call (if rules.lower (strip call.source) ∈ activeRefreshSources then rules.activeRefresh row call else row)
      else if active = true ∧ ∃ expiry ∈ call.expiresAt, expiry ≤ call.now then
        assigned call { row with status := "expired", expiresAt := call.expiresAt, updatedAt := some call.now }
      else if (status = "skipped" ∨ status = "pending") ∧ ∃ expiry ∈ row.expiresAt, expiry ≤ call.now then
        assigned call { row with status := "expired", updatedAt := some call.now }
      else
        let reactivates := if status = "skipped" then material || rules.shouldReactivateUnchanged row call
          else decide (status ∈ signalReactivatableStatuses)
        if status = "skipped" ∧ reactivates = false then assigned call row else .update reactivates
    else assigned call row

end SignalRules

end

end Callisto.Signals

import Callisto.Signals.SignalOrder
import Mathlib.Tactic.NormNum

/-! The upsert of a signal without a sequence, and when the same call made once more changes nothing. -/

namespace Callisto.Signals

open Callisto.Library
open Callisto.Ws (strip)

variable {δ : Type}

/-- What `ensure_market_roster_payload` reads of JSON values, and `build_market_roster`, whose rosters list their markets. -/
structure RosterRules (δ : Type) where
  lists : δ → Bool
  asList : δ → Option (List δ)
  marketItem : String → Option String → δ
  buildMarketRoster : List δ → Option { roster : δ // lists roster = true }

def ensureMarketRosterPayload (roster : RosterRules δ) (payload : Option (Dict String δ)) (marketId : String) (marketQuestion : Option String) :
    Dict String δ :=
  let normalized := payload.getD Dict.empty
  if ((normalized.get? "market_roster").any roster.lists) = true then normalized
  else
    let payloadMarkets := ((normalized.get? "markets").bind roster.asList).getD []
    let rosterMarkets := if payloadMarkets.isEmpty = true ∧ (marketId ≠ "" ∨ marketQuestion.getD "" ≠ "") then
      [roster.marketItem marketId marketQuestion] else payloadMarkets
    match roster.buildMarketRoster rosterMarkets with
    | some built => normalized.set "market_roster" built.1
    | none => normalized

/-- The rules of the calls, with the roster of the source; lower case stays as it is. -/
structure UpsertRules (δ : Type) where
  base : SignalRules δ
  roster : RosterRules δ
  lower_pending : base.lower "pending" = "pending"
  lower_expired : base.lower "expired" = "expired"

def UpsertRules.rules (given : UpsertRules δ) : SignalRules δ :=
  { given.base with ensureMarketRosterPayload := ensureMarketRosterPayload given.roster }

/-- What a call leaves: the row, the emission that it records, with its event and reason, and whether it publishes it. -/
structure Upserted (δ : Type) where
  row : TradeSignal δ
  recorded : Option (String × Option String)
  published : Bool

namespace SignalRules
variable [DecidableEq δ] (rules : SignalRules δ)

def insertedRow (call : SignalUpsert δ) : TradeSignal δ where
  source := call.source
  sourceItemId := call.sourceItemId
  signalType := call.signalType
  strategyType := call.strategyType
  marketId := call.marketId
  marketQuestion := call.marketQuestion
  direction := call.direction
  entryPrice := call.entryPrice
  edgePercent := call.edgePercent
  confidence := call.confidence
  liquidity := call.liquidity
  expiresAt := call.expiresAt
  payloadJson := some (rules.incomingPayload call)
  strategyContextJson := call.strategyContextJson
  qualityPassed := call.qualityPassed
  qualityRejectionReasons := call.qualityRejectionReasons.filter fun reasons => !reasons.isEmpty
  status := "pending"
  effectivePrice := none
  createdAt := some call.now
  updatedAt := some call.now
  runtimeSequence := none

def statusOf (row : TradeSignal δ) : String := rules.lower (strip row.status)

def isActive (row : TradeSignal δ) : Bool := decide (rules.statusOf row ∈ signalActiveStatuses)

def incomingExpired (call : SignalUpsert δ) : Bool := call.expiresAt.any fun expiry => decide (expiry ≤ call.now)

def existingExpired (row : TradeSignal δ) (call : SignalUpsert δ) : Bool := row.expiresAt.any fun expiry => decide (expiry ≤ call.now)

def hasMaterialChange (row : TradeSignal δ) (call : SignalUpsert δ) : Bool :=
  if rules.isActive row then rules.hasSignalMaterialChange row call
  else if rules.statusOf row = "skipped" then rules.hasSkippedSignalMaterialChange row call else true

def shouldReactivate (row : TradeSignal δ) (call : SignalUpsert δ) : Bool :=
  if rules.statusOf row = "skipped" then rules.hasMaterialChange row call || rules.shouldReactivateUnchanged row call
  else decide (rules.statusOf row ∈ signalReactivatableStatuses)

/-- The row that an update writes; a call without a sequence leaves the row's own. -/
def updatedRow (row : TradeSignal δ) (call : SignalUpsert δ) : TradeSignal δ :=
  { newValues rules call (rules.shouldReactivate row call) row with runtimeSequence := row.runtimeSequence }

/-- `upsert_trade_signal` without `runtime_sequence`, at the row that it finds. -/
def upsertRow (row : TradeSignal δ) (call : SignalUpsert δ) (commit : Bool) : Upserted δ :=
  if rules.statusOf row ∈ signalActiveStatuses ∨ rules.statusOf row ∈ signalReactivatableStatuses then
    if rules.isActive row = true ∧ rules.hasMaterialChange row call = false then
      ⟨if rules.lower (strip call.source) ∈ activeRefreshSources then rules.activeRefresh row call else row, none, false⟩
    else if rules.isActive row = true ∧ incomingExpired call = true then
      ⟨{ row with status := "expired", expiresAt := call.expiresAt, updatedAt := some call.now },
        some ("upsert_expired_on_reemit", some "incoming_already_expired"), false⟩
    else if (rules.statusOf row = "skipped" ∨ rules.statusOf row = "pending") ∧ existingExpired row call = true then
      ⟨{ row with status := "expired", updatedAt := some call.now },
        some ("upsert_existing_expires_at_past", some "existing_already_expired"), false⟩
    else if rules.statusOf row = "skipped" ∧ rules.shouldReactivate row call = false then ⟨row, none, false⟩
    else
      ⟨rules.updatedRow row call,
        some (if rules.shouldReactivate row call then ("upsert_reactivated", some ("reactivated_from:" ++ rules.statusOf row))
          else ("upsert_update", none)),
        commit⟩
  else ⟨row, none, false⟩

/-- `upsert_trade_signal` without `runtime_sequence` -/
def upsertTradeSignal (row : Option (TradeSignal δ)) (call : SignalUpsert δ) (commit : Bool) : Upserted δ :=
  match row with
  | none => ⟨rules.insertedRow call, some ("upsert_insert", none), commit⟩
  | some row => rules.upsertRow row call commit

structure NoOp (row : TradeSignal δ) (after : Upserted δ) : Prop where
  unchanged : after.row = row
  unrecorded : after.recorded = none
  unpublished : after.published = false

def Expires (row : TradeSignal δ) (call : SignalUpsert δ) : Prop :=
  (rules.isActive row = true ∧ rules.hasSignalMaterialChange row call = true ∧ incomingExpired call = true) ∨
    ((rules.statusOf row = "skipped" ∨ (rules.statusOf row = "pending" ∧ rules.hasSignalMaterialChange row call = true)) ∧
      existingExpired row call = true)

end SignalRules

/-- A call and the time of the same call right after it: no expiry of the row and no cooldown falls between the two. -/
structure RepeatedCall (rules : SignalRules δ) (stored : Option (TradeSignal δ)) where
  call : SignalUpsert δ
  later : ℤ
  existing_same : ∀ row ∈ stored, ∀ expiry ∈ row.expiresAt, (expiry ≤ later ↔ expiry ≤ call.now)
  cooldown_same : ∀ row ∈ stored, rules.shouldReactivateUnchanged row { call with now := later } = rules.shouldReactivateUnchanged row call

def RepeatedCall.again {rules : SignalRules δ} {stored : Option (TradeSignal δ)} (repeated : RepeatedCall rules stored) : SignalUpsert δ :=
  { repeated.call with now := repeated.later }

theorem deltaCrossesThreshold_self (value : Option ℚ) {absThreshold relThreshold : ℚ} (positive : 0 < absThreshold) :
    deltaCrossesThreshold value value absThreshold relThreshold = false := by
  unfold deltaCrossesThreshold
  cases value with
  | none => exact decide_eq_false (not_not.2 rfl)
  | some value =>
    dsimp only [Option.map_some]
    rw [sub_self, abs_zero, if_neg (not_le.2 positive)]
    split
    · rfl
    · next relative => exact decide_eq_false (by rw [zero_div]; exact relative)

section Documents
variable [DecidableEq δ]

theorem sameDict_iff {first second : Dict String δ} : sameDict first second = true ↔ ∀ key, first.get? key = second.get? key := by
  unfold sameDict
  rw [List.all_eq_true]
  refine ⟨fun same key => ?_, fun same entry _ => decide_eq_true (same entry.1)⟩
  cases left : first.get? key with
  | some value =>
    have held := same (key, value) (List.mem_append_left _ (Dict.mem_of_find left))
    exact left ▸ of_decide_eq_true held
  | none =>
    cases right : second.get? key with
    | none => rfl
    | some value =>
      have held := same (key, value) (List.mem_append_right _ (Dict.mem_of_find right))
      have equal : first.get? key = second.get? key := of_decide_eq_true held
      rw [left, right] at equal
      exact equal

theorem sameDict_congr {first second other : Dict String δ} (same : ∀ key, second.get? key = other.get? key) :
    sameDict first second = sameDict first other := by
  rw [Bool.eq_iff_iff, sameDict_iff, sameDict_iff]
  exact ⟨fun equal key => (equal key).trans (same key), fun equal key => (equal key).trans (same key).symm⟩

theorem sameJson_self (document : Option (Dict String δ)) : sameJson document document = true := by
  cases document with
  | none => rfl
  | some document => exact sameDict_iff.2 fun _ => rfl

variable (given : UpsertRules δ)

omit [DecidableEq δ] in
theorem ensure_ensure (payload : Option (Dict String δ)) (marketId : String) (marketQuestion : Option String) (emittedAt : δ) :
    ensureMarketRosterPayload given.roster
      (some ((ensureMarketRosterPayload given.roster payload marketId marketQuestion).set "signal_emitted_at" emittedAt)) marketId marketQuestion =
      (ensureMarketRosterPayload given.roster payload marketId marketQuestion).set "signal_emitted_at" emittedAt := by
  have other : ∀ (document : Dict String δ) (key : String), key ≠ "signal_emitted_at" →
      (document.set "signal_emitted_at" emittedAt).get? key = document.get? key := fun document key different => by
    rw [Dict.get?_set]
    exact if_neg (Ne.symm different)
  have kept : ∀ document : Dict String δ, (document.get? "market_roster").any given.roster.lists = true →
      ensureMarketRosterPayload given.roster (some (document.set "signal_emitted_at" emittedAt)) marketId marketQuestion =
        document.set "signal_emitted_at" emittedAt := by
    intro document listed
    refine if_pos ?_
    change ((document.set "signal_emitted_at" emittedAt).get? "market_roster").any given.roster.lists = true
    rwa [other _ _ (by decide)]
  by_cases listed : ((payload.getD Dict.empty).get? "market_roster").any given.roster.lists = true
  · have same : ensureMarketRosterPayload given.roster payload marketId marketQuestion = payload.getD Dict.empty := if_pos listed
    rw [same]
    exact kept _ listed
  · generalize markets_eq : (((payload.getD Dict.empty).get? "markets").bind given.roster.asList).getD [] = payloadMarkets
    generalize roster_eq : (if payloadMarkets.isEmpty = true ∧ (marketId ≠ "" ∨ marketQuestion.getD "" ≠ "") then
      [given.roster.marketItem marketId marketQuestion] else payloadMarkets) = rosterMarkets
    have ensured : ensureMarketRosterPayload given.roster payload marketId marketQuestion =
        match given.roster.buildMarketRoster rosterMarkets with
        | some built => (payload.getD Dict.empty).set "market_roster" built.1
        | none => payload.getD Dict.empty := by
      unfold ensureMarketRosterPayload
      dsimp only
      rw [if_neg listed, markets_eq, roster_eq]
      cases given.roster.buildMarketRoster rosterMarkets <;> rfl
    rw [ensured]
    cases built : given.roster.buildMarketRoster rosterMarkets with
    | some roster =>
      refine kept _ ?_
      rw [Dict.get?_set, if_pos rfl]
      exact roster.2
    | none =>
      unfold ensureMarketRosterPayload
      dsimp only [Option.getD_some]
      rw [other _ _ (by decide), other _ _ (by decide), if_neg listed, markets_eq, roster_eq, built]

omit [DecidableEq δ] in
theorem get?_normalize (rules : SignalRules δ) (document : Dict String δ) (key : String) :
    (rules.normalizeReactivationValue document).get? key =
      if key ∈ skippedReactivationVolatileKeys then none else (document.get? key).map rules.normalizeItem := by
  unfold SignalRules.normalizeReactivationValue
  rw [Dict.get?_mapValues, Dict.get?_foldl_erase]
  split
  · rfl
  · rfl

omit [DecidableEq δ] in
theorem get?_set_emittedAt (document : Dict String δ) {first second : δ} {key : String} (different : key ≠ "signal_emitted_at") :
    (document.set "signal_emitted_at" first).get? key = (document.set "signal_emitted_at" second).get? key := by
  rw [Dict.get?_set, Dict.get?_set, if_neg (Ne.symm different), if_neg (Ne.symm different)]

end Documents

section Calls
variable [DecidableEq δ] {given : UpsertRules δ} {row : TradeSignal δ} {call : SignalUpsert δ} {later : ℤ}

omit [DecidableEq δ] in
theorem normalize_later (key : String) : (given.rules.normalizeReactivationValue (given.rules.incomingPayload { call with now := later })).get? key =
    (given.rules.normalizeReactivationValue (given.rules.incomingPayload call)).get? key := by
  rw [get?_normalize, get?_normalize]
  split
  · rfl
  · next stable =>
    refine congrArg (Option.map _) (get?_set_emittedAt _ fun same => stable ?_)
    rw [same]
    decide

omit [DecidableEq δ] in
theorem strip_later (key : String) : (stripAutoEmittedKeys (given.rules.incomingPayload { call with now := later })).get? key =
    (stripAutoEmittedKeys (given.rules.incomingPayload call)).get? key := by
  unfold stripAutoEmittedKeys
  rw [Dict.get?_erase, Dict.get?_erase]
  split
  · rfl
  · next different => exact get?_set_emittedAt _ (Ne.symm different)

omit [DecidableEq δ] in
theorem ensure_incoming : given.rules.ensureMarketRosterPayload (some (given.rules.incomingPayload call)) call.marketId call.marketQuestion =
    given.rules.incomingPayload call := ensure_ensure given _ _ _ _

theorem hasSignalMaterialChange_later : given.rules.hasSignalMaterialChange row { call with now := later } =
    given.rules.hasSignalMaterialChange row call := by
  unfold SignalRules.hasSignalMaterialChange
  rw [sameDict_congr normalize_later]
  rfl

omit [DecidableEq δ] in
theorem extract_congr (rules : SignalRules δ) {first second : Dict String δ} (same : ∀ key, first.get? key = second.get? key)
    (context : Option (Dict String δ)) :
    rules.extractReactivationFlags (some first) context = rules.extractReactivationFlags (some second) context := by
  have flags : rules.flag (some first) = rules.flag (some second) := by
    funext key
    unfold SignalRules.flag
    rw [Option.bind_some, Option.bind_some, same key]
  unfold SignalRules.extractReactivationFlags
  rw [flags, Option.bind_some, Option.bind_some, same]

theorem hasSkippedSignalMaterialChange_later :
    given.rules.hasSkippedSignalMaterialChange row { call with now := later } = given.rules.hasSkippedSignalMaterialChange row call := by
  unfold SignalRules.hasSkippedSignalMaterialChange
  rw [extract_congr given.rules normalize_later]
  rfl

theorem hasMaterialChange_later : given.rules.hasMaterialChange row { call with now := later } = given.rules.hasMaterialChange row call := by
  unfold SignalRules.hasMaterialChange
  rw [hasSignalMaterialChange_later, hasSkippedSignalMaterialChange_later]

omit [DecidableEq δ] in
theorem qualityDiffers_self (qualityPassed : call.qualityPassed.isSome → row.qualityPassed = call.qualityPassed ∧
    row.qualityRejectionReasons = call.qualityRejectionReasons.filter fun reasons => !reasons.isEmpty) :
    SignalRules.qualityDiffers row call = false := by
  unfold SignalRules.qualityDiffers
  cases passed : call.qualityPassed with
  | none => rfl
  | some value =>
    have ⟨own, reasons⟩ := qualityPassed (by rw [passed]; rfl)
    have normalized : normalizeReasonList row.qualityRejectionReasons = normalizeReasonList call.qualityRejectionReasons := by
      rw [reasons]
      cases call.qualityRejectionReasons with
      | none => rfl
      | some given_reasons =>
        cases given_reasons with
        | nil => rfl
        | cons first rest => rfl
    rw [own, passed, normalized]
    exact (Bool.or_eq_false_iff).2 ⟨decide_eq_false (not_not.2 rfl), decide_eq_false (not_not.2 rfl)⟩

structure HoldsCall (rules : SignalRules δ) (row : TradeSignal δ) (call : SignalUpsert δ) : Prop where
  sourceItemId : row.sourceItemId = call.sourceItemId
  signalType : row.signalType = call.signalType
  strategyType : row.strategyType = call.strategyType
  marketId : row.marketId = call.marketId
  marketQuestion : row.marketQuestion = call.marketQuestion
  direction : row.direction = call.direction
  entryPrice : row.entryPrice = call.entryPrice
  edgePercent : row.edgePercent = call.edgePercent
  confidence : row.confidence = call.confidence
  liquidity : row.liquidity = call.liquidity
  expiresAt : row.expiresAt = call.expiresAt
  payloadJson : row.payloadJson = some (rules.incomingPayload call)
  strategyContextJson : row.strategyContextJson = call.strategyContextJson
  quality : call.qualityPassed.isSome → row.qualityPassed = call.qualityPassed ∧
    row.qualityRejectionReasons = call.qualityRejectionReasons.filter fun reasons => !reasons.isEmpty

omit [DecidableEq δ] in
theorem holds_insertedRow : HoldsCall given.rules (given.rules.insertedRow call) call := by
  constructor <;> first | rfl | exact fun _ => ⟨rfl, rfl⟩

theorem holds_updatedRow : HoldsCall given.rules (given.rules.updatedRow row call) call := by
  constructor <;> first | rfl | exact fun passed => ⟨if_pos passed, if_pos passed⟩

theorem HoldsCall.immaterial (holds : HoldsCall given.rules row call) : given.rules.hasSignalMaterialChange row call = false := by
  have labels : SignalRules.labelsDiffer row call = false := by
    unfold SignalRules.labelsDiffer
    rw [holds.sourceItemId, holds.signalType, holds.strategyType, holds.marketId, holds.marketQuestion, holds.direction]
    simp
  have document : sameDict (given.rules.normalizeReactivationValue
      (given.rules.ensureMarketRosterPayload row.payloadJson call.marketId call.marketQuestion))
      (given.rules.normalizeReactivationValue (given.rules.incomingPayload call)) = true := by
    rw [holds.payloadJson, ensure_incoming]
    exact sameDict_iff.2 fun _ => rfl
  unfold SignalRules.hasSignalMaterialChange
  rw [labels, document, holds.entryPrice, holds.edgePercent, holds.confidence, holds.liquidity, holds.strategyContextJson,
    qualityDiffers_self holds.quality, sameJson_self, deltaCrossesThreshold_self _ (by norm_num), deltaCrossesThreshold_self _ (by norm_num),
    deltaCrossesThreshold_self _ (by norm_num), deltaCrossesThreshold_self _ (by norm_num)]
  rfl

theorem activeRefresh_self (expires : row.expiresAt = call.expiresAt)
    (document : sameDict (stripAutoEmittedKeys (given.rules.ensureMarketRosterPayload row.payloadJson call.marketId call.marketQuestion))
      (stripAutoEmittedKeys (given.rules.incomingPayload call)) = true)
    (context : sameJson (row.strategyContextJson.map given.rules.normalizeReactivationValue)
      (call.strategyContextJson.map given.rules.normalizeReactivationValue) = true)
    (quality : call.qualityPassed.isSome → row.qualityPassed = call.qualityPassed ∧
      row.qualityRejectionReasons = call.qualityRejectionReasons.filter fun reasons => !reasons.isEmpty) :
    given.rules.activeRefresh row { call with now := later } = row := by
  have document_later : sameDict (stripAutoEmittedKeys (given.rules.ensureMarketRosterPayload row.payloadJson call.marketId call.marketQuestion))
      (stripAutoEmittedKeys (given.rules.incomingPayload { call with now := later })) = true := by
    rw [sameDict_congr strip_later]
    exact document
  unfold SignalRules.activeRefresh
  dsimp only
  rw [document_later, context]
  cases passed : call.qualityPassed with
  | none => simp [← expires]
  | some value =>
    have ⟨own, reasons⟩ := quality (by rw [passed]; rfl)
    simp [← expires, ← reasons, ← passed, ← own]

theorem HoldsCall.refreshed (holds : HoldsCall given.rules row call) : given.rules.activeRefresh row { call with now := later } = row := by
  refine activeRefresh_self holds.expiresAt ?_ ?_ holds.quality
  · rw [holds.payloadJson, ensure_incoming]
    exact sameDict_iff.2 fun _ => rfl
  · rw [holds.strategyContextJson]
    exact sameJson_self _

theorem activeRefresh_payload :
    (sameDict (stripAutoEmittedKeys (given.rules.ensureMarketRosterPayload row.payloadJson call.marketId call.marketQuestion))
      (stripAutoEmittedKeys (given.rules.incomingPayload call)) = true ∧
      (given.rules.activeRefresh row call).payloadJson = row.payloadJson) ∨
    (given.rules.activeRefresh row call).payloadJson = some (given.rules.incomingPayload call) := by
  by_cases kept : sameDict (stripAutoEmittedKeys (given.rules.ensureMarketRosterPayload row.payloadJson call.marketId call.marketQuestion))
      (stripAutoEmittedKeys (given.rules.incomingPayload call)) = true
  · exact Or.inl ⟨kept, if_pos kept⟩
  · exact Or.inr (if_neg kept)

theorem activeRefresh_context :
    (sameJson (row.strategyContextJson.map given.rules.normalizeReactivationValue)
      (call.strategyContextJson.map given.rules.normalizeReactivationValue) = true ∧
      (given.rules.activeRefresh row call).strategyContextJson = row.strategyContextJson) ∨
    (given.rules.activeRefresh row call).strategyContextJson = call.strategyContextJson := by
  by_cases kept : sameJson (row.strategyContextJson.map given.rules.normalizeReactivationValue)
      (call.strategyContextJson.map given.rules.normalizeReactivationValue) = true
  · exact Or.inl ⟨kept, if_pos kept⟩
  · exact Or.inr (if_neg kept)

theorem activeRefresh_twice : given.rules.activeRefresh (given.rules.activeRefresh row call) { call with now := later } =
    given.rules.activeRefresh row call := by
  refine activeRefresh_self rfl ?_ ?_ fun passed => ⟨if_pos passed, if_pos passed⟩
  · rcases @activeRefresh_payload _ _ given row call with ⟨kept, same⟩ | taken
    · rw [same]
      exact kept
    · rw [taken, ensure_incoming]
      exact sameDict_iff.2 fun _ => rfl
  · rcases @activeRefresh_context _ _ given row call with ⟨kept, same⟩ | taken
    · rw [same]
      exact kept
    · rw [taken]
      exact sameJson_self _

theorem activeRefresh_immaterial (immaterial : given.rules.hasSignalMaterialChange row call = false) :
    given.rules.hasSignalMaterialChange (given.rules.activeRefresh row call) call = false := by
  unfold SignalRules.hasSignalMaterialChange at immaterial ⊢
  simp only [Bool.or_eq_false_iff, Bool.not_eq_false'] at immaterial ⊢
  have ⟨⟨⟨⟨⟨⟨⟨labels, price⟩, edge⟩, confidence⟩, liquidity⟩, document⟩, context⟩, _⟩ := immaterial
  refine ⟨⟨⟨⟨⟨⟨⟨labels, price⟩, edge⟩, confidence⟩, liquidity⟩, ?_⟩, ?_⟩, qualityDiffers_self fun passed => ⟨if_pos passed, if_pos passed⟩⟩
  · rcases @activeRefresh_payload _ _ given row call with ⟨_, same⟩ | taken
    · rw [same]
      exact document
    · rw [taken, ensure_incoming]
      exact sameDict_iff.2 fun _ => rfl
  · rcases @activeRefresh_context _ _ given row call with ⟨_, same⟩ | taken
    · rw [same]
      exact context
    · rw [taken]
      exact sameJson_self _

variable {commit : Bool}

theorem noOp_of_quiet (active : given.rules.isActive row = true) (immaterial : given.rules.hasSignalMaterialChange row call = false)
    (refreshed : given.rules.lower (strip call.source) ∈ activeRefreshSources → given.rules.activeRefresh row { call with now := later } = row) :
    SignalRules.NoOp row (given.rules.upsertRow row { call with now := later } commit) := by
  have quiet : given.rules.hasMaterialChange row { call with now := later } = false := by
    rw [hasMaterialChange_later, SignalRules.hasMaterialChange, if_pos active, immaterial]
  unfold SignalRules.upsertRow
  rw [if_pos (Or.inl (of_decide_eq_true active)), if_pos ⟨active, quiet⟩]
  refine ⟨?_, rfl, rfl⟩
  change (if given.rules.lower (strip call.source) ∈ activeRefreshSources then _ else row) = row
  split
  · next refreshes => exact refreshed refreshes
  · rfl

theorem HoldsCall.noOp (holds : HoldsCall given.rules row call) (active : given.rules.isActive row = true) :
    SignalRules.NoOp row (given.rules.upsertRow row { call with now := later } commit) :=
  noOp_of_quiet active holds.immaterial fun _ => holds.refreshed

theorem not_noOp_of_expired (expired : row.status = "expired") :
    ¬ SignalRules.NoOp row (given.rules.upsertRow row { call with now := later } commit) := by
  have status : given.rules.statusOf row = "expired" := by
    rw [SignalRules.statusOf, expired, show strip "expired" = "expired" by decide]
    exact given.lower_expired
  have inactive : given.rules.isActive row = false := by
    rw [SignalRules.isActive, status]
    decide
  intro noOp
  have unrecorded := noOp.unrecorded
  unfold SignalRules.upsertRow at unrecorded
  rw [if_pos (Or.inr (by rw [status]; decide)), if_neg (fun quiet => by rw [inactive] at quiet; exact absurd quiet.1 (by decide)),
    if_neg (fun reemit => by rw [inactive] at reemit; exact absurd reemit.1 (by decide)),
    if_neg (fun existing => by rw [status] at existing; exact absurd existing.1 (by decide)),
    if_neg (fun idle => by rw [status] at idle; exact absurd idle.1 (by decide))] at unrecorded
  exact nomatch unrecorded

omit [DecidableEq δ] in
theorem isActive_pending (pending : row.status = "pending") : given.rules.isActive row = true := by
  have status : given.rules.statusOf row = "pending" := by
    rw [SignalRules.statusOf, pending, show strip "pending" = "pending" by decide]
    exact given.lower_pending
  rw [SignalRules.isActive, status]
  decide

end Calls

section Twice
variable [DecidableEq δ] {given : UpsertRules δ} {row : TradeSignal δ} {commit : Bool}

omit [DecidableEq δ] in
theorem existingExpired_again (repeated : RepeatedCall given.rules (some row)) :
    SignalRules.existingExpired row repeated.again = SignalRules.existingExpired row repeated.call := by
  unfold SignalRules.existingExpired
  change row.expiresAt.any (fun expiry => decide (expiry ≤ repeated.later)) = _
  cases expires : row.expiresAt with
  | none => rfl
  | some expiry => exact decide_eq_decide.2 (repeated.existing_same row rfl expiry expires)

theorem shouldReactivate_again (repeated : RepeatedCall given.rules (some row)) :
    given.rules.shouldReactivate row repeated.again = given.rules.shouldReactivate row repeated.call := by
  unfold SignalRules.shouldReactivate RepeatedCall.again
  rw [hasMaterialChange_later, repeated.cooldown_same row rfl]

theorem upsertRow_twice_iff (repeated : RepeatedCall given.rules (some row)) :
    SignalRules.NoOp (given.rules.upsertRow row repeated.call commit).row
      (given.rules.upsertRow (given.rules.upsertRow row repeated.call commit).row repeated.again commit) ↔
        ¬ given.rules.Expires row repeated.call := by
  have skipped_inactive : given.rules.statusOf row = "skipped" → ¬ given.rules.isActive row = true := by
    intro skipped active
    rw [SignalRules.isActive, skipped] at active
    exact absurd active (by decide)
  have pending_active : given.rules.statusOf row = "pending" → given.rules.isActive row = true := by
    intro pending
    rw [SignalRules.isActive, pending]
    decide
  have material_eq : given.rules.isActive row = true → given.rules.hasMaterialChange row repeated.call =
      given.rules.hasSignalMaterialChange row repeated.call := fun active => if_pos active
  by_cases updates : given.rules.statusOf row ∈ signalActiveStatuses ∨ given.rules.statusOf row ∈ signalReactivatableStatuses
  · by_cases quiet : given.rules.isActive row = true ∧ given.rules.hasMaterialChange row repeated.call = false
    · -- an active row without a change stays active without a change
      have immaterial := material_eq quiet.1 ▸ quiet.2
      have first : given.rules.upsertRow row repeated.call commit =
          ⟨if given.rules.lower (strip repeated.call.source) ∈ activeRefreshSources then given.rules.activeRefresh row repeated.call
            else row, none, false⟩ := by
        unfold SignalRules.upsertRow
        rw [if_pos updates, if_pos quiet]
      refine ⟨fun _ expires => ?_, fun _ => ?_⟩
      · rcases expires with ⟨_, material, _⟩ | ⟨skipped | ⟨_, material⟩, _⟩
        · exact absurd (immaterial.symm.trans material) (by decide)
        · exact skipped_inactive skipped quiet.1
        · exact absurd (immaterial.symm.trans material) (by decide)
      · rw [first]
        dsimp only
        split
        · exact noOp_of_quiet quiet.1 (activeRefresh_immaterial immaterial) fun _ => activeRefresh_twice
        · next idle => exact noOp_of_quiet quiet.1 immaterial fun refreshes => absurd refreshes idle
    · by_cases reemit : given.rules.isActive row = true ∧ SignalRules.incomingExpired repeated.call = true
      · have first : (given.rules.upsertRow row repeated.call commit).row.status = "expired" := by
          unfold SignalRules.upsertRow
          rw [if_pos updates, if_neg quiet, if_pos reemit]
        have material : given.rules.hasSignalMaterialChange row repeated.call = true := by
          rw [← material_eq reemit.1]
          exact Bool.not_eq_false _ ▸ fun immaterial => quiet ⟨reemit.1, immaterial⟩
        exact ⟨fun noOp => absurd noOp (not_noOp_of_expired first), fun lives => absurd (Or.inl ⟨reemit.1, material, reemit.2⟩) lives⟩
      · by_cases existing : (given.rules.statusOf row = "skipped" ∨ given.rules.statusOf row = "pending") ∧
            SignalRules.existingExpired row repeated.call = true
        · have first : (given.rules.upsertRow row repeated.call commit).row.status = "expired" := by
            unfold SignalRules.upsertRow
            rw [if_pos updates, if_neg quiet, if_neg reemit, if_pos existing]
          refine ⟨fun noOp => absurd noOp (not_noOp_of_expired first), fun lives => absurd (Or.inr ⟨?_, existing.2⟩) lives⟩
          refine existing.1.imp_right fun pending => ⟨pending, ?_⟩
          rw [← material_eq (pending_active pending)]
          exact Bool.not_eq_false _ ▸ fun immaterial => quiet ⟨pending_active pending, immaterial⟩
        · have lives : ¬ given.rules.Expires row repeated.call := by
            rintro (⟨active, _, expired⟩ | ⟨skipped | ⟨pending, _⟩, expired⟩)
            · exact reemit ⟨active, expired⟩
            · exact existing ⟨Or.inl skipped, expired⟩
            · exact existing ⟨Or.inr pending, expired⟩
          refine ⟨fun _ => lives, fun _ => ?_⟩
          by_cases idle : given.rules.statusOf row = "skipped" ∧ given.rules.shouldReactivate row repeated.call = false
          · -- a skipped row that is not reactivated is found again as it was
            have first : given.rules.upsertRow row repeated.call commit = ⟨row, none, false⟩ := by
              unfold SignalRules.upsertRow
              rw [if_pos updates, if_neg quiet, if_neg reemit, if_neg existing, if_pos idle]
            have inactive := skipped_inactive idle.1
            rw [first]
            unfold SignalRules.upsertRow
            rw [if_pos updates, if_neg (fun quiet => inactive quiet.1), if_neg (fun reemit => inactive reemit.1), existingExpired_again repeated,
              if_neg existing, shouldReactivate_again repeated, if_pos idle]
            exact ⟨rfl, rfl, rfl⟩
          · -- an updated row is active and holds the values of the call
            have first : (given.rules.upsertRow row repeated.call commit).row = given.rules.updatedRow row repeated.call := by
              unfold SignalRules.upsertRow
              rw [if_pos updates, if_neg quiet, if_neg reemit, if_neg existing, if_neg idle]
            have active : given.rules.isActive (given.rules.updatedRow row repeated.call) = true := by
              by_cases reactivates : given.rules.shouldReactivate row repeated.call = true
              · exact isActive_pending (if_pos reactivates)
              · have status : (given.rules.updatedRow row repeated.call).status = row.status := if_neg reactivates
                have unskipped : given.rules.statusOf row ≠ "skipped" := fun skipped => idle ⟨skipped, Bool.not_eq_true _ ▸ reactivates⟩
                have kept : given.rules.statusOf row ∉ signalReactivatableStatuses := by
                  unfold SignalRules.shouldReactivate at reactivates
                  rw [if_neg unskipped, decide_eq_true_iff] at reactivates
                  exact reactivates
                rw [SignalRules.isActive, SignalRules.statusOf, status]
                exact decide_eq_true (updates.resolve_right kept)
            rw [first]
            exact holds_updatedRow.noOp active
  · have first : given.rules.upsertRow row repeated.call commit = ⟨row, none, false⟩ := by
      unfold SignalRules.upsertRow
      rw [if_neg updates]
    refine ⟨fun _ expires => ?_, fun _ => ?_⟩
    · rcases expires with ⟨active, _⟩ | ⟨skipped | ⟨pending, _⟩, _⟩
      · exact updates (Or.inl (of_decide_eq_true active))
      · exact updates (Or.inr (by rw [skipped]; decide))
      · exact updates (Or.inl (by rw [pending]; decide))
    · rw [first]
      unfold SignalRules.upsertRow
      rw [if_neg updates]
      exact ⟨rfl, rfl, rfl⟩

end Twice

section Claim
variable [DecidableEq δ]

/-- The same call once more changes nothing exactly when the first one did not force the row to expire. -/
theorem upsertTradeSignal_twice_iff (given : UpsertRules δ) (stored : Option (TradeSignal δ))
    (repeated : RepeatedCall given.rules stored) (commit : Bool) :
    SignalRules.NoOp (given.rules.upsertTradeSignal stored repeated.call commit).row
      (given.rules.upsertTradeSignal (some (given.rules.upsertTradeSignal stored repeated.call commit).row) repeated.again commit) ↔
      ∀ row ∈ stored, ¬ given.rules.Expires row repeated.call := by
  cases stored with
  | none => exact ⟨fun _ _ member => (nomatch member), fun _ => holds_insertedRow.noOp (isActive_pending rfl)⟩
  | some row =>
    refine (upsertRow_twice_iff repeated).trans ⟨fun lives other member => ?_, fun lives => lives row rfl⟩
    exact (Option.some.inj member) ▸ lives

end Claim

def plainUpsertRules : UpsertRules String where
  base := plainRules
  roster := ⟨fun _ => true, fun _ => none, fun marketId _ => marketId, fun markets => markets.head?.map fun market => ⟨market, rfl⟩⟩
  lower_pending := rfl
  lower_expired := rfl

/-- A new price for a row whose expiry was forced into the past, sent twice. -/
def forcedExpiry : RepeatedCall plainUpsertRules.rules (some { pendingSignal with expiresAt := some 5 }) where
  call := signalCall (3 / 4) 300 1
  later := 11
  existing_same := by decide
  cooldown_same := fun row member => by
    rw [← Option.some.inj member]
    rfl

def lateEmit : RepeatedCall plainUpsertRules.rules (some pendingSignal) where
  call := signalCall (3 / 4) 5 1
  later := 11
  existing_same := by decide
  cooldown_same := fun row member => by
    rw [← Option.some.inj member]
    rfl

/-- The second call brings the expired row back and publishes it. -/
theorem expired_twice_reactivates :
    ¬ SignalRules.NoOp (plainUpsertRules.rules.upsertTradeSignal (some { pendingSignal with expiresAt := some 5 }) forcedExpiry.call true).row
      (plainUpsertRules.rules.upsertTradeSignal
        (some (plainUpsertRules.rules.upsertTradeSignal
          (some { pendingSignal with expiresAt := some 5 }) forcedExpiry.call true).row) forcedExpiry.again true) ∧
    ¬ SignalRules.NoOp (plainUpsertRules.rules.upsertTradeSignal (some pendingSignal) lateEmit.call true).row
      (plainUpsertRules.rules.upsertTradeSignal (some (plainUpsertRules.rules.upsertTradeSignal (some pendingSignal) lateEmit.call true).row)
        lateEmit.again true) := by
  refine ⟨fun noOp => ?_, fun noOp => ?_⟩
  · exact (upsertRow_twice_iff forcedExpiry).1 noOp (Or.inr ⟨Or.inr ⟨by decide +kernel, by decide +kernel⟩, by decide +kernel⟩)
  · exact (upsertRow_twice_iff lateEmit).1 noOp (Or.inl ⟨by decide +kernel, by decide +kernel, by decide +kernel⟩)

end Callisto.Signals

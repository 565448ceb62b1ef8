import Callisto.Paper.EvidenceDecoding
import Callisto.Paper.Ledger
import Callisto.Ws.Payload

/-! The canonical request of a decision and of an exit, whose hash tells whether a call with a known id is the same call again. -/

namespace Callisto.Paper.Spelled

open Callisto.Library
open Callisto.Ws (strip)

structure DecisionCall where
  accountId : String
  decisionId : String
  opportunityId : String
  opportunityRevision : String
  action : Action
  quantity : Option String := none
  limitPrice : Option String := none
  timeInForce : TimeInForce := .immediateOrCancel

structure ExitCall where
  accountId : String
  decisionId : String
  positionId : String
  quantity : String
  minimumPrice : String

/-- `str.lower`. Of the letters outside ASCII none has a hexadecimal digit as its small letter, so they are left alone here. -/
def lower (text : String) : String := String.ofList (text.toList.map Char.toLower)

def normalizedRevision (revision : String) : String := lower (strip revision)

/-- `_HASH_PATTERN` -/
def isDigest (text : String) : Bool :=
  text.toList.length = 64 && text.toList.all fun char => ('0' ≤ char && char ≤ '9') || ('a' ≤ char && char ≤ 'f')

def actionText : Action → String
  | .execute => "execute"
  | .pass => "pass"

def textOrNull : Option String → Json
  | none => .null
  | some text => .string text

def decisionPayload (accountId decisionId opportunityId opportunityRevision : String) (action : Action) (quantity limitPrice : Option String)
    (timeInForce : TimeInForce) : List (String × Json) :=
  [("account_id", .string accountId), ("action", .string (actionText action)), ("decision_id", .string decisionId),
    ("limit_price", textOrNull limitPrice), ("opportunity_id", .string opportunityId), ("opportunity_revision", .string opportunityRevision),
    ("quantity", textOrNull quantity)] ++
  if action = .execute ∧ timeInForce = .goodTillCanceled then [("time_in_force", .string "good_till_canceled")] else []

theorem decisionPayload_sorted (accountId decisionId opportunityId opportunityRevision : String) (action : Action)
    (quantity limitPrice : Option String) (timeInForce : TimeInForce) :
    ((decisionPayload accountId decisionId opportunityId opportunityRevision action quantity limitPrice timeInForce).map
      Prod.fst).Pairwise (· < ·) := by
  unfold decisionPayload
  split
  · show ["account_id", "action", "decision_id", "limit_price", "opportunity_id", "opportunity_revision", "quantity",
      "time_in_force"].Pairwise (· < ·)
    decide +kernel
  · show ["account_id", "action", "decision_id", "limit_price", "opportunity_id", "opportunity_revision", "quantity"].Pairwise (· < ·)
    decide +kernel

def exitPayload (accountId decisionId positionId quantity minimumPrice : String) : List (String × Json) :=
  [("account_id", .string accountId), ("action", .string "execute"), ("decision_id", .string decisionId),
    ("minimum_price", .string minimumPrice), ("order_side", .string "sell"), ("position_id", .string positionId),
    ("quantity", .string quantity), ("time_in_force", .string "immediate_or_cancel")]

theorem exitPayload_sorted (accountId decisionId positionId quantity minimumPrice : String) :
    ((exitPayload accountId decisionId positionId quantity minimumPrice).map Prod.fst).Pairwise (· < ·) := by
  show ["account_id", "action", "decision_id", "minimum_price", "order_side", "position_id", "quantity", "time_in_force"].Pairwise (· < ·)
  decide +kernel

variable (digits : DigitTable)

def canonicalTerms (call : DecisionCall) : Except String (Option String × Option String) :=
  match call.action with
  | .execute => do
    let quantity ← parseQuantity digits call.quantity "quantity"
    let limitPrice ← parsePrice digits call.limitPrice "limit_price"
    let canonicalQuantity ← decimalString quantity quantityScale
    let canonicalLimit ← decimalString limitPrice priceScale
    .ok (some canonicalQuantity, some canonicalLimit)
  | .pass =>
    if call.quantity ≠ none ∨ call.limitPrice ≠ none then .error "pass decisions cannot include quantity or limit_price"
    else if call.timeInForce ≠ .immediateOrCancel then .error "pass decisions cannot include good_till_canceled"
    else .ok (none, none)

/-- `record_decision`, up to the text that it hashes -/
def decisionRequest (call : DecisionCall) : Except String (List Char) :=
  let accountId := strip call.accountId
  let decisionId := strip call.decisionId
  let opportunityId := strip call.opportunityId
  let revision := normalizedRevision call.opportunityRevision
  if accountId = "" ∨ decisionId = "" ∨ opportunityId = "" then .error "account_id, decision_id, and opportunity_id are required"
  else if ¬ isDigest revision then .error "opportunity_revision must be a SHA-256 digest"
  else do
    let terms ← canonicalTerms digits call
    .ok (canonicalJson (decisionPayload accountId decisionId opportunityId revision call.action terms.1 terms.2 call.timeInForce)
      (decisionPayload_sorted _ _ _ _ _ _ _ _))

/-- `record_exit`, up to the text that it hashes -/
def exitRequest (call : ExitCall) : Except String (List Char) :=
  let accountId := strip call.accountId
  let decisionId := strip call.decisionId
  let positionId := strip call.positionId
  if accountId = "" ∨ decisionId = "" ∨ positionId = "" then .error "account_id, decision_id, and position_id are required"
  else do
    let quantity ← parseQuantity digits (some call.quantity) "quantity"
    let minimumPrice ← parsePrice digits (some call.minimumPrice) "minimum_price"
    let canonicalQuantity ← decimalString quantity quantityScale
    let canonicalPrice ← decimalString minimumPrice priceScale
    .ok (canonicalJson (exitPayload accountId decisionId positionId canonicalQuantity canonicalPrice) (exitPayload_sorted _ _ _ _ _))

inductive PaperCall where
  | decision (call : DecisionCall)
  | exit (call : ExitCall)

def requestJson : PaperCall → Except String (List Char)
  | .decision call => decisionRequest digits call
  | .exit call => exitRequest digits call

def amount (text : Option String) : Option ℚ := (text.bind fun text => digits.read text.toList).map Decimal.value

/-- Two calls ask for the same: their ids are normalised to the same, and their amounts are the same numbers. -/
def SameFacts : PaperCall → PaperCall → Prop
  | .decision first, .decision second => first.action = second.action ∧ strip first.accountId = strip second.accountId ∧
      strip first.decisionId = strip second.decisionId ∧ strip first.opportunityId = strip second.opportunityId ∧
        normalizedRevision first.opportunityRevision = normalizedRevision second.opportunityRevision ∧
          amount digits first.quantity = amount digits second.quantity ∧ amount digits first.limitPrice = amount digits second.limitPrice ∧
            first.timeInForce = second.timeInForce
  | .exit first, .exit second => strip first.accountId = strip second.accountId ∧ strip first.decisionId = strip second.decisionId ∧
      strip first.positionId = strip second.positionId ∧ amount digits (some first.quantity) = amount digits (some second.quantity) ∧
        amount digits (some first.minimumPrice) = amount digits (some second.minimumPrice)
  | _, _ => False

inductive Canonical (scale : ℕ) : Option String → Option String → Prop
  | none : Canonical scale none none
  | some {text canonical : String} {parsed : Decimal} {units : ℤ} (read : digits.read text.toList = some parsed)
      (counted : parsed.scaled scale = some units) (positive : 0 < units) (written : unitsText units scale = .ok canonical) :
      Canonical scale (some text) (some canonical)

variable {digits}

theorem Canonical.eq_iff {scale : ℕ} {text other canonical same : Option String} (places : 0 < scale)
    (first : Canonical digits scale text canonical) (second : Canonical digits scale other same) :
    canonical = same ↔ amount digits text = amount digits other := by
  cases first with
  | none =>
    cases second with
    | none => exact ⟨fun _ => rfl, fun _ => rfl⟩
    | some read counted positive written => simp [amount, read]
  | some read counted positive written =>
    cases second with
    | none => simp [amount, read]
    | some read' counted' positive' written' =>
      unfold amount
      rw [Option.bind_some, Option.bind_some, read, read', Option.map_some, Option.map_some, Option.some_inj, Option.some_inj,
        Decimal.value_eq_iff counted counted']
      constructor
      · intro equal
        exact unitsText_injective places positive positive' written (equal ▸ written')
      · intro equal
        subst equal
        exact Except.ok.inj (written.symm.trans written')

theorem read_of_parse {value : Option String} {field : String} {scale : ℕ} {parsed : Decimal}
    (found : parseDecimal digits value field scale = .ok parsed) : ∃ text, value = some text ∧ digits.read text.toList = some parsed := by
  unfold parseDecimal at found
  split at found
  · cases found
  · rename_i number read
    split at found
    · cases found
    · cases found
      exact Option.bind_eq_some_iff.1 read

theorem written_of_decimalString {value : Decimal} {scale : ℕ} {units : ℤ} {text : String} (counted : value.scaled scale = some units)
    (written : decimalString value scale = .ok text) : unitsText units scale = .ok text := by
  unfold decimalString toScaledInt at written
  rw [counted] at written
  exact written

theorem canonical_of_parse {value : Option String} {field : String} {scale : ℕ} {parsed : Decimal} {units : ℤ} {text : String}
    (found : parseDecimal digits value field scale = .ok parsed) (counted : parsed.scaled scale = some units) (positive : 0 < units)
    (written : decimalString parsed scale = .ok text) : Canonical digits scale value (some text) := by
  obtain ⟨spelling, rfl, read⟩ := read_of_parse found
  exact .some read counted positive (written_of_decimalString counted written)

theorem canonical_quantity {value : Option String} {field : String} {parsed : Decimal} {text : String}
    (found : parseQuantity digits value field = .ok parsed) (written : decimalString parsed quantityScale = .ok text) :
    Canonical digits quantityScale value (some text) := by
  obtain ⟨units, counted, positive⟩ := parseQuantity_ok found
  exact canonical_of_parse (parseDecimal_of_quantity found) counted positive written

theorem canonical_price {value : Option String} {field : String} {parsed : Decimal} {text : String}
    (found : parsePrice digits value field = .ok parsed) (written : decimalString parsed priceScale = .ok text) :
    Canonical digits priceScale value (some text) := by
  obtain ⟨units, counted, positive, -⟩ := parsePrice_ok found
  exact canonical_of_parse (parseDecimal_of_price found) counted positive written

theorem canonicalTerms_ok {call : DecisionCall} {terms : Option String × Option String} (found : canonicalTerms digits call = .ok terms) :
    Canonical digits quantityScale call.quantity terms.1 ∧ Canonical digits priceScale call.limitPrice terms.2 ∧
      (call.action = .pass → call.timeInForce = .immediateOrCancel) := by
  unfold canonicalTerms at found
  split at found
  · rename_i executes
    obtain ⟨quantity, sized, found⟩ := bind_ok.1 found
    obtain ⟨limitPrice, priced, found⟩ := bind_ok.1 found
    obtain ⟨quantityText, sizeWritten, found⟩ := bind_ok.1 found
    obtain ⟨limitText, priceWritten, found⟩ := bind_ok.1 found
    cases found
    refine ⟨canonical_quantity sized sizeWritten, canonical_price priced priceWritten, fun passes => ?_⟩
    rw [executes] at passes
    cases passes
  · split at found
    · cases found
    · rename_i plain
      split at found
      · cases found
      · rename_i immediate
        cases found
        obtain ⟨noQuantity, noLimit⟩ := not_or.1 plain
        rw [not_not.1 noQuantity, not_not.1 noLimit]
        exact ⟨.none, .none, fun _ => not_not.1 immediate⟩

theorem decisionRequest_ok (call : DecisionCall) {json : List Char} (found : decisionRequest digits call = .ok json) :
    ∃ quantity limitPrice, Canonical digits quantityScale call.quantity quantity ∧ Canonical digits priceScale call.limitPrice limitPrice ∧
      (call.action = .pass → call.timeInForce = .immediateOrCancel) ∧
        json = JsonText.dumps (.object (decisionPayload (strip call.accountId) (strip call.decisionId) (strip call.opportunityId)
          (normalizedRevision call.opportunityRevision) call.action quantity limitPrice call.timeInForce)) := by
  unfold decisionRequest at found
  dsimp only at found
  split at found
  · cases found
  · split at found
    · cases found
    · obtain ⟨terms, settled, found⟩ := bind_ok.1 found
      cases found
      obtain ⟨quantity, limitPrice, immediate⟩ := canonicalTerms_ok settled
      exact ⟨_, _, quantity, limitPrice, immediate, rfl⟩

theorem exitRequest_ok (call : ExitCall) {json : List Char} (found : exitRequest digits call = .ok json) :
    ∃ quantity minimumPrice, Canonical digits quantityScale (some call.quantity) (some quantity) ∧
      Canonical digits priceScale (some call.minimumPrice) (some minimumPrice) ∧
        json = JsonText.dumps (.object (exitPayload (strip call.accountId) (strip call.decisionId) (strip call.positionId) quantity
          minimumPrice)) := by
  unfold exitRequest at found
  dsimp only at found
  split at found
  · cases found
  · obtain ⟨quantity, sized, found⟩ := bind_ok.1 found
    obtain ⟨minimumPrice, priced, found⟩ := bind_ok.1 found
    obtain ⟨quantityText, sizeWritten, found⟩ := bind_ok.1 found
    obtain ⟨priceText, priceWritten, found⟩ := bind_ok.1 found
    cases found
    exact ⟨_, _, canonical_quantity sized sizeWritten, canonical_price priced priceWritten, rfl⟩

theorem dumps_injective {first second : Json} (same : JsonText.dumps first = JsonText.dumps second) : first = second := by
  have read := JsonText.loads_dumps first
  rw [same, JsonText.loads_dumps] at read
  exact (Option.some.inj read).symm

theorem textOrNull_inj {first second : Option String} : textOrNull first = textOrNull second ↔ first = second := by
  cases first <;> cases second <;> simp [textOrNull]

theorem actionText_inj {first second : Action} : actionText first = actionText second ↔ first = second := by
  cases first <;> cases second <;> decide

theorem decision_ne_exit {accountId decisionId opportunityId revision exitAccount exitDecision positionId exitQuantity minimumPrice : String}
    {action : Action} {quantity limitPrice : Option String} {timeInForce : TimeInForce} :
    decisionPayload accountId decisionId opportunityId revision action quantity limitPrice timeInForce ≠
      exitPayload exitAccount exitDecision positionId exitQuantity minimumPrice := by
  intro same
  have names := congrArg (fun payload => (payload.map Prod.fst)[3]?) same
  exact absurd names (by simp [decisionPayload, exitPayload])

theorem decisionPayload_inj {accountId decisionId opportunityId revision otherAccount otherDecision otherOpportunity otherRevision : String}
    {action otherAction : Action} {quantity limitPrice otherQuantity otherLimit : Option String} {timeInForce otherTime : TimeInForce}
    (immediate : action = .pass → timeInForce = .immediateOrCancel) (also : otherAction = .pass → otherTime = .immediateOrCancel) :
    decisionPayload accountId decisionId opportunityId revision action quantity limitPrice timeInForce =
        decisionPayload otherAccount otherDecision otherOpportunity otherRevision otherAction otherQuantity otherLimit otherTime ↔
      action = otherAction ∧ accountId = otherAccount ∧ decisionId = otherDecision ∧ opportunityId = otherOpportunity ∧
        revision = otherRevision ∧ quantity = otherQuantity ∧ limitPrice = otherLimit ∧ timeInForce = otherTime := by
  constructor
  · intro same
    unfold decisionPayload at same
    simp only [List.cons_append, List.nil_append, List.cons.injEq, Prod.mk.injEq, true_and, Json.string.injEq, textOrNull_inj,
      actionText_inj] at same
    obtain ⟨account, acts, decision, limit, opportunity, revised, amount, rest⟩ := same
    refine ⟨acts, account, decision, opportunity, revised, amount, limit, ?_⟩
    subst acts
    cases action with
    | pass => rw [immediate rfl, also rfl]
    | execute => cases timeInForce <;> cases otherTime <;> simp at rest ⊢
  · intro same
    obtain ⟨rfl, rfl, rfl, rfl, rfl, rfl, rfl, rfl⟩ := same
    rfl

/-- Two accepted calls have one canonical request exactly if they ask for the same. -/
theorem requestJson_eq_iff {first second : PaperCall} {json other : List Char} (found : requestJson digits first = .ok json)
    (also : requestJson digits second = .ok other) : json = other ↔ SameFacts digits first second := by
  unfold requestJson at found also
  cases first with
  | decision first =>
    dsimp only at found
    obtain ⟨quantity, limitPrice, sized, priced, immediate, rfl⟩ := decisionRequest_ok first found
    cases second with
    | decision second =>
      dsimp only at also
      obtain ⟨otherQuantity, otherLimit, otherSized, otherPriced, otherImmediate, rfl⟩ := decisionRequest_ok second also
      unfold SameFacts
      dsimp only
      rw [← sized.eq_iff (by decide) otherSized, ← priced.eq_iff (by decide) otherPriced, ← decisionPayload_inj immediate otherImmediate]
      exact ⟨fun same => Json.object.inj (dumps_injective same), fun same => congrArg _ (congrArg _ same)⟩
    | exit second =>
      dsimp only at also
      obtain ⟨otherQuantity, minimumPrice, -, -, rfl⟩ := exitRequest_ok second also
      exact ⟨fun same => decision_ne_exit (Json.object.inj (dumps_injective same)), fun same => same.elim⟩
  | exit first =>
    dsimp only at found
    obtain ⟨quantity, minimumPrice, sized, priced, rfl⟩ := exitRequest_ok first found
    cases second with
    | decision second =>
      dsimp only at also
      obtain ⟨otherQuantity, otherLimit, -, -, -, rfl⟩ := decisionRequest_ok second also
      exact ⟨fun same => decision_ne_exit (Json.object.inj (dumps_injective same)).symm, fun same => same.elim⟩
    | exit second =>
      dsimp only at also
      obtain ⟨otherQuantity, otherPrice, otherSized, otherPriced, rfl⟩ := exitRequest_ok second also
      unfold SameFacts
      dsimp only
      rw [← sized.eq_iff (by decide) otherSized, ← priced.eq_iff (by decide) otherPriced, Option.some_inj, Option.some_inj]
      constructor
      · intro same
        have payloads := Json.object.inj (dumps_injective same)
        unfold exitPayload at payloads
        simp only [List.cons.injEq, Prod.mk.injEq, true_and, Json.string.injEq, and_true] at payloads
        obtain ⟨account, decision, price, position, amount⟩ := payloads
        exact ⟨account, decision, position, amount, price⟩
      · intro same
        obtain ⟨account, decision, position, amount, price⟩ := same
        rw [account, decision, position, amount, price]

end Callisto.Paper.Spelled

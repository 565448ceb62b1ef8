import Mathlib.Data.List.Perm.Basic
import Mathlib.Data.Multiset.UnionInter
import Callisto.Library.Decimals
import Callisto.Ws.Payload

/-! The decision parity report: what the live path records of an opportunity, what the replay derives from it, and the diff of the two. -/

namespace Callisto.Backtest.Parity

open Callisto.Library.Decimals (roundTo)
open Callisto.Ws (strip)

structure DecisionIdentity where
  strategyType : Option String
  tokenId : Option String
  direction : Option String
  entryPrice : Option ℚ
  edgeBucket : Option ℚ
  deriving DecidableEq

/-- A single-leg position that carries a token, a market, an action and an outcome; the optional keys may be absent. -/
structure Position where
  tokenId : String
  marketId : String
  action : String
  outcome : String
  direction : Option String
  side : Option String
  price : Option ℚ
  entryPrice : Option ℚ
  carries : tokenId ≠ "" ∧ marketId ≠ "" ∧ action ≠ "" ∧ outcome ≠ ""

/-- A leg of an execution plan, the fields that the contract reads. -/
structure PlanLeg where
  marketId : String
  side : String
  outcome : Option String
  limitPrice : Option ℚ

/-- An opportunity with one position. The plan's legs are empty where it carries none; `marketFallback` is the id of its first market,
its event or itself, and `contextEdge` the edge of its strategy context. -/
structure Opportunity where
  strategy : String
  position : Position
  planLegs : List PlanLeg
  marketFallback : String
  edgePercent : Option ℚ
  contextEdge : Option ℚ
  roiPercent : ℚ

/-- What the decision topic carries of a decision, the fields that its identity reads. -/
structure DecisionPayload where
  marketId : String
  strategyType : Option String
  direction : Option String
  entryPrice : Option ℚ
  edgePercent : Option ℚ

def textOrNone (text : String) : Option String := if text = "" then none else some text

def round4 (value : Option ℚ) : Option ℚ := value.map (roundTo 4)

theorem round4_some (value : ℚ) : round4 (some value) = some (roundTo 4 value) := rfl

/-- The first of two values that is present and not zero, else the second. -/
def firstNonzero (first second : Option ℚ) : Option ℚ :=
  match first with
  | none => second
  | some value => if value = 0 then second else some value

section
variable (lower : String → String)

/-- `_direction_from_outcome` -/
def directionFromOutcome (outcome : Option String) : Option String :=
  let text := strip (lower (outcome.getD ""))
  if text = "yes" then some "buy_yes" else if text = "no" then some "buy_no" else none

/-- The leg that `_normalize_execution_plan` builds from a position; a price that is not positive is no limit. -/
def legOfPosition (position : Position) : PlanLeg :=
  ⟨strip position.marketId, lower (strip position.action), textOrNone (lower (strip position.outcome)), position.price.filter fun price => 0 < price⟩

/-- `_primary_plan_leg`: the first leg that buys, else the first. -/
def primaryPlanLeg (legs : List PlanLeg) : Option PlanLeg :=
  (legs.find? fun leg => lower (strip leg.side) = "buy").or legs.head?

namespace Opportunity

/-- The primary leg of the opportunity's own plan, or of the plan that is built from its position. -/
def primaryLeg (opportunity : Opportunity) : Option PlanLeg :=
  if opportunity.planLegs = [] then
    if strip opportunity.position.marketId = "" then none else some (legOfPosition lower opportunity.position)
  else primaryPlanLeg lower opportunity.planLegs

def contractMarketId (opportunity : Opportunity) : String :=
  let planned := (opportunity.primaryLeg lower).elim "" PlanLeg.marketId
  if planned = "" then opportunity.marketFallback else planned

def contractDirection (opportunity : Opportunity) : Option String :=
  directionFromOutcome lower ((opportunity.primaryLeg lower).bind PlanLeg.outcome)

def contractEntryPrice (opportunity : Opportunity) : Option ℚ :=
  ((opportunity.primaryLeg lower).bind PlanLeg.limitPrice).or opportunity.position.price

def liveEdge (opportunity : Opportunity) : ℚ := (opportunity.edgePercent.or opportunity.contextEdge).getD opportunity.roiPercent

/-- The edge that the replay finds as `expected_roi`. -/
def replayedEdge (opportunity : Opportunity) : ℚ := opportunity.edgePercent.getD opportunity.roiPercent

def decisionPayload (opportunity : Opportunity) : DecisionPayload where
  marketId := if opportunity.contractMarketId lower = "" then "unknown" else opportunity.contractMarketId lower
  strategyType := some (strip opportunity.strategy)
  direction := some (strip ((opportunity.contractDirection lower).getD ""))
  entryPrice := opportunity.contractEntryPrice lower
  edgePercent := some opportunity.liveEdge

end Opportunity

namespace DecisionIdentity

def fromRecordedPayload (payload : DecisionPayload) : DecisionIdentity where
  strategyType := payload.strategyType.bind textOrNone
  tokenId := textOrNone payload.marketId
  direction := (payload.direction.bind textOrNone).map lower
  entryPrice := round4 payload.entryPrice
  edgeBucket := round4 payload.edgePercent

/-- The first of the texts that is there, as `or` chains them. -/
def directionText (position : Position) : Option String :=
  ((position.direction.bind textOrNone).or (position.side.bind textOrNone)).or (textOrNone position.action)

def fromPosition (strategyType : String) (position : Position) (oppEdge : ℚ) : DecisionIdentity where
  strategyType := textOrNone strategyType
  tokenId := (textOrNone position.tokenId).or (textOrNone position.marketId)
  direction := (directionText position).map lower
  entryPrice := round4 (firstNonzero position.price position.entryPrice)
  edgeBucket := round4 (some oppEdge)

end DecisionIdentity

def recordedIdentities (opportunities : List Opportunity) : List DecisionIdentity :=
  opportunities.map fun opportunity => DecisionIdentity.fromRecordedPayload lower (opportunity.decisionPayload lower)

/-- The identities of a replay of the strategy that derives the same opportunities. -/
def replayedIdentities (slug : String) (opportunities : List Opportunity) : List DecisionIdentity :=
  opportunities.map fun opportunity => DecisionIdentity.fromPosition lower slug opportunity.position opportunity.replayedEdge

end

/-- `diff_identities`, with the counters as multisets: how many match, what is missing from the replay, and what it has in excess. -/
def diffIdentities (replayed recorded : List DecisionIdentity) : ℕ × Multiset DecisionIdentity × Multiset DecisionIdentity :=
  let replayedCounter : Multiset DecisionIdentity := replayed
  let recordedCounter : Multiset DecisionIdentity := recorded
  ((replayedCounter ∩ recordedCounter).card, recordedCounter - replayedCounter, replayedCounter - recordedCounter)

structure ParityReport where
  matched : ℕ
  missingFromReplay : Multiset DecisionIdentity
  extraInReplay : Multiset DecisionIdentity
  deterministic : Option Bool

namespace ParityReport

def of (replayed recorded : List DecisionIdentity) (deterministic : Option Bool) : ParityReport :=
  let diff := diffIdentities replayed recorded
  ⟨diff.1, diff.2.1, diff.2.2, deterministic⟩

def ok (report : ParityReport) : Prop := report.deterministic ≠ some false ∧ report.missingFromReplay = 0 ∧ report.extraInReplay = 0

end ParityReport

theorem ok_iff_perm {deterministic : Option Bool} (notRefuted : deterministic ≠ some false) (replayed recorded : List DecisionIdentity) :
    (ParityReport.of replayed recorded deterministic).ok ↔ recorded.Perm replayed := by
  change (_ ∧ (recorded : Multiset DecisionIdentity) - (replayed : Multiset DecisionIdentity) = 0 ∧
    (replayed : Multiset DecisionIdentity) - (recorded : Multiset DecisionIdentity) = 0) ↔ _
  rw [tsub_eq_zero_iff_le, tsub_eq_zero_iff_le, ← Multiset.coe_eq_coe]
  exact ⟨fun held => le_antisymm held.2.1 held.2.2, fun same => ⟨notRefuted, same.le, same.ge⟩⟩

/-- Two mapped lists are permutations of each other exactly when the second list can be reordered so that the images agree place by place. -/
theorem perm_map_iff {α β γ : Type} {first : α → γ} {second : β → γ} {items : List α} {others : List β} :
    (items.map first).Perm (others.map second) ↔ ∃ partners : List β, partners.Perm others ∧
      List.Forall₂ (fun item partner => first item = second partner) items partners := by
  constructor
  · intro perm
    have aligned : List.Forall₂ (fun image partner => image = second partner) (others.map second) others := by
      rw [List.forall₂_map_left_iff]
      exact List.forall₂_same.2 fun _ _ => rfl
    obtain ⟨partners, agree, reordered⟩ := List.perm_comp_forall₂ perm aligned
    exact ⟨partners, reordered, List.forall₂_map_left_iff.1 agree⟩
  · intro pairing
    obtain ⟨partners, reordered, agree⟩ := pairing
    have same : items.map first = partners.map second := by
      rw [← List.forall₂_eq_eq_eq, List.forall₂_map_left_iff, List.forall₂_map_right_iff]
      exact agree
    rw [same]
    exact reordered.map second

section
variable (lower : String → String)

/-- What an opportunity says of its market, outcome and limit: the first leg of its plan that buys, else its first leg, else its
position, as far as that names a market. -/
inductive Says (opportunity : Opportunity) : String → Option String → Option ℚ → Prop
  | buying (before after : List PlanLeg) (leg : PlanLeg) : opportunity.planLegs = before ++ leg :: after →
      lower (strip leg.side) = "buy" → (∀ other ∈ before, lower (strip other.side) ≠ "buy") →
      Says opportunity leg.marketId leg.outcome leg.limitPrice
  | first (leg : PlanLeg) (rest : List PlanLeg) : opportunity.planLegs = leg :: rest →
      (∀ other ∈ leg :: rest, lower (strip other.side) ≠ "buy") → Says opportunity leg.marketId leg.outcome leg.limitPrice
  | position : opportunity.planLegs = [] → strip opportunity.position.marketId ≠ "" →
      Says opportunity (strip opportunity.position.marketId) (textOrNone (lower (strip opportunity.position.outcome)))
        (opportunity.position.price.filter fun price => 0 < price)
  | unnamed : opportunity.planLegs = [] → strip opportunity.position.marketId = "" → Says opportunity "" none none

/-- The replay of an opportunity answers to what another says: its token is the other's market (or the fallback of that), its direction,
side or action spells a buy of the other's outcome, which is yes or no, and its price and edge are the other's to four digits. -/
structure Answers (live replayed : Opportunity) (market : String) (outcome : Option String) (limit : Option ℚ) : Prop where
  token : replayed.position.tokenId = market ∨
    market = "" ∧ (replayed.position.tokenId = live.marketFallback ∨ live.marketFallback = "" ∧ replayed.position.tokenId = "unknown")
  direction : ∃ text, DecisionIdentity.directionText replayed.position = some text ∧
    (strip (lower (outcome.getD "")) = "yes" ∧ lower text = lower "buy_yes" ∨
      strip (lower (outcome.getD "")) = "no" ∧ lower text = lower "buy_no")
  price : round4 (limit.or live.position.price) = round4 (firstNonzero replayed.position.price replayed.position.entryPrice)
  edge : roundTo 4 live.liveEdge = roundTo 4 replayed.replayedEdge

/-- The live strategy is the replayed one, and the replay answers to what the live opportunity says. -/
def Agrees (slug : String) (live replayed : Opportunity) : Prop :=
  strip live.strategy = slug ∧ ∃ market outcome limit, Says lower live market outcome limit ∧
    Answers lower live replayed market outcome limit

variable {lower}

theorem payload_marketId_ne (live : Opportunity) : (live.decisionPayload lower).marketId ≠ "" := by
  unfold Opportunity.decisionPayload
  by_cases empty : live.contractMarketId lower = ""
  · simp only [if_pos empty]
    decide
  · simp only [if_neg empty]
    exact empty

theorem textOrNone_of_ne {text : String} (nonempty : text ≠ "") : textOrNone text = some text := if_neg nonempty

theorem fromRecordedPayload_decisionPayload (live : Opportunity) : DecisionIdentity.fromRecordedPayload lower (live.decisionPayload lower) =
    ⟨textOrNone (strip live.strategy), some (live.decisionPayload lower).marketId,
      (textOrNone (strip ((live.contractDirection lower).getD ""))).map lower, round4 (live.contractEntryPrice lower),
        some (roundTo 4 live.liveEdge)⟩ := by
  rw [DecisionIdentity.fromRecordedPayload, textOrNone_of_ne (payload_marketId_ne live)]
  simp only [Opportunity.decisionPayload, Option.bind_some, round4_some]

theorem fromPosition_eq (slug : String) (position : Position) (edge : ℚ) :
    DecisionIdentity.fromPosition lower slug position edge =
      ⟨textOrNone slug, some position.tokenId, (DecisionIdentity.directionText position).map lower,
      round4 (firstNonzero position.price position.entryPrice), some (roundTo 4 edge)⟩ := by
  rw [DecisionIdentity.fromPosition, textOrNone_of_ne position.carries.1, Option.some_or, round4_some]

theorem primaryPlanLeg_some {legs : List PlanLeg} {leg : PlanLeg} (chosen : primaryPlanLeg lower legs = some leg) :
    (∃ before after, legs = before ++ leg :: after ∧ lower (strip leg.side) = "buy" ∧ ∀ other ∈ before, lower (strip other.side) ≠ "buy") ∨
      ∃ rest, legs = leg :: rest ∧ ∀ other ∈ leg :: rest, lower (strip other.side) ≠ "buy" := by
  unfold primaryPlanLeg at chosen
  cases found : legs.find? fun leg => lower (strip leg.side) = "buy" with
  | some buying =>
    rw [found, Option.some_or] at chosen
    cases chosen
    obtain ⟨buys, before, after, split, silent⟩ := List.find?_eq_some_iff_append.1 found
    refine Or.inl ⟨before, after, split, of_decide_eq_true buys, fun other member => ?_⟩
    simpa using silent other member
  | none =>
    rw [found, Option.none_or] at chosen
    obtain ⟨rest, rfl⟩ := List.head?_eq_some_iff.1 chosen
    refine Or.inr ⟨rest, rfl, fun other member => ?_⟩
    simpa using List.find?_eq_none.1 found other member

theorem primaryPlanLeg_buying {before after : List PlanLeg} {leg : PlanLeg} (buys : lower (strip leg.side) = "buy")
    (silent : ∀ other ∈ before, lower (strip other.side) ≠ "buy") : primaryPlanLeg lower (before ++ leg :: after) = some leg := by
  have found : (before ++ leg :: after).find? (fun leg => lower (strip leg.side) = "buy") = some leg :=
    List.find?_eq_some_iff_append.2 ⟨decide_eq_true buys, before, after, rfl, fun other member => by simpa using silent other member⟩
  rw [primaryPlanLeg, found, Option.some_or]

theorem primaryPlanLeg_first {leg : PlanLeg} {rest : List PlanLeg} (silent : ∀ other ∈ leg :: rest, lower (strip other.side) ≠ "buy") :
    primaryPlanLeg lower (leg :: rest) = some leg := by
  have found : (leg :: rest).find? (fun leg => lower (strip leg.side) = "buy") = none :=
    List.find?_eq_none.2 fun other member => by simpa using silent other member
  rw [primaryPlanLeg, found, Option.none_or, List.head?_cons]

theorem says_iff {live : Opportunity} {market : String} {outcome : Option String} {limit : Option ℚ} :
    Says lower live market outcome limit ↔ market = (live.primaryLeg lower).elim "" PlanLeg.marketId ∧
      outcome = (live.primaryLeg lower).bind PlanLeg.outcome ∧ limit = (live.primaryLeg lower).bind PlanLeg.limitPrice := by
  constructor
  · intro said
    unfold Opportunity.primaryLeg
    cases said with
    | buying before after leg legs buys silent =>
      rw [if_neg (by simp [legs]), legs, primaryPlanLeg_buying buys silent]
      exact ⟨rfl, rfl, rfl⟩
    | first leg rest legs silent =>
      rw [if_neg (by simp [legs]), legs, primaryPlanLeg_first silent]
      exact ⟨rfl, rfl, rfl⟩
    | position legs named =>
      rw [if_pos legs, if_neg named]
      exact ⟨rfl, rfl, rfl⟩
    | unnamed legs named =>
      rw [if_pos legs, if_pos named]
      exact ⟨rfl, rfl, rfl⟩
  · rintro ⟨rfl, rfl, rfl⟩
    unfold Opportunity.primaryLeg
    by_cases legs : live.planLegs = []
    · rw [if_pos legs]
      by_cases named : strip live.position.marketId = ""
      · rw [if_pos named]
        exact .unnamed legs named
      · rw [if_neg named]
        exact .position legs named
    · rw [if_neg legs]
      cases chosen : primaryPlanLeg lower live.planLegs with
      | none =>
        obtain ⟨none_, empty⟩ := Option.or_eq_none_iff.1 chosen
        exact absurd (List.head?_eq_none_iff.1 empty) legs
      | some leg =>
        rcases primaryPlanLeg_some chosen with ⟨before, after, split, buys, silent⟩ | ⟨rest, split, silent⟩
        · exact .buying before after leg split buys silent
        · exact .first leg rest split silent

theorem textOrNone_inj {one other : String} : textOrNone one = textOrNone other ↔ one = other := by
  unfold textOrNone
  split_ifs with first second second
  · simp [first, second]
  · simp [first, Ne.symm second]
  · simp [first, second]
  · exact Option.some_inj

theorem token_iff {live replayed : Opportunity} : (live.decisionPayload lower).marketId = replayed.position.tokenId ↔
    replayed.position.tokenId = (live.primaryLeg lower).elim "" PlanLeg.marketId ∨ (live.primaryLeg lower).elim "" PlanLeg.marketId = "" ∧
      (replayed.position.tokenId = live.marketFallback ∨ live.marketFallback = "" ∧ replayed.position.tokenId = "unknown") := by
  have carried := replayed.position.carries.1
  simp only [Opportunity.decisionPayload]
  by_cases planned : (live.primaryLeg lower).elim "" PlanLeg.marketId = ""
  · have named : live.contractMarketId lower = live.marketFallback := if_pos planned
    simp only [named]
    by_cases fallback : live.marketFallback = ""
    · simp [planned, fallback, carried, eq_comm]
    · simp [planned, fallback, carried, eq_comm]
  · have named : live.contractMarketId lower = (live.primaryLeg lower).elim "" PlanLeg.marketId := if_neg planned
    simp only [named, if_neg planned, or_iff_left fun both : _ ∧ _ => planned both.1]
    exact eq_comm

theorem direction_iff {live replayed : Opportunity} :
    (textOrNone (strip ((live.contractDirection lower).getD ""))).map lower = (DecisionIdentity.directionText replayed.position).map lower ↔
      ∃ text, DecisionIdentity.directionText replayed.position = some text ∧
        (strip (lower (((live.primaryLeg lower).bind PlanLeg.outcome).getD "")) = "yes" ∧ lower text = lower "buy_yes" ∨
          strip (lower (((live.primaryLeg lower).bind PlanLeg.outcome).getD "")) = "no" ∧ lower text = lower "buy_no") := by
  obtain ⟨text, named⟩ : ∃ text, DecisionIdentity.directionText replayed.position = some text := by
    unfold DecisionIdentity.directionText
    rw [textOrNone_of_ne replayed.position.carries.2.2.1]
    exact Option.isSome_iff_exists.1 (by simp)
  rw [named]
  simp only [Option.some_inj, exists_eq_left', Option.map_some, Opportunity.contractDirection, directionFromOutcome]
  split_ifs with yes no
  · have spelled : textOrNone (strip ((some "buy_yes").getD "")) = some "buy_yes" := by decide +kernel
    rw [spelled]
    simp [yes, eq_comm]
  · have spelled : textOrNone (strip ((some "buy_no").getD "")) = some "buy_no" := by decide +kernel
    rw [spelled]
    simp [no, eq_comm]
  · have spelled : textOrNone (strip ((none : Option String).getD "")) = none := by decide +kernel
    rw [spelled]
    simp [yes, no]

theorem agrees_iff {slug : String} {live replayed : Opportunity} :
    DecisionIdentity.fromRecordedPayload lower (live.decisionPayload lower) =
      DecisionIdentity.fromPosition lower slug replayed.position replayed.replayedEdge ↔
      Agrees lower slug live replayed := by
  rw [fromRecordedPayload_decisionPayload, fromPosition_eq, DecisionIdentity.mk.injEq, Option.some_inj, Option.some_inj, textOrNone_inj,
    token_iff, direction_iff]
  constructor
  · rintro ⟨strategy, token, direction, price, edge⟩
    exact ⟨strategy, _, _, _, says_iff.2 ⟨rfl, rfl, rfl⟩, ⟨token, direction, price, edge⟩⟩
  · rintro ⟨strategy, _, _, _, said, answers⟩
    obtain ⟨rfl, rfl, rfl⟩ := says_iff.1 said
    exact ⟨strategy, answers.token, answers.direction, answers.price, answers.edge⟩

/-- The oracle recognises the replay of the same opportunities exactly when they can be paired off so that what is recorded of each one is what the
replay derives from its partner. -/
theorem parity_iff (slug : String) (opportunities : List Opportunity) {deterministic : Option Bool} (notRefuted : deterministic ≠ some false) :
    ((recordedIdentities lower opportunities).Perm (replayedIdentities lower slug opportunities) ∧
      (ParityReport.of (replayedIdentities lower slug opportunities) (recordedIdentities lower opportunities) deterministic).ok) ↔
      ∃ partners : List Opportunity, partners.Perm opportunities ∧ List.Forall₂ (Agrees lower slug) opportunities partners := by
  have agree : (fun live replayed : Opportunity => DecisionIdentity.fromRecordedPayload lower (live.decisionPayload lower) =
      DecisionIdentity.fromPosition lower slug replayed.position replayed.replayedEdge) = Agrees lower slug := by
    funext live replayed
    exact propext agrees_iff
  rw [ok_iff_perm notRefuted, and_self, ← agree]
  exact perm_map_iff

end

def buyYes : Position := ⟨"token", "market", "buy", "yes", none, none, some (1 / 2), none, by decide⟩

def buyYesOpportunity : Opportunity := ⟨"slug", buyYes, [], "event", some 5, none, 5⟩

/-- One opportunity that buys an outcome of a market: recorded under its market, replayed under its token. -/
theorem differ_buyYes : recordedIdentities id [buyYesOpportunity] = [⟨some "slug", some "market", some "buy_yes", some (1 / 2), some 5⟩] ∧
    replayedIdentities id "slug" [buyYesOpportunity] = [⟨some "slug", some "token", some "buy", some (1 / 2), some 5⟩] ∧
    ¬ (ParityReport.of (replayedIdentities id "slug" [buyYesOpportunity]) (recordedIdentities id [buyYesOpportunity]) (some true)).ok := by
  have recorded : recordedIdentities id [buyYesOpportunity] =
    [⟨some "slug", some "market", some "buy_yes", some (1 / 2), some 5⟩] := by decide +kernel
  have replayed : replayedIdentities id "slug" [buyYesOpportunity] =
    [⟨some "slug", some "token", some "buy", some (1 / 2), some 5⟩] := by decide +kernel
  refine ⟨recorded, replayed, ?_⟩
  rw [ok_iff_perm (by decide), recorded, replayed, List.singleton_perm_singleton]
  decide

/-- A position whose token is its market and that spells its direction. -/
def spelledYes : Position := ⟨"market", "market", "buy", "yes", some "buy_yes", none, some (1 / 2), none, by decide⟩

def spelledOpportunity : Opportunity := ⟨"slug", spelledYes, [], "event", none, none, 5⟩

theorem parity_iff_spelled : (recordedIdentities id [spelledOpportunity]).Perm
      (replayedIdentities id "slug" [spelledOpportunity]) ∧
    (ParityReport.of (replayedIdentities id "slug" [spelledOpportunity])
      (recordedIdentities id [spelledOpportunity]) (some true)).ok := by
  refine (parity_iff "slug" [spelledOpportunity] (by decide)).2 ⟨_, List.Perm.refl _, .cons ?_ .nil⟩
  have strategy : strip spelledOpportunity.strategy = "slug" := by decide +kernel
  have token : spelledYes.tokenId = strip spelledYes.marketId := by decide +kernel
  have outcome : strip (id ((textOrNone (id (strip spelledYes.outcome))).getD "")) = "yes" := by decide +kernel
  have price : round4 ((spelledYes.price.filter fun price => 0 < price).or spelledYes.price) =
      round4 (firstNonzero spelledYes.price spelledYes.entryPrice) := by decide +kernel
  exact ⟨strategy, _, _, _, .position rfl (by decide +kernel), ⟨Or.inl token, ⟨"buy_yes", rfl, Or.inl ⟨outcome, rfl⟩⟩, price, rfl⟩⟩

end Callisto.Backtest.Parity

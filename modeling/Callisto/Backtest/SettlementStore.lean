import Callisto.Backtest.Engine
import Callisto.Ws.Payload

/-! Records of resolved markets, and the settlement prices of their tokens. -/

namespace Callisto.Backtest

open Callisto.Library
open Callisto.Ws (strip)

structure TokenMarketMeta where
  tokenId : String
  conditionId : Option String
  slug : Option String
  resolutionTime : Option Instant

structure MarketResolveHint where
  conditionId : String
  slug : Option String
  tokenIds : List String
  upToken : Option String
  downToken : Option String
  tokenOutcomes : List (String × String)
  resolutionTime : Option Instant

structure SettlementRecord where
  conditionId : String
  slug : Option String
  winningTokenId : Option String
  winningOutcome : Option String
  tokenIds : List String
  resolutionTime : Option Instant
  coinPriceStart : Option ℚ
  coinPriceEnd : Option ℚ
  resolved : Bool
  source : String

structure MarketResolution where
  winnerOutcome : Option String
  coinPriceStart : Option ℚ
  coinPriceEnd : Option ℚ
  source : String

def truthy (text : Option String) : Option String := text.filter fun text => text ≠ ""

/-- `_winning_token_from_resolution`; `upper` is that of the strings. -/
def winningTokenFromResolution (upper : String → String) (hint : MarketResolveHint) (resolution : MarketResolution) : Option String × Option String :=
  let label := resolution.winnerOutcome
  let w := upper (strip (label.getD ""))
  if w = "" then (none, none)
  else match (if w = "UP" then truthy hint.upToken else none).or (if w = "DOWN" then truthy hint.downToken else none) with
  | some token => (some token, label)
  | none => ((hint.tokenOutcomes.find? fun entry => upper (strip entry.2) = w).map Prod.fst, label)

/-- The record that `_resolve_and_store` makes of a hint. -/
def resolvedRecord (upper : String → String) (hint : MarketResolveHint) (resolution : Option MarketResolution) : SettlementRecord :=
  let won := match resolution with
    | some resolution => winningTokenFromResolution upper hint resolution
    | none => (none, none)
  { conditionId := hint.conditionId
    slug := hint.slug
    winningTokenId := won.1
    winningOutcome := won.2
    tokenIds := hint.tokenIds
    resolutionTime := hint.resolutionTime
    coinPriceStart := resolution.bind MarketResolution.coinPriceStart
    coinPriceEnd := resolution.bind MarketResolution.coinPriceEnd
    resolved := won.1.isSome
    source := match resolution with
      | some resolution => if resolution.source = "" then "resolver" else resolution.source
      | none => "" }

def resolveAndStore (upper : String → String) (resolutions : MarketResolveHint → Option MarketResolution) (hints : List MarketResolveHint) :
    Dict String SettlementRecord :=
  hints.foldl (fun records hint => records.set hint.conditionId (resolvedRecord upper hint (resolutions hint))) Dict.empty

def SettlementRecord.winner (record : SettlementRecord) : Option String := if record.resolved then truthy record.winningTokenId else none

def TokenMarketMeta.condition (given : TokenMarketMeta) : String := strip (given.conditionId.getD "")

def TokenMarketMeta.record (records : Dict String SettlementRecord) (given : TokenMarketMeta) : Option SettlementRecord :=
  if given.condition = "" then none else records.get? given.condition

/-- A settlement as the store hands it on, with the market that it is from. -/
structure StoredSettlement extends TokenSettlement where
  tokenId : String
  conditionId : Option String
  source : String
  deriving DecidableEq

/-- The entry of a token under its market's record; a winner that is not known leaves the price open. -/
def entryOf (given : TokenMarketMeta) (record : SettlementRecord) (settlePrice : Option ℚ) : Option StoredSettlement :=
  let resolutionTime := record.resolutionTime.or given.resolutionTime
  if settlePrice = none ∧ resolutionTime = none then none
  else some { tokenId := given.tokenId, settlePrice := settlePrice, resolutionTime := resolutionTime, winningOutcome := record.winningOutcome,
              conditionId := some given.condition, source := record.source }

/-- One round of the loop of `build_token_settlements`. -/
def tokenSettlement (records : Dict String SettlementRecord) (given : TokenMarketMeta) : Option StoredSettlement :=
  (given.record records).bind fun record =>
    match record.winner with
    | some winner =>
      -- a known list of tokens guards against a token of another market
      if record.tokenIds ≠ [] ∧ given.tokenId ∉ record.tokenIds then none
      else entryOf given record (some (if given.tokenId = winner then 1 else 0))
    | none => entryOf given record none

def buildTokenSettlements (tokenMeta : List TokenMarketMeta) (records : Dict String SettlementRecord) : Dict String StoredSettlement :=
  tokenMeta.foldl (fun out given =>
    match tokenSettlement records given with
    | some settlement => out.set given.tokenId settlement
    | none => out) Dict.empty

def settlePriceOf (out : Dict String StoredSettlement) (tokenId : String) : Option ℚ :=
  (out.get? tokenId).bind fun settlement => settlement.settlePrice

def redeemed (out : Dict String StoredSettlement) (tokenId : String) (size : ℚ) : ℚ := size * (settlePriceOf out tokenId).getD 0

def Covered (tokenMeta : List TokenMarketMeta) (condition : String) (record : SettlementRecord) : Prop :=
  ∀ tokenId ∈ record.tokenIds, ∃ given ∈ tokenMeta, given.tokenId = tokenId ∧ given.condition = condition

/-- The settlements of known markets: one winner or no price, nothing from a market to which the token does not belong, and a pair that is
redeemed for its size. -/
structure SettlesMarkets (tokenMeta : List TokenMarketMeta) (records : Dict String SettlementRecord) : Prop where
  one_winner : ∀ condition record, condition ≠ "" → records.get? condition = some record → record.tokenIds ≠ [] → Covered tokenMeta condition record →
    (∃ winner ∈ record.tokenIds, ∀ tokenId ∈ record.tokenIds,
      settlePriceOf (buildTokenSettlements tokenMeta records) tokenId = some (if tokenId = winner then 1 else 0)) ∨
    ∀ tokenId ∈ record.tokenIds, settlePriceOf (buildTokenSettlements tokenMeta records) tokenId = none
  own_market : ∀ tokenId settlement condition record, (buildTokenSettlements tokenMeta records).get? tokenId = some settlement →
    settlement.conditionId = some condition → records.get? condition = some record → record.tokenIds ≠ [] → tokenId ∈ record.tokenIds
  pair : ∀ condition record first second, condition ≠ "" → records.get? condition = some record → record.tokenIds = [first, second] → first ≠ second →
    Covered tokenMeta condition record → record.winner.isSome → ∀ size,
      redeemed (buildTokenSettlements tokenMeta records) first size + redeemed (buildTokenSettlements tokenMeta records) second size = size

/-- The row whose entry stands for a token: the last of its rows that makes one. -/
def standingRow (tokenMeta : List TokenMarketMeta) (records : Dict String SettlementRecord) (tokenId : String) : Option TokenMarketMeta :=
  tokenMeta.reverse.find? fun given => given.tokenId = tokenId ∧ (tokenSettlement records given).isSome

def SettlementRecord.verdict (record : SettlementRecord) (tokenId : String) : Option ℚ :=
  record.winner.map fun winner => if tokenId = winner then 1 else 0

/-- The standing row of a token of a known market, all of whose tokens are in the metadata, is of this market or of one that makes
the same of the token. -/
def OneMarket (tokenMeta : List TokenMarketMeta) (records : Dict String SettlementRecord) : Prop :=
  ∀ condition record, condition ≠ "" → records.get? condition = some record → record.tokenIds ≠ [] →
    Covered tokenMeta condition record → ∀ tokenId ∈ record.tokenIds, ∀ given ∈ standingRow tokenMeta records tokenId,
      given.condition = condition ∨ ∀ other, given.record records = some other → other.verdict tokenId = record.verdict tokenId

/-- The tokens of a known market include its winner, and every token that an unresolved record gives a resolution time. -/
structure Listed (tokenMeta : List TokenMarketMeta) (records : Dict String SettlementRecord) : Prop where
  winners : ∀ condition record winner, condition ≠ "" → records.get? condition = some record → record.tokenIds ≠ [] →
    Covered tokenMeta condition record → record.winner = some winner → winner ∈ record.tokenIds
  unresolved : ∀ tokenId, ∀ given ∈ standingRow tokenMeta records tokenId, ∀ record, given.record records = some record →
    record.winner = none → record.tokenIds ≠ [] → tokenId ∈ record.tokenIds

section Entries
variable {tokenMeta : List TokenMarketMeta} {records : Dict String SettlementRecord} {given : TokenMarketMeta} {record : SettlementRecord}

theorem get?_build (tokenMeta : List TokenMarketMeta) (records : Dict String SettlementRecord) (tokenId : String) :
    (buildTokenSettlements tokenMeta records).get? tokenId =
      (standingRow tokenMeta records tokenId).bind (tokenSettlement records) := by
  induction tokenMeta using List.reverseRecOn with
  | nil => rfl
  | append_singleton before last ih =>
    unfold buildTokenSettlements standingRow at *
    rw [List.foldl_append, List.foldl_cons, List.foldl_nil, List.reverse_concat, List.find?_cons]
    cases settled : tokenSettlement records last with
    | none => simp [ih]
    | some entry =>
      dsimp only
      rw [Dict.get?_set]
      by_cases same : last.tokenId = tokenId
      · simp [same, settled]
      · simp [same, ih]

theorem standingRow_some {tokenId : String} (stands : standingRow tokenMeta records tokenId = some given) :
    given ∈ tokenMeta ∧ given.tokenId = tokenId ∧ (tokenSettlement records given).isSome := by
  have chosen := List.find?_some stands
  rw [decide_eq_true_eq] at chosen
  exact ⟨List.mem_reverse.1 (List.mem_of_find?_eq_some stands), chosen⟩

theorem standingRow_isSome (member : given ∈ tokenMeta) (settled : (tokenSettlement records given).isSome) :
    (standingRow tokenMeta records given.tokenId).isSome :=
  List.find?_isSome.2 ⟨given, List.mem_reverse.2 member, decide_eq_true ⟨rfl, settled⟩⟩

theorem entryOf_some {settlePrice : Option ℚ} {settlement : StoredSettlement}
    (entered : entryOf given record settlePrice = some settlement) :
    settlement.settlePrice = settlePrice ∧ settlement.conditionId = some given.condition := by
  unfold entryOf at entered
  dsimp only at entered
  split at entered
  · exact nomatch entered
  · rw [← Option.some.inj entered]
    exact ⟨rfl, rfl⟩

theorem tokenSettlement_some {settlement : StoredSettlement} (settled : tokenSettlement records given = some settlement) :
    ∃ record, given.record records = some record ∧ settlement.conditionId = some given.condition ∧
      settlement.settlePrice = record.verdict given.tokenId ∧
      (record.winner ≠ none → record.tokenIds ≠ [] → given.tokenId ∈ record.tokenIds) := by
  have ⟨record, held, entered⟩ := Option.bind_eq_some_iff.1 settled
  refine ⟨record, held, ?_⟩
  unfold SettlementRecord.verdict
  cases won : record.winner with
  | none =>
    rw [won] at entered
    have ⟨price, condition⟩ := entryOf_some entered
    exact ⟨condition, price, fun winning => absurd rfl winning⟩
  | some winner =>
    rw [won] at entered
    dsimp only at entered
    split at entered
    · exact nomatch entered
    · next own =>
      have ⟨price, condition⟩ := entryOf_some entered
      exact ⟨condition, price, fun _ known => not_not.1 fun foreign => own ⟨known, foreign⟩⟩

theorem tokenSettlement_won {winner : String} (held : given.record records = some record) (won : record.winner = some winner)
    (own : given.tokenId ∈ record.tokenIds) : (tokenSettlement records given).isSome := by
  unfold tokenSettlement
  rw [held, Option.bind_some, won]
  dsimp only
  rw [if_neg fun guarded => guarded.2 own]
  rfl

theorem record_of_condition {condition : String} (named : condition ≠ "") (held : records.get? condition = some record)
    (same : given.condition = condition) : given.record records = some record := by
  unfold TokenMarketMeta.record
  rw [same, if_neg named]
  exact held

theorem condition_of_record (held : given.record records = some record) :
    given.condition ≠ "" ∧ records.get? given.condition = some record := by
  unfold TokenMarketMeta.record at held
  split at held
  · cases held
  · next named => exact ⟨named, held⟩

end Entries

section Markets
variable {tokenMeta : List TokenMarketMeta} {records : Dict String SettlementRecord} {condition tokenId : String} {record : SettlementRecord}

theorem OneMarket.price (one : OneMarket tokenMeta records) (named : condition ≠ "") (held : records.get? condition = some record)
    (known : record.tokenIds ≠ []) (covered : Covered tokenMeta condition record) (own : tokenId ∈ record.tokenIds) :
    settlePriceOf (buildTokenSettlements tokenMeta records) tokenId = record.verdict tokenId := by
  rw [settlePriceOf, get?_build]
  cases stands : standingRow tokenMeta records tokenId with
  | some given =>
    have ⟨member, token, settles⟩ := standingRow_some stands
    have ⟨settlement, settled⟩ := Option.isSome_iff_exists.1 settles
    have ⟨other, otherHeld, _, price, _⟩ := tokenSettlement_some settled
    rw [Option.bind_some, settled, Option.bind_some, price, token]
    cases one condition record named held known covered tokenId own given stands with
    | inl same => rw [Option.some.inj (otherHeld.symm.trans (record_of_condition named held same))]
    | inr alike => exact alike other otherHeld
  | none =>
    rw [SettlementRecord.verdict]
    cases won : record.winner with
    | none => rfl
    | some winner =>
      have ⟨given, member, token, same⟩ := covered tokenId own
      have row := standingRow_isSome member (tokenSettlement_won (record_of_condition named held same) won (token ▸ own))
      rw [token, stands] at row
      cases row

theorem settlesMarkets_of_listed (one : OneMarket tokenMeta records) (listed : Listed tokenMeta records) : SettlesMarkets tokenMeta records where
  one_winner condition record named held known covered := by
    have price : ∀ tokenId ∈ record.tokenIds, _ = record.winner.map _ := fun tokenId own => one.price named held known covered own
    cases won : record.winner with
    | none =>
      rw [won] at price
      exact Or.inr price
    | some winner =>
      rw [won] at price
      exact Or.inl ⟨winner, listed.winners condition record winner named held known covered won, price⟩
  own_market tokenId settlement condition record found conditionId held known := by
    rw [get?_build] at found
    have ⟨given, stands, settled⟩ := Option.bind_eq_some_iff.1 found
    have ⟨own, own_held, own_condition, _, guarded⟩ := tokenSettlement_some settled
    have same := (condition_of_record own_held).2
    rw [Option.some.inj (own_condition.symm.trans conditionId), held] at same
    cases same
    cases won : record.winner with
    | none => exact listed.unresolved tokenId given stands record own_held won known
    | some winner => exact (standingRow_some stands).2.1 ▸ guarded (won ▸ nofun) known
  pair condition record first second named held tokens different covered resolved size := by
    have known : record.tokenIds ≠ [] := by
      rw [tokens]
      exact List.cons_ne_nil _ _
    have ⟨winner, won⟩ := Option.isSome_iff_exists.1 resolved
    have winner_listed := listed.winners condition record winner named held known covered won
    have price : ∀ tokenId ∈ record.tokenIds, _ = record.winner.map _ := fun tokenId own => one.price named held known covered own
    rw [tokens] at winner_listed price
    rw [won] at price
    unfold redeemed
    rw [price first List.mem_cons_self, price second (List.mem_cons_of_mem _ List.mem_cons_self), Option.map_some, Option.map_some,
      Option.getD_some, Option.getD_some]
    rcases List.mem_cons.1 winner_listed with same | rest
    · rw [if_pos same.symm, if_neg (same ▸ different.symm), mul_one, mul_zero, add_zero]
    · have same := List.mem_singleton.1 rest
      rw [if_pos same.symm, if_neg (same ▸ different), mul_one, mul_zero, zero_add]

theorem unresolved_of_own_market (settles : SettlesMarkets tokenMeta records) {given : TokenMarketMeta}
    (stands : standingRow tokenMeta records tokenId = some given) (held : given.record records = some record) (known : record.tokenIds ≠ []) :
    tokenId ∈ record.tokenIds := by
  have ⟨settlement, settled⟩ := Option.isSome_iff_exists.1 (standingRow_some stands).2.2
  have ⟨_, _, own_condition, _⟩ := tokenSettlement_some settled
  have found : (buildTokenSettlements tokenMeta records).get? tokenId = some settlement := by
    rw [get?_build, stands]
    exact settled
  exact settles.own_market tokenId settlement given.condition record found own_condition (condition_of_record held).2 known

theorem listed_of_settlesMarkets (one : OneMarket tokenMeta records) (settles : SettlesMarkets tokenMeta records) : Listed tokenMeta records where
  winners condition record winner named held known covered won := by
    have price : ∀ tokenId ∈ record.tokenIds, _ = record.winner.map _ := fun tokenId own => one.price named held known covered own
    rw [won] at price
    rcases settles.one_winner condition record named held known covered with ⟨redeemed_token, member, all⟩ | none_priced
    · have own := (price redeemed_token member).symm.trans (all redeemed_token member)
      rw [if_pos rfl, Option.map_some] at own
      by_cases same : redeemed_token = winner
      · exact same ▸ member
      · rw [if_neg same] at own
        exact absurd (Option.some.inj own) zero_ne_one
    · have ⟨tokenId, member⟩ := List.exists_mem_of_ne_nil _ known
      exact nomatch (price tokenId member).symm.trans (none_priced tokenId member)
  unresolved _ _ stands _ held _ known := unresolved_of_own_market settles stands held known

end Markets

/-- Where no foreign row settles a token of a known market otherwise, known markets settle exactly when their lists are complete. -/
theorem settlesMarkets_listed (tokenMeta : List TokenMarketMeta) (records : Dict String SettlementRecord) :
    (OneMarket tokenMeta records ∧ Listed tokenMeta records → SettlesMarkets tokenMeta records) ∧
      (OneMarket tokenMeta records → SettlesMarkets tokenMeta records → Listed tokenMeta records) :=
  ⟨fun good => settlesMarkets_of_listed good.1 good.2, listed_of_settlesMarkets⟩

/-- A market of two tokens whose hint names a third one as the token of UP. -/
def strayUp : MarketResolveHint := ⟨"m", none, ["a", "b"], some "c", none, [], none⟩

def upWins : MarketResolution := ⟨some "UP", none, none, "gamma"⟩

def bothLegs : List TokenMarketMeta := [⟨"a", some "m", none, none⟩, ⟨"b", some "m", none, none⟩]

/-- Both legs of the market settle at nothing. -/
theorem strayUp_settles_no_leg : ¬ SettlesMarkets bothLegs (resolveAndStore id (fun _ => some upWins) [strayUp]) := by
  intro settles
  have nothing : ∀ tokenId ∈ ["a", "b"],
      settlePriceOf (buildTokenSettlements bothLegs (resolveAndStore id (fun _ => some upWins) [strayUp])) tokenId = some 0 := by
    decide +kernel
  have covered : Covered bothLegs "m" (resolvedRecord id strayUp (some upWins)) := by
    unfold Covered
    decide +kernel
  rcases settles.one_winner "m" (resolvedRecord id strayUp (some upWins)) (by decide) (by rfl) (by decide) covered with
    ⟨winner, member, all⟩ | none_priced
  · have won := (nothing winner member).symm.trans (all winner member)
    rw [if_pos rfl] at won
    exact absurd (Option.some.inj won) zero_ne_one
  · exact nomatch (nothing "a" List.mem_cons_self).symm.trans (none_priced "a" List.mem_cons_self)

end Callisto.Backtest

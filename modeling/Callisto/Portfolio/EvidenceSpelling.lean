import Callisto.Portfolio.EvidenceOrder
import Callisto.Venues.KalshiPayload

/-! Two payloads that parse to equal records are one evidence exactly where their decimals are spelled alike. -/

namespace Callisto.Venues

namespace KalshiOrder

def decimals (order : KalshiOrder) : List KalshiDecimal :=
  [order.yesPrice, order.noPrice, order.fillCount, order.remainingCount, order.initialCount, order.takerFees, order.makerFees,
    order.takerFillCost, order.makerFillCost]

def plain (order : KalshiOrder) : KalshiOrder :=
  { order with
    yesPrice := .zero, noPrice := .zero, fillCount := .zero, remainingCount := .zero, initialCount := .zero, takerFees := .zero,
    makerFees := .zero, takerFillCost := .zero, makerFillCost := .zero }

/-- `==` of the dataclass: decimals are compared as numbers. -/
def SameValue (first second : KalshiOrder) : Prop :=
  first.plain = second.plain ∧ first.decimals.map KalshiDecimal.units = second.decimals.map KalshiDecimal.units

instance (first second : KalshiOrder) : Decidable (first.SameValue second) := inferInstanceAs (Decidable (_ ∧ _))

theorem eq_of_decimals {first second : KalshiOrder} (plain : first.plain = second.plain) (decimals : first.decimals = second.decimals) :
    first = second := by
  cases first
  cases second
  simp only [KalshiOrder.plain, KalshiOrder.decimals, KalshiOrder.mk.injEq, List.cons.injEq] at plain decimals ⊢
  grind

end KalshiOrder

namespace KalshiFill

def decimals (fill : KalshiFill) : List KalshiDecimal := [fill.count, fill.yesPrice, fill.noPrice, fill.feeCost]

def plain (fill : KalshiFill) : KalshiFill := { fill with count := .zero, yesPrice := .zero, noPrice := .zero, feeCost := .zero }

/-- `==` of the dataclass: decimals are compared as numbers. -/
def SameValue (first second : KalshiFill) : Prop :=
  first.plain = second.plain ∧ first.decimals.map KalshiDecimal.units = second.decimals.map KalshiDecimal.units

instance (first second : KalshiFill) : Decidable (first.SameValue second) := inferInstanceAs (Decidable (_ ∧ _))

theorem eq_of_decimals {first second : KalshiFill} (plain : first.plain = second.plain) (decimals : first.decimals = second.decimals) :
    first = second := by
  cases first
  cases second
  simp only [KalshiFill.plain, KalshiFill.decimals, KalshiFill.mk.injEq, List.cons.injEq] at plain decimals ⊢
  grind

end KalshiFill

end Callisto.Venues

namespace Callisto.Portfolio

open Callisto.Library Callisto.Venues

/-- The orders of a page that `_find_current_orders` matches: a snapshot of a known id must equal the one before. -/
def findCurrentOrders (clientOrderId : String) : List KalshiOrder → Dict String KalshiOrder → Except String (Dict String KalshiOrder)
  | [], found => .ok found
  | order :: rest, found =>
    if order.clientOrderId ≠ clientOrderId then findCurrentOrders clientOrderId rest found
    else
      match found.get? order.orderId with
      | none => findCurrentOrders clientOrderId rest (found.set order.orderId order)
      | some existing =>
        if existing.SameValue order then findCurrentOrders clientOrderId rest (found.set order.orderId order)
        else .error "one provider_order_id returned conflicting order snapshots"

/-- The fills of a page that `_get_current_fills` collects, as far as it compares them. -/
def collectFills : List KalshiFill → Dict String KalshiFill → Except String (Dict String KalshiFill)
  | [], found => .ok found
  | fill :: rest, found =>
    match found.get? fill.fillId with
    | none => collectFills rest (found.set fill.fillId fill)
    | some existing =>
      if existing.SameValue fill then collectFills rest found else .error "one fill_id returned conflicting fill evidence"

/-- The coverage layer and the reconciliation take the two snapshots for one: the hashes agree, and the pair raises nothing that
one snapshot alone does not raise, and reports no conflict. -/
structure OneOrder (sha : Sha256) (first second : KalshiOrder) : Prop where
  hash : orderHash sha first = orderHash sha second
  raises : (∃ alone, dedupeOrders sha [first] = .ok alone) → ∃ kept, dedupeOrders sha [first, second] = .ok kept
  agrees : ∀ kept conflicts, dedupeOrders sha [first, second] = .ok (kept, conflicts) → conflicts = []
  reconciled : ∃ found, findCurrentOrders first.clientOrderId [first, second] .empty = .ok found

structure OneFill (sha : Sha256) (first second : KalshiFill) : Prop where
  hash : fillHash sha first = fillHash sha second
  deduped : ∃ kept, dedupeFills [first, second] = .ok kept
  merged : ∃ kept, mergeFills [(first.fillId, first)] [(second.fillId, second)] = .ok kept
  reconciled : ∃ found, collectFills [first, second] .empty = .ok found

section Orders

variable {sha : Sha256} {first second : KalshiOrder}

theorem orderPayload_inj (payload : orderPayload sha first = orderPayload sha second) :
    first.decimals = second.decimals := by
  have yesPrice := congrArg OrderPayload.yesPrice payload
  have noPrice := congrArg OrderPayload.noPrice payload
  have fillCount := congrArg OrderPayload.fillCount payload
  have remainingCount := congrArg OrderPayload.remainingCount payload
  have initialCount := congrArg OrderPayload.initialCount payload
  have takerFees := congrArg OrderPayload.takerFees payload
  have makerFees := congrArg OrderPayload.makerFees payload
  have takerFillCost := congrArg OrderPayload.takerFillCost payload
  have makerFillCost := congrArg OrderPayload.makerFillCost payload
  simp only [orderPayload] at *
  simp only [KalshiOrder.decimals, yesPrice, noPrice, fillCount, remainingCount, initialCount, takerFees, makerFees, takerFillCost, makerFillCost]

theorem reconciled_orders (same : first.SameValue second) : ∃ found, findCurrentOrders first.clientOrderId [first, second] .empty = .ok found := by
  have client : second.clientOrderId = first.clientOrderId := (congrArg KalshiOrder.clientOrderId same.1).symm
  have id : second.orderId = first.orderId := (congrArg KalshiOrder.orderId same.1).symm
  simp [findCurrentOrders, client, id, Dict.get?_set, same]

theorem dedupeOrders_pair (sha : Sha256) (order : KalshiOrder) {kept : ById KalshiOrder} {conflicts : List String}
    (done : dedupeOrders sha [order] = .ok (kept, conflicts)) : dedupeOrders sha [order, order] = .ok (kept, conflicts) ∧ conflicts = [] := by
  have members : ∀ other, other ∈ [order] ↔ other ∈ [order, order] := by simp
  have distinct : Distinct sha [order] := by
    intro one here other there _
    rw [List.mem_singleton.1 here, List.mem_singleton.1 there]
  have single : ∀ name, groupOf KalshiOrder.orderId name [order] = [order] ∨ groupOf KalshiOrder.orderId name [order] = [] := by
    intro name
    by_cases named : order.orderId = name
    · exact Or.inl (by simp [groupOf, named])
    · exact Or.inr (by simp [groupOf, named])
  have quiet : ∀ name kept, selectOrder sha name (groupOf KalshiOrder.orderId name [order]) = .ok kept → kept.2 = [] := by
    intro name kept selected
    have all : ∀ one ∈ groupOf KalshiOrder.orderId name [order], one = order := fun one member =>
      List.mem_singleton.1 (mem_groupOf.1 member).1
    have calm : ¬ Conflicting sha (groupOf KalshiOrder.orderId name [order]) := by
      intro conflicting
      obtain ⟨one, here, other, there, differ⟩ := conflicting
      exact differ (by rw [all one here, all other there])
    obtain ⟨timed, times, _, silent⟩ := selectOrder_agreeing calm selected
    apply silent.2
    intro differing
    obtain ⟨one, here, other, there, _, differ⟩ := differing
    exact differ (by rw [all _ ((mem_timed times one).1 here).1, all _ ((mem_timed times other).1 there).1])
  constructor
  · exact dedupeOrders_congr members distinct done
  · obtain ⟨selected, read, same⟩ := dedupeOrders_ok.1 done
    rw [show conflicts = selected.flatMap Prod.snd from congrArg Prod.snd same]
    apply List.flatMap_eq_nil_iff.2
    intro entry member
    obtain ⟨name, _, found⟩ := (mem_of_mapM read entry).1 member
    obtain ⟨choice, decided, equal⟩ := keepOrder_ok.1 found
    rw [equal]
    exact quiet name choice decided

/-- Snapshots of equal value whose hashes do not collide are one evidence exactly if their decimals are spelled alike. -/
theorem orderSnapshots_iff (same : first.SameValue second)
    (noCollision : orderHash sha first = orderHash sha second → orderPayload sha first = orderPayload sha second) :
    OneOrder sha first second ↔ first.decimals = second.decimals := by
  constructor
  · intro one
    exact orderPayload_inj (noCollision one.hash)
  · intro alike
    have equal : second = first := (KalshiOrder.eq_of_decimals same.1 alike).symm
    subst equal
    constructor
    · rfl
    · intro alone
      have ⟨⟨kept, conflicts⟩, done⟩ := alone
      exact ⟨_, (dedupeOrders_pair sha second done).1⟩
    · intro kept conflicts done
      have ⟨⟨only, quiet⟩, alone⟩ : ∃ alone, dedupeOrders sha [second] = .ok alone := by
        rw [dedupeOrders_succeeds]
        intro undated
        have ⟨order, member, rest⟩ := undated
        refine dedupeOrders_succeeds.1 ⟨_, done⟩ ⟨order, List.mem_cons_of_mem _ member, rest.1, ?_⟩
        intro conflicting
        have ⟨one, here, other, there, differ⟩ := conflicting
        have all : ∀ snapshot ∈ [second, second], snapshot = second := by simp
        exact differ (by rw [all one (mem_groupOf.1 here).1, all other (mem_groupOf.1 there).1])
      have ⟨both, silent⟩ := dedupeOrders_pair sha second alone
      rw [both] at done
      cases done
      exact silent
    · exact reconciled_orders same

end Orders

section Fills

variable {sha : Sha256} {first second : KalshiFill}

theorem reconciled_fills (same : first.SameValue second) : ∃ found, collectFills [first, second] .empty = .ok found := by
  have id : second.fillId = first.fillId := (congrArg KalshiFill.fillId same.1).symm
  simp [collectFills, id, Dict.get?_set, same]

/-- Fills of equal value whose hashes do not collide are one evidence exactly if their decimals are spelled alike. -/
theorem fillSnapshots_iff (same : first.SameValue second) (noCollision : fillHash sha first = fillHash sha second → first = second) :
    OneFill sha first second ↔ first.decimals = second.decimals := by
  constructor
  · intro one
    rw [noCollision one.hash]
  · intro alike
    have equal : second = first := (KalshiFill.eq_of_decimals same.1 alike).symm
    subst equal
    have agreeing : ¬ Divergent [second, second] := by
      intro divergent
      have ⟨one, here, other, there, _, differ⟩ := divergent
      have all : ∀ fill ∈ [second, second], fill = second := by simp
      exact differ (by rw [all one here, all other there])
    exact ⟨rfl, dedupeFills_succeeds.2 agreeing, dedupeFills_succeeds.2 agreeing, reconciled_fills same⟩

end Fills

/-- Payloads that parse to equal records are one evidence exactly if their decimals are spelled alike, unless their hashes collide. -/
theorem parsedEvidence_iff (sha : Sha256) (decimal : String → Option Decimal) (firstPayload secondPayload : Ws.Fields) :
    (∀ first second, KalshiOrder.fromPayload decimal firstPayload = .ok first → KalshiOrder.fromPayload decimal secondPayload = .ok second →
      first.SameValue second → (orderHash sha first = orderHash sha second → orderPayload sha first = orderPayload sha second) →
        (OneOrder sha first second ↔ first.decimals = second.decimals)) ∧
    (∀ first second, KalshiFill.fromPayload decimal firstPayload = .ok first → KalshiFill.fromPayload decimal secondPayload = .ok second →
      first.SameValue second → (fillHash sha first = fillHash sha second → first = second) →
        (OneFill sha first second ↔ first.decimals = second.decimals)) :=
  ⟨fun _ _ _ _ same noCollision => orderSnapshots_iff same noCollision, fun _ _ _ _ same noCollision => fillSnapshots_iff same noCollision⟩

section Spellings

def readSpelling : String → Option Decimal
  | "0" => some { coefficient := 0, exponent := 0 }
  | "1" => some { coefficient := 1, exponent := 0 }
  | "0.5" => some { coefficient := 5, exponent := -1 }
  | "0.50" => some { coefficient := 50, exponent := -2 }
  | _ => none

def placesHashes : Sha256 where
  user := fun userId => userId
  evidence := fun
    | .order payload => if payload.yesPrice.places = 1 then "one" else "other"
    | .identity identity => if identity.yesPrice.places = 1 then "one" else "other"
    | .fill payload => if payload.yesPrice.places = 1 then "one" else "other"
    | .selection _ _ => "selection"

def wireOrder (yesPrice : String) : Ws.Fields :=
  [("order_id", .str "order"), ("user_id", .str "user"), ("client_order_id", .str "client"), ("ticker", .str "T"),
    ("outcome_side", .str "yes"), ("book_side", .str "bid"), ("type", .str "limit"), ("status", .str "resting"),
    ("yes_price_dollars", .str yesPrice), ("no_price_dollars", .str "0.5"), ("fill_count_fp", .str "0"),
    ("remaining_count_fp", .str "1"), ("initial_count_fp", .str "1"), ("taker_fees_dollars", .str "0"),
    ("maker_fees_dollars", .str "0"), ("taker_fill_cost_dollars", .str "0"), ("maker_fill_cost_dollars", .str "0"),
    ("created_time", .str "2026-01-01T00:00:00Z")]

def wireFill : Ws.Fields :=
  [("fill_id", .str "fill"), ("trade_id", .str "fill"), ("order_id", .str "order"), ("ticker", .str "T"), ("market_ticker", .str "T"),
    ("outcome_side", .str "yes"), ("book_side", .str "bid"), ("count_fp", .str "1"), ("yes_price_dollars", .str "0.5"),
    ("no_price_dollars", .str "0.5"), ("fee_cost", .str "0"), ("is_taker", .bool true)]

/-- One payload read twice. -/
theorem parsedEvidence_iff_alike : ∃ order fill,
    KalshiOrder.fromPayload readSpelling (wireOrder "0.5") = .ok order ∧ OneOrder placesHashes order order ∧
      KalshiFill.fromPayload readSpelling wireFill = .ok fill ∧ OneFill placesHashes fill fill := by
  refine ⟨_, _, rfl, ?_, rfl, ?_⟩
  · exact ((parsedEvidence_iff placesHashes readSpelling (wireOrder "0.5") (wireOrder "0.5")).1 _ _ rfl rfl ⟨rfl, rfl⟩ fun _ => rfl).2 rfl
  · exact ((parsedEvidence_iff placesHashes readSpelling wireFill wireFill).2 _ _ rfl rfl ⟨rfl, rfl⟩ fun _ => rfl).2 rfl

/-- A price of 0.5 and of 0.50: equal orders, and two evidences. -/
theorem trailingZero_splits : ∃ first second,
    KalshiOrder.fromPayload readSpelling (wireOrder "0.5") = .ok first ∧ KalshiOrder.fromPayload readSpelling (wireOrder "0.50") = .ok second ∧
      first.SameValue second ∧ ¬ OneOrder placesHashes first second := by
  refine ⟨_, _, rfl, rfl, by decide, ?_⟩
  intro one
  exact absurd one.hash (by decide)

end Spellings

end Callisto.Portfolio

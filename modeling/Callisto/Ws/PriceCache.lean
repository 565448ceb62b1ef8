import Callisto.Library.Decimals
import Callisto.Ws.OrderbookHistory
import Callisto.Ws.Payload

/-! The legacy feed of Kalshi books: every message replaces the cached book of its market. -/

namespace Callisto.Ws

open Callisto.Library
open Callisto.Library.Decimals (roundTo)

structure OrderBookLevel where
  price : ℚ
  size : Option ℚ
  deriving DecidableEq

structure OrderBook where
  bids : List OrderBookLevel
  asks : List OrderBookLevel
  deriving DecidableEq

/-- What `float` makes of a value: a number, plus infinity, or one that passes no comparison here. -/
inductive FloatReading where
  | finite (value : ℚ)
  | infinite
  | other

/-- `float` of a text; none where it raises. -/
abbrev FloatText := String → Option FloatReading

/-- The books of `PriceCache._entries`. -/
abbrev PriceCache := Dict String OrderBook

def sortBids (bids : List OrderBookLevel) : List OrderBookLevel := bids.insertionSort fun first second => second.price ≤ first.price

def sortAsks (asks : List OrderBookLevel) : List OrderBookLevel := asks.insertionSort fun first second => first.price ≤ second.price

/-- `PriceCache.update`, as far as `get_order_book` shows it. -/
def PriceCache.update (cache : PriceCache) (tokenId : String) (bids asks : List OrderBookLevel) : PriceCache :=
  Dict.set cache tokenId ⟨sortBids bids, sortAsks asks⟩

def Json.truthy : Json → Bool
  | .null => false
  | .bool value => value
  | .int value => value ≠ 0
  | .float value => value ≠ 0
  | .str value => value ≠ ""
  | .arr items => !items.isEmpty
  | .obj fields => !fields.isEmpty

section Feed

variable (float : FloatText)

def floatOf : Json → Option FloatReading
  | .int value => some (.finite value)
  | .float value => some (.finite value)
  | .bool value => some (.finite (if value then 1 else 0))
  | .str text => float text
  | _ => none

/-- A level from its raw price, in cents where it is above one, and its size. -/
def levelOf : Option FloatReading → Option FloatReading → Option OrderBookLevel
  | some (.finite rawPrice), some size =>
    let price := if 1 < rawPrice then rawPrice / 100 else rawPrice
    if 0 < price ∧ price < 1 then
      match size with
      | .finite size => if 0 < size then some ⟨price, some size⟩ else none
      | .infinite => some ⟨price, none⟩
      | .other => none
    else none
  | _, _ => none

/-- One entry of `_parse_kalshi_levels`; an entry that is skipped is none. -/
def kalshiLevel : Json → Option OrderBookLevel
  | .arr (price :: size :: _) => levelOf (floatOf float price) (floatOf float size)
  | .obj fields => levelOf (floatOf float ((Dict.find "price" fields).getD (.int 0)))
      (floatOf float ((Dict.find "quantity" fields).getD ((Dict.find "size" fields).getD (.int 0))))
  | _ => none

/-- The entries that a loop over a value visits; a value that cannot be looped over raises. -/
def entriesOf : Json → Option (List Json)
  | .arr items => some items
  | .obj fields => some (fields.map fun field => .str field.1)
  | .str text => some (text.toList.map fun char => .str char.toString)
  | _ => none

/-- `_parse_kalshi_levels` -/
def parseKalshiLevels (raw : Json) : Option (List OrderBookLevel) := (entriesOf raw).map fun entries => entries.filterMap (kalshiLevel float)

def impliedBid (level : OrderBookLevel) : OrderBookLevel := ⟨roundTo 4 (1 - level.price), level.size⟩

/-- The two ladders that `_apply_orderbook` reads of a message, as YES offers and NO offers; none where it raises. -/
def readBook (message : Fields) : Option (List OrderBookLevel × List OrderBookLevel) := do
  let book ← match Dict.find "orderbook" message with
    | none => some message
    | some (.obj fields) => some fields
    | some _ => none
  let yes ← parseKalshiLevels float ((Dict.find "yes" book).getD (.arr []))
  let no ← parseKalshiLevels float ((Dict.find "no" book).getD (.arr []))
  some (yes, no)

/-- `_apply_orderbook`; where it raises the cache stays as it is. -/
def applyOrderbook (message : Fields) (cache : PriceCache) : PriceCache :=
  match Dict.find "market_ticker" message with
  | some (.str ticker) =>
    if ticker = "" then cache
    else match readBook float message with
      | none => cache
      | some (yes, no) => cache.update ticker ((no.filter fun level => level.price < 1).map impliedBid) yes
  | _ => cache

/-- The payload that `_handle_message` takes from a message. -/
def messagePayload (data : Fields) : Json :=
  match (Dict.find "msg" data).filter Json.truthy with
  | some payload => payload
  | none => ((Dict.find "data" data).filter Json.truthy).getD (.obj data)

/-- `_handle_message` of the legacy feed, for a message whose type is a text. -/
def handleMessage (data : Fields) (cache : PriceCache) : PriceCache :=
  let type := match Dict.find "type" data with
    | some (.str type) => type
    | _ => ""
  match messagePayload data with
  | .obj payload =>
    if "orderbook".toList <:+: type.toList ∨ (Dict.find "market_ticker" payload).isSome then applyOrderbook float payload cache else cache
  | _ => cache

end Feed

/-- The bids and the asks of YES that a view implies, best first; prices in dollars and quantities in contracts. -/
def KalshiOrderbookView.bids (view : KalshiOrderbookView) : List OrderBookLevel :=
  view.yesLevels.levels.reverse.map fun level => ⟨level.1 / priceUnits, some (level.2 / 100)⟩

def KalshiOrderbookView.asks (view : KalshiOrderbookView) : List OrderBookLevel :=
  view.noLevels.levels.reverse.map fun level => ⟨1 - level.1 / priceUnits, some (level.2 / 100)⟩

def KalshiOrderbookView.book (view : KalshiOrderbookView) : OrderBook := ⟨view.bids, view.asks⟩

def readFrame (ops : TextOps) (frame : Fields) : Reader OrderbookCall :=
  match Dict.find "type" frame with
  | some (.str type) =>
    if type = "orderbook_snapshot" then (KalshiOrderbookSnapshot.fromPayload ops frame).map .snapshot
    else (KalshiOrderbookDelta.fromPayload ops frame).map .delta
  | _ => .error "type must be 'orderbook_snapshot'"

structure BookPaths where
  state : KalshiOrderbookState
  cache : PriceCache

namespace BookPaths

variable (ops : TextOps) (float : FloatText)

def step (paths : BookPaths) (frame : Fields) : BookPaths where
  state := match readFrame ops frame with
    | .ok call => (paths.state.apply call).1
    | .error _ => paths.state
  cache := handleMessage float frame paths.cache

/-- The state accepts the frame and keeps its continuity; all levels stay strictly between zero and a dollar. -/
def Accepts (paths : BookPaths) (frame : Fields) : Prop :=
  ∃ call view, readFrame ops frame = .ok call ∧ (paths.state.apply call).2 = .ok view ∧
    (∀ level ∈ view.yesLevels.levels, 0 < level.1 ∧ level.1 < priceUnits) ∧ ∀ level ∈ view.noLevels.levels, 0 < level.1 ∧ level.1 < priceUnits

/-- After the frame, the cached book of the market is the reconstructed one. -/
def Agrees (paths : BookPaths) (frame : Fields) : Prop :=
  ∀ view, (paths.step ops float frame).state.view = some view → (paths.step ops float frame).cache.get? view.marketTicker = some view.book

end BookPaths

end Callisto.Ws

import Mathlib.Data.Rat.Defs
import Mathlib.Data.Rat.Floor
import Callisto.Library.TimeSeries
import Callisto.MarketData.OrderedMerge

/-! The view of recorded books over a window: the rows of a token are loaded from its covering files into a series, and the series of the
requested tokens are merged. Beside it stands the replay from memory. Times are in microseconds. -/

namespace Callisto.MarketData

open Callisto.Library Callisto.Library.TimeSeries

/-- A row of the snapshot schema; a level is a price and a size. -/
structure BookRow where
  tokenId : String
  observedAtUs : Option ℤ
  sequence : Option ℤ := none
  spreadBps : Option ℚ := none
  bids : List (Option ℚ × Option ℚ) := []
  asks : List (Option ℚ × Option ℚ) := []
  tradePrice : Option ℚ := none
  tradeSize : Option ℚ := none
  tradeSide : Option String := none
  deriving DecidableEq

structure BookSnapshot where
  tokenId : String
  observedAt : ℤ
  sequence : Option ℤ
  spreadBps : Option ℚ
  tradePrice : Option ℚ
  tradeSize : Option ℚ
  tradeSide : Option String
  topBid : Option ℚ
  topAsk : Option ℚ
  bidsRaw : List (ℚ × ℚ)
  asksRaw : List (ℚ × ℚ)
  deriving DecidableEq

def rawLevels (descending : Bool) (levels : List (Option ℚ × Option ℚ)) : List (ℚ × ℚ) :=
  ((levels.map fun level => (level.1.getD 0, level.2.getD 0)).filter fun level => 0 < level.1 ∧ level.1 < 1 ∧ 0 < level.2).insertionSort
    fun first second => if descending then second.1 ≤ first.1 else first.1 ≤ second.1

def rowToBookSnapshot (tokenId : String) (row : BookRow) : BookSnapshot where
  tokenId := tokenId
  observedAt := row.observedAtUs.getD 0
  sequence := row.sequence
  spreadBps := row.spreadBps
  tradePrice := row.tradePrice
  tradeSize := row.tradeSize
  tradeSide := row.tradeSide.filter fun side => side ≠ ""
  topBid := (rawLevels true row.bids).head?.map Prod.fst
  topAsk := (rawLevels false row.asks).head?.map Prod.fst
  bidsRaw := rawLevels true row.bids
  asksRaw := rawLevels false row.asks

/-- The entry of a row in its token's series, if it lies in the window. -/
def entryOf (token : String) (startUs endUs : ℤ) (row : BookRow) : Option (ℤ × BookSnapshot) :=
  row.observedAtUs.bind fun observed =>
    if startUs ≤ observed ∧ observed ≤ endUs then some (observed, rowToBookSnapshot token row) else none

def rowsOf (token : String) (files : List (List BookRow)) : List BookRow := files.flatten.filter fun row => row.tokenId = token

def loadBookSeries (token : String) (files : List (List BookRow)) (startUs endUs : ℤ) : List (ℤ × BookSnapshot) :=
  finalize ((rowsOf token files).filterMap (entryOf token startUs endUs))

/-- A view: the requested tokens with their covering files, and the window. -/
structure View where
  requested : List String
  files : String → List (List BookRow)
  startUs : ℤ
  endUs : ℤ

namespace View

variable (view : View)

def coveredTokens : List String := view.requested.filter fun token => view.files token ≠ []

def seriesFor (token : String) : List (ℤ × BookSnapshot) := loadBookSeries token (view.files token) view.startUs view.endUs

def bookAt (token : String) (time : ℤ) (maxStaleness : Option ℤ) : Option BookSnapshot := asOf (view.seriesFor token) time maxStaleness

def merged (tokens : List String) : List (ℤ × BookSnapshot) :=
  orderedMerge Prod.fst (tokens.map fun token => iterRange (view.seriesFor token) view.startUs view.endUs)

def iterBooks (tokenIds : Option (List String)) : List BookSnapshot := (view.merged (tokenIds.getD view.coveredTokens)).map Prod.snd

end View

def replayKey (snapshot : BookSnapshot) : ℤ ×ₗ ℤ := toLex (snapshot.observedAt, snapshot.sequence.getD 0)

/-- An `InMemoryBookReplay` of snapshots. -/
structure InMemoryBookReplay where
  snapshots : List BookSnapshot

namespace InMemoryBookReplay

variable (memory : InMemoryBookReplay)

def iterSnapshots : List BookSnapshot := memory.snapshots.insertionSort fun first second => replayKey first ≤ replayKey second

def byToken (token : String) : List BookSnapshot := memory.iterSnapshots.filter fun snapshot => snapshot.tokenId = token

def snapshotAt (token : String) (time : ℤ) : Option BookSnapshot :=
  match bisectRight ((memory.byToken token).map BookSnapshot.observedAt) time with
  | 0 => none
  | index + 1 => (memory.byToken token)[index]?

end InMemoryBookReplay

end Callisto.MarketData

import Mathlib.Data.List.MinMax
import Mathlib.Data.Prod.Lex
import Callisto.Exits.ExitExecutor

/-! The planner of an exit: a target size is laid out over a ladder of prices, one child a rung or in chunks, and a last pass brings the
children above the minimum notional. -/

namespace Callisto.Exits.Planner

open Callisto.Library
open Callisto.Ws (strip)

structure LadderSpec where
  levels : ℤ := 5
  stepTicks : ℤ := 1
  offsetTicks : ℤ := 0
  distribution : String := "uniform"

structure ExitPolicy where
  ladder : Option LadderSpec := none
  chunkSize : Option ℚ := none
  maxChunks : ℤ := 50
  orderTypeMix : Option (List (String × ℚ)) := none
  minChunkNotionalUsd : ℚ := 1

structure ChildPlan where
  index : ℕ
  price : ℚ
  size : ℚ
  tif : String
  postOnly : Bool
  distributionBucket : String
  deriving DecidableEq

/-- The arguments of `plan_children`. -/
structure ExitRequest where
  targetSize : ℚ
  triggerPrice : ℚ
  side : String
  policy : ExitPolicy
  tickSize : ℚ := 1 / 100
  minChunkNotionalUsd : Option ℚ := none
  defaultTif : String := "GTC"
  defaultPostOnly : Bool := true

def tolerance : ℚ := 1 / 10 ^ 9

section OrderTypes

variable (upper : String → String)

def aggressionRank : String → ℕ
  | "FOK" => 0
  | "IOC" => 1
  | "FAK" => 1
  | "GTC" => 2
  | "GTD" => 3
  | _ => 9

def typeAt (defaultTif : String) (defaultPostOnly : Bool) : ℕ → List (String × ℕ) → String × Bool
  | _, [] => (defaultTif, defaultPostOnly)
  | index, (tif, count) :: rest =>
    if index < count then
      if upper tif = "IOC" ∨ upper tif = "FAK" ∨ upper tif = "FOK" then (upper tif, false) else (upper tif, defaultPostOnly)
    else typeAt defaultTif defaultPostOnly (index - count) rest

def resolveOrderTypeForIndex (index total : ℕ) (mix : Option (List (String × ℚ))) (defaultTif : String) (defaultPostOnly : Bool) :
    String × Bool :=
  let mix := mix.getD []
  let totalWeight := (mix.map fun entry => max 0 entry.2).sum
  if mix = [] ∨ totalWeight ≤ 0 ∨ total = 0 then (defaultTif, defaultPostOnly)
  else
    let counts := mix.map fun entry =>
      let share : ℚ := total * (max 0 entry.2 / totalWeight)
      (upper entry.1, Rounding.halfEven share.num.toNat share.den)
    let assigned := (counts.map Prod.snd).sum
    let count (index : ℕ) : ℕ := (counts[index]?.map Prod.snd).getD 0
    let largest := ((List.range counts.length).argmax fun index => if count index = 0 then 1 else count index).getD 0
    let settled := counts.modify largest fun entry =>
      (entry.1, if assigned < total then entry.2 + (total - assigned) else entry.2 - (assigned - total))
    typeAt upper defaultTif defaultPostOnly index
      (settled.insertionSort fun first second => aggressionRank first.1 ≤ aggressionRank second.1)

end OrderTypes

def rawWeights (mode : String) (n : ℕ) : List ℚ :=
  if mode = "front_loaded" then (List.range n).map fun i : ℕ => (n : ℚ) - (i : ℚ)
  else if mode = "back_loaded" then (List.range n).map fun i : ℕ => (i : ℚ) + 1
  else List.replicate n 1

def distributionWeights (lower : String → String) (levels : ℕ) (distribution : String) : List ℚ :=
  let n := max 1 levels
  let raw := rawWeights (lower (strip (if distribution = "" then "uniform" else distribution))) n
  if raw.sum ≤ 0 then List.replicate n (1 / n) else raw.map fun weight => weight / raw.sum

namespace ExitRequest

variable (lower upper : String → String) (request : ExitRequest)

def sells : Bool := upper (if request.side = "" then "SELL" else request.side) = "SELL"

def minNotional : ℚ := request.minChunkNotionalUsd.getD request.policy.minChunkNotionalUsd

def levels : ℕ := (max 1 (min request.policy.maxChunks (request.policy.ladder.elim 1 LadderSpec.levels))).toNat

def stepTicks : ℤ := request.policy.ladder.elim 0 fun ladder => max 0 ladder.stepTicks

def offsetTicks : ℤ := request.policy.ladder.elim 0 fun ladder => max 0 ladder.offsetTicks

def rawPrice (level : ℕ) : ℚ :=
  let offset := (request.offsetTicks + level * request.stepTicks : ℤ) * request.tickSize
  clampBinaryPrice (if request.sells upper then request.triggerPrice - offset else request.triggerPrice + offset) request.tickSize

end ExitRequest

def dropSeen (seen : List ℚ) : List ℚ → List ℚ
  | [] => []
  | price :: rest => if price ∈ seen then dropSeen seen rest else price :: dropSeen (price :: seen) rest

structure Rung where
  level : ℕ
  price : ℚ
  weight : ℚ

namespace ExitRequest

variable (lower upper : String → String) (request : ExitRequest)

def uniquePrices : List ℚ := dropSeen [] ((List.range request.levels).map (request.rawPrice upper))

def weights : List ℚ :=
  distributionWeights lower (request.uniquePrices upper).length (request.policy.ladder.elim "uniform" LadderSpec.distribution)

def rungs : List Rung :=
  (((request.uniquePrices upper).zip (request.weights lower upper)).zipIdx).map fun entry => ⟨entry.2, entry.1.1, entry.1.2⟩

end ExitRequest

structure RungChunks extends Rung where
  count : ℕ
  chunk : ℚ

/-- Rung by rung, how many chunks fit; what is too little for one rolls forward, and what the last rung leaves is returned. -/
def allot (minNotional nominal target : ℚ) : ℚ → List Rung → List RungChunks × ℚ
  | rollForward, [] => ([], rollForward)
  | rollForward, rung :: rest =>
    let size := rung.weight * target + rollForward
    let least := if 0 < rung.price then minNotional / rung.price else nominal
    if size + tolerance < least then
      let later := allot minNotional nominal target size rest
      (⟨rung, 0, 0⟩ :: later.1, later.2)
    else
      let later := allot minNotional nominal target 0 rest
      (⟨rung, (max 1 ⌊size / max nominal least⌋).toNat, max nominal least⟩ :: later.1, later.2)

def credit (rollForward : ℚ) : List RungChunks → List RungChunks
  | [] => []
  | rung :: rest =>
    if 0 < rung.count then { rung with count := rung.count + (max 1 ⌊rollForward / rung.chunk⌋).toNat } :: rest
    else rung :: credit rollForward rest

/-- What the last rung leaves is credited to the last rung with chunks. -/
def creditTrailing (rollForward : ℚ) (perLevel : List RungChunks) : List RungChunks :=
  if 0 < rollForward then (credit rollForward perLevel.reverse).reverse else perLevel

def totalChunks (perLevel : List RungChunks) : ℕ := (perLevel.map RungChunks.count).sum

def countAt (perLevel : List RungChunks) (index : ℕ) : ℕ := perLevel[index]?.elim 0 RungChunks.count

def weightAt (perLevel : List RungChunks) (index : ℕ) : ℚ := perLevel[index]?.elim 0 fun rung => rung.weight

/-- The rung that the next chunk is taken from: the least weight, and of these the most chunks. -/
def peeled (perLevel : List RungChunks) : Option ℕ :=
  ((List.range perLevel.length).filter fun index => 0 < countAt perLevel index).argmin fun index =>
    toLex (weightAt perLevel index, -(countAt perLevel index : ℚ))

def peel : ℕ → List RungChunks → List RungChunks
  | 0, perLevel => perLevel
  | surplus + 1, perLevel =>
    match peeled perLevel with
    | none => perLevel
    | some index => peel surplus (perLevel.modify index fun rung => { rung with count := rung.count - 1 })

/-- A child for each chunk in turn, until the size is used up; what is left is returned. -/
def place (orderType : ℕ → String × Bool) : ℚ → ℕ → List RungChunks → List ChildPlan × ℚ
  | remaining, _, [] => ([], remaining)
  | remaining, index, rung :: rest =>
    if remaining ≤ 0 then ([], remaining)
    else
      let size := min rung.chunk remaining
      let later := place orderType (remaining - size) (index + 1) rest
      (⟨index, rung.price, size, (orderType index).1, (orderType index).2, "lvl" ++ toString rung.level⟩ :: later.1, later.2)

def attach (placed : List ChildPlan × ℚ) : List ChildPlan :=
  match placed.1 with
  | [] => []
  | inside :: rest => if tolerance < placed.2 then { inside with size := inside.size + placed.2 } :: rest else inside :: rest

namespace ExitRequest

variable (lower upper : String → String) (request : ExitRequest)

def orderType (total index : ℕ) : String × Bool :=
  resolveOrderTypeForIndex upper index total request.policy.orderTypeMix request.defaultTif request.defaultPostOnly

def perLevel (nominal : ℚ) : List RungChunks :=
  let allotted := allot request.minNotional nominal request.targetSize 0 (request.rungs lower upper)
  let credited := creditTrailing allotted.2 allotted.1
  let cap := min request.policy.maxChunks (max 1 ⌈request.targetSize / nominal⌉)
  peel (totalChunks credited - cap.toNat) credited

def chunked (nominal : ℚ) : List ChildPlan :=
  let perLevel := request.perLevel lower upper nominal
  attach (place (request.orderType upper (totalChunks perLevel)) request.targetSize 0
    (perLevel.flatMap fun rung => if rung.chunk ≤ 0 then [] else List.replicate rung.count rung))

def laddered : List ChildPlan :=
  let rungs := request.rungs lower upper
  rungs.map fun rung =>
    let orderType := request.orderType upper rungs.length rung.level
    ⟨rung.level, rung.price, rung.weight * request.targetSize, orderType.1, orderType.2, "lvl" ++ toString rung.level⟩

def layout : List ChildPlan :=
  match request.policy.chunkSize.filter fun chunk => 0 < chunk with
  | some nominal => request.chunked lower upper nominal
  | none => request.laddered lower upper

/-- The last pass on a child: it stays, it is promoted to the minimum notional, or its size is forfeited. -/
def settle (plan : ChildPlan) : Option ChildPlan :=
  if plan.price ≤ 0 ∨ plan.size ≤ 0 then none
  else if plan.price * plan.size + tolerance < request.minNotional then
    if request.minNotional / plan.price ≤ request.targetSize + tolerance then
      some { plan with size := request.minNotional / plan.price }
    else none
  else some plan

def forfeited (plans : List ChildPlan) : ℚ :=
  ((plans.filter fun plan => (request.settle plan).isNone).map ChildPlan.size).sum

def insidePrice : ℚ := ((request.uniquePrices upper).head?).getD 0

def finish (plans : List ChildPlan) : List ChildPlan :=
  match plans.filterMap request.settle with
  | [] =>
    if request.insidePrice upper * request.targetSize + tolerance < request.minNotional then []
    else [⟨0, request.insidePrice upper, request.targetSize, request.defaultTif, request.defaultPostOnly, "lvl0"⟩]
  | first :: rest =>
    let lost := request.forfeited plans
    let survivors := (if 0 < lost then { first with size := first.size + lost } else first) :: rest
    survivors.zipIdx.map fun entry => { entry.1 with index := entry.2 }

def planChildren : List ChildPlan :=
  if request.targetSize ≤ 0 ∨ request.triggerPrice ≤ 0 then [] else request.finish upper (request.layout lower upper)

end ExitRequest

end Callisto.Exits.Planner

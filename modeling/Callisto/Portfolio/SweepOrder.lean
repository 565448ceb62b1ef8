import Callisto.Portfolio.Coverage
import Callisto.Portfolio.EvidenceOrder

/-! Two sweeps that are served the same evidence: what they have in common, and when one of them fails alone. -/

namespace Callisto.Portfolio

open Callisto.Library Callisto.Venues
open Callisto.Execution (Row)
open Callisto.Ws (strip)

def Served.orders (served : Served) : List KalshiOrder := served.currentOrders ++ served.historicalOrders

def Served.fills (served : Served) : List KalshiFill := served.currentFills ++ served.historicalFills

/-- The same cutoffs and the same records, in any order, any number of times and from either source. -/
structure SameEvidence (first second : Served) : Prop where
  before : first.before = second.before
  after : first.after = second.after
  orders : ∀ order, order ∈ first.orders ↔ order ∈ second.orders
  fills : ∀ fill, fill ∈ first.fills ↔ fill ∈ second.fills

structure SameSweep (first second : CoverageResult × CoverageTables) : Prop where
  status : first.1.status = second.1.status
  observedEvidenceHash : first.1.observedEvidenceHash = second.1.observedEvidenceHash
  unknownOrderIds : first.1.unknownOrderIds = second.1.unknownOrderIds
  unknownClientOrderIds : first.1.unknownClientOrderIds = second.1.unknownClientOrderIds
  unknownFillIds : first.1.unknownFillIds = second.1.unknownFillIds
  orders : first.1.uniqueCounts.orders = second.1.uniqueCounts.orders
  fills : first.1.uniqueCounts.fills = second.1.uniqueCounts.fills
  identities : first.2.identities = second.2.identities
  orderObservations : first.2.orderObservations = second.2.orderObservations
  fillObservations : first.2.fillObservations = second.2.fillObservations
  orderMemberships : first.2.orderMemberships = second.2.orderMemberships
  fillMemberships : first.2.fillMemberships = second.2.fillMemberships

def SameOutcome : Coverage (CoverageResult × CoverageTables) → Coverage (CoverageResult × CoverageTables) → Prop
  | .ok first, .ok second => SameSweep first second
  | .error _, .error _ => True
  | _, _ => False

variable (sha : Sha256)

/-- A new membership is that of a served snapshot, and of the latest one if the order's snapshots agree in what never
changes. -/
def LatestKept (tables : CoverageTables) (served : Served) : Coverage (CoverageResult × CoverageTables) → Prop
  | .ok (_, after) => ∀ row ∈ after.orderMemberships, row ∈ tables.orderMemberships ∨
      ∃ order ∈ groupOf KalshiOrder.orderId row.orderId served.orders, orderHash sha order = row.evidenceHash ∧
        (¬Conflicting sha (groupOf KalshiOrder.orderId row.orderId served.orders) →
          ∃ instant, orderUpdatedAt order = .ok instant ∧
            ∀ other ∈ groupOf KalshiOrder.orderId row.orderId served.orders,
              ∃ time, orderUpdatedAt other = .ok time ∧ time ≤ instant)
  | .error _ => True

/-- One source on its own has an order whose snapshots agree in what never changes and lack a usable update time. -/
def SourceUndated (served : Served) : Prop := Undated sha served.currentOrders ∨ Undated sha served.historicalOrders

/-- The call gets to read the venue, and the evidence of both sources together can be stored. -/
structure Storable (lease : Option Lease) (tables : CoverageTables) (call : SweepCall) (orders : List KalshiOrder)
    (fills : List KalshiFill) : Prop where
  valid : validCall call = .ok ()
  fresh : loadCheckpoint call.expected lease call.loadedAt tables call.principal (strip call.coverageId) = .ok none
  stored : ∃ kept conflicts chosen stored, dedupeOrders sha orders = .ok (kept, conflicts) ∧ dedupeFills fills = .ok chosen ∧
    storeObservations sha lease tables call kept chosen = .ok stored ∧
    ¬Recorded tables call.principal (strip call.coverageId) kept chosen

variable {sha} {ledger : List Row} {lease : Option Lease} {tables : CoverageTables} {call : SweepCall} {served : Served} {reads : SweepReads}

theorem mergedFills {current historical : ById KalshiFill} (currentDone : dedupeFills served.currentFills = .ok current)
    (historicalDone : dedupeFills served.historicalFills = .ok historical) (fill : KalshiFill) :
    fill ∈ current.map Prod.snd ++ historical.map Prod.snd ↔ fill ∈ served.fills := by
  rw [Served.fills, List.mem_append, List.mem_append, dedupeFills_values currentDone, dedupeFills_values historicalDone]

theorem select_spec {selection : Selection} (done : select sha served = .ok selection) :
    ∃ conflicts, dedupeOrders sha served.orders = .ok (selection.orders, conflicts) ∧ dedupeFills served.fills = .ok selection.fills ∧
      (selection.conflicts = [] ↔ conflicts = []) := by
  obtain ⟨⟨current, currentConflicts⟩, currentDone, done⟩ := bind_ok.1 done
  obtain ⟨⟨historical, historicalConflicts⟩, historicalDone, done⟩ := bind_ok.1 done
  obtain ⟨⟨orders, conflicts⟩, ordersDone, done⟩ := bind_ok.1 done
  obtain ⟨currentFills, currentFillsDone, done⟩ := bind_ok.1 done
  obtain ⟨historicalFills, historicalFillsDone, done⟩ := bind_ok.1 done
  obtain ⟨fills, fillsDone, done⟩ := bind_ok.1 done
  cases done
  refine ⟨conflicts, ordersDone, dedupeFills_congr (mergedFills currentFillsDone historicalFillsDone) fillsDone, ?_⟩
  constructor
  · intro none
    exact (List.append_eq_nil_iff.1 none).2
  · intro none
    subst none
    have first := dedupeOrders_conflicts (fun order member => List.mem_append_left _ member) ordersDone currentDone
    have second := dedupeOrders_conflicts (fun order member => List.mem_append_right _ member) ordersDone historicalDone
    rw [first, second]
    rfl

theorem select_succeeds :
    (∃ selection, select sha served = .ok selection) ↔
      ¬SourceUndated sha served ∧ ¬Undated sha served.orders ∧ ¬Divergent served.fills := by
  constructor
  · intro found
    obtain ⟨selection, done⟩ := found
    obtain ⟨conflicts, orders, fills, -⟩ := select_spec done
    obtain ⟨current, currentDone, done⟩ := bind_ok.1 done
    obtain ⟨historical, historicalDone, -⟩ := bind_ok.1 done
    have current := dedupeOrders_succeeds.1 ⟨current, currentDone⟩
    have historical := dedupeOrders_succeeds.1 ⟨historical, historicalDone⟩
    exact ⟨not_or.2 ⟨current, historical⟩, dedupeOrders_succeeds.1 ⟨_, orders⟩, dedupeFills_succeeds.1 ⟨_, fills⟩⟩
  · intro usable
    obtain ⟨sources, orders, fills⟩ := usable
    obtain ⟨current, historical⟩ := not_or.1 sources
    obtain ⟨current, currentDone⟩ := dedupeOrders_succeeds.2 current
    obtain ⟨historical, historicalDone⟩ := dedupeOrders_succeeds.2 historical
    obtain ⟨orders, ordersDone⟩ := dedupeOrders_succeeds.2 orders
    have agreeing : ∀ part, (∀ fill ∈ part, fill ∈ served.fills) → ¬Divergent part := by
      intro part inside divergent
      obtain ⟨first, here, second, there, differ⟩ := divergent
      exact fills ⟨first, inside first here, second, inside second there, differ⟩
    obtain ⟨currentFills, currentFillsDone⟩ :=
      dedupeFills_succeeds.2 (agreeing served.currentFills fun fill member => List.mem_append_left _ member)
    obtain ⟨historicalFills, historicalFillsDone⟩ :=
      dedupeFills_succeeds.2 (agreeing served.historicalFills fun fill member => List.mem_append_right _ member)
    obtain ⟨merged, mergedDone⟩ := dedupeFills_succeeds.2 (agreeing _ fun fill member =>
      (mergedFills currentFillsDone historicalFillsDone fill).1 member)
    let selection : Selection := ⟨current.1, historical.1, orders.1, currentFills, historicalFills, merged, current.2 ++ historical.2 ++ orders.2⟩
    have chosen : (do
        let currentFills ← dedupeFills served.currentFills
        let historicalFills ← dedupeFills served.historicalFills
        let fills ← mergeFills currentFills historicalFills
        Except.ok (Selection.mk current.1 historical.1 orders.1 currentFills historicalFills fills
          (current.2 ++ historical.2 ++ orders.2))) = (Except.ok selection : Coverage Selection) :=
      bind_ok.2 ⟨currentFills, currentFillsDone, bind_ok.2 ⟨historicalFills, historicalFillsDone, bind_ok.2 ⟨merged, mergedDone, rfl⟩⟩⟩
    exact ⟨selection, bind_ok.2 ⟨current, currentDone, bind_ok.2 ⟨historical, historicalDone, bind_ok.2 ⟨orders, ordersDone, chosen⟩⟩⟩⟩

theorem findCheckpoint_fresh {guardTime : ℤ} {principal coverageId : String}
    (fresh : loadCheckpoint call.expected lease guardTime tables principal coverageId = .ok none) :
    findCheckpoint tables principal coverageId = none := by
  obtain ⟨_, -, found⟩ := bind_ok.1 fresh
  exact Except.ok.inj found

theorem concurrentResult_fresh {result : CoverageResult} (fresh : findCheckpoint tables call.principal result.coverageId = none)
    (answer : CoverageResult) : concurrentResult lease tables call result ≠ .ok answer := by
  intro done
  obtain ⟨loaded, load, done⟩ := bind_ok.1 done
  obtain ⟨_, -, found⟩ := bind_ok.1 load
  cases found
  rw [fresh] at done
  cases done

theorem conclude_ok {selection : Selection} {outcome : CoverageResult × CoverageTables}
    (fresh : findCheckpoint tables call.principal (strip call.coverageId) = none) :
    conclude sha ledger lease tables call served selection = .ok outcome ↔
      ∃ stored, storeObservations sha lease tables call selection.orders selection.fills = .ok stored ∧
        ¬Recorded tables call.principal (strip call.coverageId) selection.orders selection.fills ∧
        outcome = (assess sha ledger call served selection, recordCoverage sha stored call
          ⟨assess sha ledger call served selection, served.before, served.after, false⟩ selection.orders selection.fills) := by
  unfold conclude store
  cases storing : storeObservations sha lease tables call selection.orders selection.fills with
  | error error =>
    constructor
    · intro done
      cases done
    · intro found
      cases found.choose_spec.1
  | ok stored =>
    by_cases recorded : Recorded tables call.principal (strip call.coverageId) selection.orders selection.fills
    · have again : Recorded tables call.principal (assess sha ledger call served selection).coverageId selection.orders
          selection.fills := recorded
      constructor
      · intro done
        have unchecked : findCheckpoint tables call.principal (assess sha ledger call served selection).coverageId = none := fresh
        simp only [if_pos again] at done
        obtain ⟨answer, concurrent, -⟩ := bind_ok.1 done
        exact absurd concurrent (concurrentResult_fresh unchecked answer)
      · intro found
        exact absurd recorded found.choose_spec.2.1
    · have again : ¬Recorded tables call.principal (assess sha ledger call served selection).coverageId selection.orders
          selection.fills := recorded
      constructor
      · intro done
        simp only [if_neg again] at done
        exact ⟨stored, rfl, recorded, (Except.ok.inj done).symm⟩
      · intro found
        obtain ⟨_, same, -, rfl⟩ := found
        cases same
        simp only [if_neg again]

section
variable (valid : validCall call = .ok ())
  (fresh : loadCheckpoint call.expected lease call.loadedAt tables call.principal (strip call.coverageId) = .ok none)
  (read : readServed reads = .ok served)
include valid fresh read

theorem sweep_fresh :
    sweep sha ledger lease tables call reads = (do
      let selection ← select sha served
      conclude sha ledger lease tables call served selection) := by
  unfold sweep
  rw [valid, fresh, read]
  rfl

theorem sweep_ok {outcome : CoverageResult × CoverageTables} :
    sweep sha ledger lease tables call reads = .ok outcome ↔
      ∃ selection, select sha served = .ok selection ∧
        ∃ stored, storeObservations sha lease tables call selection.orders selection.fills = .ok stored ∧
          ¬Recorded tables call.principal (strip call.coverageId) selection.orders selection.fills ∧
          outcome = (assess sha ledger call served selection, recordCoverage sha stored call
            ⟨assess sha ledger call served selection, served.before, served.after, false⟩ selection.orders selection.fills) := by
  rw [sweep_fresh valid fresh read, bind_ok]
  exact exists_congr fun selection => and_congr_right fun _ => conclude_ok (findCheckpoint_fresh fresh)

theorem sweep_succeeds :
    (∃ outcome, sweep sha ledger lease tables call reads = .ok outcome) ↔
      Storable sha lease tables call served.orders served.fills ∧ ¬SourceUndated sha served := by
  constructor
  · intro found
    obtain ⟨outcome, done⟩ := found
    obtain ⟨selection, selected, stored, storing, unrecorded, -⟩ := (sweep_ok valid fresh read).1 done
    obtain ⟨conflicts, orders, fills, -⟩ := select_spec selected
    exact ⟨⟨valid, fresh, _, _, _, _, orders, fills, storing, unrecorded⟩, (select_succeeds.1 ⟨selection, selected⟩).1⟩
  · intro usable
    obtain ⟨⟨-, -, kept, conflicts, chosen, stored, orders, fills, storing, unrecorded⟩, sources⟩ := usable
    obtain ⟨selection, selected⟩ := select_succeeds.2
      ⟨sources, dedupeOrders_succeeds.1 ⟨_, orders⟩, dedupeFills_succeeds.1 ⟨_, fills⟩⟩
    obtain ⟨_, again, others, -⟩ := select_spec selected
    have sameOrders : selection.orders = kept := congrArg Prod.fst (Except.ok.inj (again.symm.trans orders))
    have sameFills : selection.fills = chosen := Except.ok.inj (others.symm.trans fills)
    subst sameOrders sameFills
    exact ⟨_, (sweep_ok valid fresh read).2 ⟨selection, selected, stored, storing, unrecorded, rfl⟩⟩

end

theorem storeOrder_memberships {after : CoverageTables} {entry : String × KalshiOrder} {principal : String} {observedAt : ℤ}
    (done : storeOrder sha principal observedAt tables entry = .ok after) : after.orderMemberships = tables.orderMemberships := by
  unfold storeOrder at done
  dsimp only at done
  split at done
  · cases done
  · obtain ⟨updatedAt, -, done⟩ := bind_ok.1 done
    split at done
    · cases done
    · cases done
      rfl

theorem storeFill_memberships {after : CoverageTables} {entry : String × KalshiFill} {principal : String} {observedAt : ℤ}
    (done : storeFill sha principal observedAt tables entry = .ok after) : after.orderMemberships = tables.orderMemberships := by
  obtain ⟨createdAt, -, done⟩ := bind_ok.1 done
  dsimp only at done
  split at done
  · cases done
  · cases done
    rfl

theorem foldlM_memberships {α : Type} {next : CoverageTables → α → Coverage CoverageTables}
    (kept : ∀ before after item, next before item = .ok after → after.orderMemberships = before.orderMemberships) (items : List α)
    {before after : CoverageTables} (done : items.foldlM next before = .ok after) : after.orderMemberships = before.orderMemberships := by
  induction items generalizing before with
  | nil =>
    cases done
    rfl
  | cons item rest ih =>
    obtain ⟨between, head, tail⟩ := bind_ok.1 done
    rw [ih tail, kept before between item head]

theorem storeObservations_memberships {orders : ById KalshiOrder} {fills : ById KalshiFill} {stored : CoverageTables}
    (done : storeObservations sha lease tables call orders fills = .ok stored) : stored.orderMemberships = tables.orderMemberships := by
  obtain ⟨_, -, done⟩ := bind_ok.1 done
  obtain ⟨withOrders, orders, fills⟩ := bind_ok.1 done
  rw [foldlM_memberships (fun _ _ _ done => storeFill_memberships done) _ fills,
    foldlM_memberships (fun _ _ _ done => storeOrder_memberships done) _ orders]

theorem sweep_cases {outcome : CoverageResult × CoverageTables}
    (done : sweep sha ledger lease tables call reads = .ok outcome) : validCall call = .ok () ∧
      (outcome.2 = tables ∨
        loadCheckpoint call.expected lease call.loadedAt tables call.principal (strip call.coverageId) = .ok none) := by
  obtain ⟨_, valid, done⟩ := bind_ok.1 done
  obtain ⟨found, load, done⟩ := bind_ok.1 done
  cases found with
  | some checkpoint =>
    obtain ⟨result, -, done⟩ := bind_ok.1 done
    cases done
    exact ⟨valid, .inl rfl⟩
  | none => exact ⟨valid, .inr load⟩

theorem latestKept_sweep (read : readServed reads = .ok served) :
    LatestKept sha tables served (sweep sha ledger lease tables call reads) := by
  cases swept : sweep sha ledger lease tables call reads with
  | error error => trivial
  | ok outcome =>
    obtain ⟨valid, old | fresh⟩ := sweep_cases swept
    · intro row member
      exact .inl (old ▸ member)
    · obtain ⟨selection, selected, stored, storing, -, rfl⟩ := (sweep_ok valid fresh read).1 swept
      obtain ⟨conflicts, orders, -, -⟩ := select_spec selected
      intro row member
      cases List.mem_append.1 member with
      | inl old => exact .inl (storeObservations_memberships storing ▸ old)
      | inr new =>
        obtain ⟨entry, chosen, rfl⟩ := List.mem_map.1 new
        obtain ⟨mine, latest⟩ := dedupeOrders_latest orders chosen
        exact .inr ⟨entry.2, mine, rfl, latest⟩

theorem sameSweep_select {one other : Served} {chosen others : Selection} {stored : CoverageTables}
    (same : SameEvidence one other) (orders : chosen.orders = others.orders) (fills : chosen.fills = others.fills)
    (conflicts : chosen.conflicts = [] ↔ others.conflicts = []) :
    SameSweep
      (assess sha ledger call one chosen, recordCoverage sha stored call
        ⟨assess sha ledger call one chosen, one.before, one.after, false⟩ chosen.orders chosen.fills)
      (assess sha ledger call other others, recordCoverage sha stored call
        ⟨assess sha ledger call other others, other.before, other.after, false⟩ others.orders others.fills) := by
  have status : (assess sha ledger call one chosen).status = (assess sha ledger call other others).status := by
    unfold assess
    dsimp only
    rw [same.before, same.after, orders, fills]
    refine if_congr ?_ rfl rfl
    rw [List.append_eq_nil_iff, List.append_eq_nil_iff, conflicts]
  constructor
  · exact status
  all_goals simp only [assess, recordCoverage, orders, fills]

theorem sameOutcome_refl (outcome : Coverage (CoverageResult × CoverageTables)) : SameOutcome outcome outcome := by
  cases outcome with
  | error error => trivial
  | ok outcome => exact ⟨rfl, rfl, rfl, rfl, rfl, rfl, rfl, rfl, rfl, rfl, rfl, rfl⟩

theorem storable_congr {one other : Served} (same : SameEvidence one other) (distinct : Distinct sha one.orders) :
    Storable sha lease tables call one.orders one.fills ↔ Storable sha lease tables call other.orders other.fills := by
  have apart : Distinct sha other.orders := fun first here second there =>
    distinct first ((same.orders first).2 here) second ((same.orders second).2 there)
  constructor
  · intro usable
    obtain ⟨valid, fresh, kept, conflicts, chosen, stored, orders, fills, storing⟩ := usable
    exact ⟨valid, fresh, kept, conflicts, chosen, stored, dedupeOrders_congr same.orders distinct orders,
      dedupeFills_congr same.fills fills, storing⟩
  · intro usable
    obtain ⟨valid, fresh, kept, conflicts, chosen, stored, orders, fills, storing⟩ := usable
    exact ⟨valid, fresh, kept, conflicts, chosen, stored, dedupeOrders_congr (fun order => (same.orders order).symm) apart orders,
      dedupeFills_congr (fun fill => (same.fills fill).symm) fills, storing⟩

theorem sameSweep_swept {first second : SweepReads} {one other : Served} {outcome answer : CoverageResult × CoverageTables}
    (valid : validCall call = .ok ())
    (fresh : loadCheckpoint call.expected lease call.loadedAt tables call.principal (strip call.coverageId) = .ok none)
    (firstRead : readServed first = .ok one) (secondRead : readServed second = .ok other) (same : SameEvidence one other)
    (distinct : Distinct sha one.orders) (firstSwept : sweep sha ledger lease tables call first = .ok outcome)
    (secondSwept : sweep sha ledger lease tables call second = .ok answer) : SameSweep outcome answer := by
  obtain ⟨chosen, firstSelected, stored, storing, -, rfl⟩ := (sweep_ok valid fresh firstRead).1 firstSwept
  obtain ⟨others, secondSelected, again, storingAgain, -, rfl⟩ := (sweep_ok valid fresh secondRead).1 secondSwept
  obtain ⟨conflicts, firstOrders, firstFills, firstConflicts⟩ := select_spec firstSelected
  obtain ⟨disputes, secondOrders, secondFills, secondConflicts⟩ := select_spec secondSelected
  have both := Except.ok.inj ((dedupeOrders_congr same.orders distinct firstOrders).symm.trans secondOrders)
  have orders : chosen.orders = others.orders := congrArg Prod.fst both
  have disputed : conflicts = disputes := congrArg Prod.snd both
  have fills : chosen.fills = others.fills := Except.ok.inj ((dedupeFills_congr same.fills firstFills).symm.trans secondFills)
  rw [← orders, ← fills, storing] at storingAgain
  cases storingAgain
  exact sameSweep_select same orders fills (by rw [firstConflicts, secondConflicts, disputed])

section Example

/-- The SHA-256 digests of the two sample orders, of their identities and of the selection of the dated one, as `hashlib` gives
them. -/
def sampleHashes : Sha256 where
  user := fun _ => "04f8996da763b7a969b1028ee3007569eaf3a635486ddab211d512c85b9df8fb"
  evidence := fun
    | .order payload =>
      if payload.clientOrderId = "a" then "0928ed70dceb9018d310c1483fc0e5e6d990c238dbec83ff0a96157a9bb835d7"
      else "5acf22b9fb5b92397c6b4344f7d3962dd10384c0d3e99dfdf45b12f7c45208ff"
    | .identity identity =>
      if identity.clientOrderId = "a" then "b60fee4256f57abc7e0389061b9ac712355d49e15bdfdacf306d0aa3360564e1"
      else "9faade94a5700f863f2e01b3acb41b3fa06d322dc86ecadcc480e0f4a2a45969"
    | .fill payload => payload.fillId
    | .selection _ _ => "d6f921870819acfa77c488b12e585daa347c6fbbe72510a1b1d9dcb317f9f607"

theorem sampleDigits_bounded (digits : Fin 1000000) : digits.val < 10 ^ 28 := digits.isLt.trans (by norm_num)

/-- A sample amount with the places that the venue writes: six for dollars, two for counts. -/
def sampleAmount (digits : Fin 1000000) (places : Fin 7) : KalshiDecimal :=
  ⟨false, digits, places, Nat.le_of_lt_succ places.isLt, sampleDigits_bounded digits⟩

def sampleHalf : KalshiDecimal := sampleAmount 500000 6

def sampleNothing : KalshiDecimal := sampleAmount 0 6

def sampleOrder (clientOrderId : String) (createdTime : Option String) : KalshiOrder where
  orderId := "order"
  userId := "user"
  clientOrderId := clientOrderId
  ticker := "T"
  outcomeSide := .yes
  bookSide := .bid
  orderType := .limit
  status := .resting
  yesPrice := sampleHalf
  noPrice := sampleHalf
  fillCount := sampleAmount 0 2
  remainingCount := sampleAmount 100 2
  initialCount := sampleAmount 100 2
  takerFees := sampleNothing
  makerFees := sampleNothing
  takerFillCost := sampleNothing
  makerFillCost := sampleNothing
  createdTime := createdTime
  lastUpdateTime := none
  expirationTime := none
  subaccountNumber := none
  exchangeIndex := none

def sampleDated : KalshiOrder := sampleOrder "a" (some "2026-01-01T00:00:00Z")

def sampleUndated : KalshiOrder := sampleOrder "b" none

def sampleReads (current historical : List (Page KalshiOrder)) : SweepReads where
  cutoffBefore := some ⟨0, 0⟩
  currentOrders := current
  currentFills := [⟨[], ""⟩]
  historicalOrders := historical
  historicalFills := [⟨[], ""⟩]
  cutoffAfter := some ⟨0, 0⟩

def sampleServed (current historical : List KalshiOrder) (currentPages historicalPages : ℕ) : Served :=
  ⟨⟨0, 0⟩, ⟨0, 0⟩, current, [], historical, [], ⟨currentPages, 1, historicalPages, 1⟩⟩

def sampleCall : SweepCall where
  principal := "0000000000000000000000000000000000000000000000000000000000000000"
  coverageId := "coverage"
  observedAt := 0
  expected := none
  loadedAt := 0
  storedAt := 0
  reloadedAt := 0

def sampleSweep (reads : SweepReads) : Coverage (CoverageResult × CoverageTables) := sweep sampleHashes [] none {} sampleCall reads

theorem sameOutcome_isOk {first second : Coverage (CoverageResult × CoverageTables)} (same : SameOutcome first second) :
    first.isOk = second.isOk := by
  cases first with
  | error _ =>
    cases second with
    | error _ => rfl
    | ok _ => exact same.elim
  | ok _ =>
    cases second with
    | error _ => exact same.elim
    | ok _ => rfl

end Example

end Callisto.Portfolio

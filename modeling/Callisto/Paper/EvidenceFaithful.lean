import Callisto.Paper.RequestJson

/-! What is stored of a paper order says what was executed: the evidence decodes to the book, and the request to what was asked for. -/

namespace Callisto.Paper.Spelled

open Callisto.Library
open Callisto.Ws (strip)

/-- The levels of two books are the same numbers in the same order. -/
structure SameLevels (first second : PaperBook) : Prop where
  yes : (first.yesBids.map fun level => (level.price.value, level.quantity.value)) =
    second.yesBids.map fun level => (level.price.value, level.quantity.value)
  no : (first.noBids.map fun level => (level.price.value, level.quantity.value)) =
    second.noBids.map fun level => (level.price.value, level.quantity.value)

structure SameResults (first second : PaperBook) : Prop where
  buys : ∀ outcome quantity limitPrice ranges,
    simulateBuyIoc first outcome quantity limitPrice ranges = simulateBuyIoc second outcome quantity limitPrice ranges
  sells : ∀ outcome quantity minimumPrice ranges,
    simulateSellIoc first outcome quantity minimumPrice ranges = simulateSellIoc second outcome quantity minimumPrice ranges

/-- The stored evidence is faithful, of the books and of the requests. -/
structure Faithful (platform : Platform) : Prop where
  /-- The evidence of a book is itself accepted, and gives the book again. -/
  decodes : ∀ origin ticker payload ranges observedAt fetchedAt book,
    parseBook platform origin ticker payload ranges observedAt fetchedAt = .ok book →
      ∃ decoded again, JsonText.loads book.evidenceJson = some (.object decoded) ∧
        parseBook platform origin ticker decoded ranges observedAt fetchedAt = .ok again ∧
          SameLevels again book ∧ again.evidenceJson = book.evidenceJson ∧ SameResults again book
  /-- Books of one evidence have the same levels. -/
  tells : ∀ origin ticker observedAt first firstRanges firstFetched second secondRanges secondFetched book other,
    parseBook platform origin ticker first firstRanges observedAt firstFetched = .ok book →
      parseBook platform origin ticker second secondRanges observedAt secondFetched = .ok other →
        book.evidenceJson = other.evidenceJson → SameLevels book other
  /-- Calls of one canonical request ask for the same. -/
  requests : ∀ first second json other, requestJson platform.digits first = .ok json → requestJson platform.digits second = .ok other →
    (json = other ↔ SameFacts platform.digits first second)

variable {platform : Platform} {origin ticker : String} {payload : List (String × Json)} {ranges : List PaperPriceRange}
  {observedAt fetchedAt : Instant} {book : PaperBook}

theorem values_again {levels : List PaperBookLevel} (sound : ∀ level ∈ levels, level.Sound) :
    ((levels.map PaperBookLevel.again).map fun level => (level.price.value, level.quantity.value)) =
      levels.map fun level => (level.price.value, level.quantity.value) := by
  rw [List.map_map]
  refine List.map_congr_left fun level member => ?_
  exact Prod.ext (sound level member).price_again (sound level member).quantity_again

theorem displayed_of_parseBook (found : parseBook platform origin ticker payload ranges observedAt fetchedAt = .ok book) (side : Outcome) :
    Displayed (book.bids side) := by
  obtain ⟨yesBids, noBids, yesDollars, noDollars, yes, no, -, -, -, -, rfl⟩ := parseBook_ok found
  cases side with
  | yes => exact yes
  | no => exact no

theorem sameLevels_again (found : parseBook platform origin ticker payload ranges observedAt fetchedAt = .ok book) :
    SameLevels book.again book :=
  ⟨values_again (displayed_of_parseBook found .yes).sound, values_again (displayed_of_parseBook found .no).sound⟩

theorem bids_again (book : PaperBook) (side : Outcome) : book.again.bids side = (book.bids side).map PaperBookLevel.again := by
  cases side <;> rfl

theorem sameResults_again (found : parseBook platform origin ticker payload ranges observedAt fetchedAt = .ok book) :
    SameResults book.again book := by
  have units : ∀ side, (∀ level ∈ book.again.bids side, level.Sound) ∧ (∀ level ∈ book.bids side, level.Sound) ∧
      (book.again.bids side).map PaperBookLevel.units = (book.bids side).map PaperBookLevel.units := by
    intro side
    have sound := (displayed_of_parseBook found side).sound
    rw [bids_again]
    exact ⟨sound_map_again sound, sound, units_map_again sound⟩
  constructor
  · intro outcome quantity limitPrice ranges
    obtain ⟨first, second, same⟩ := units outcome.other
    exact simulateSpelled_congr _ _ _ _ _ _ first second same quantity limitPrice ranges
  · intro outcome quantity minimumPrice ranges
    obtain ⟨first, second, same⟩ := units outcome
    exact simulateSpelled_congr _ _ _ _ _ _ first second same quantity minimumPrice ranges

theorem values_of_evidence (digits : DigitTable) {first second : List PaperBookLevel} (displayed : Displayed first) (also : Displayed second)
    {items : List Json} (written : first.mapM levelEvidence = .ok items) (same : second.mapM levelEvidence = .ok items) :
    (first.map fun level => (level.price.value, level.quantity.value)) =
      second.map fun level => (level.price.value, level.quantity.value) := by
  have one : readLevels digits .yes items [] = .ok (first.map PaperBookLevel.again) :=
    readLevels_evidence displayed written fun _ _ _ member => absurd member List.not_mem_nil
  have other : readLevels digits .yes items [] = .ok (second.map PaperBookLevel.again) :=
    readLevels_evidence also same fun _ _ _ member => absurd member List.not_mem_nil
  rw [← values_again displayed.sound, ← values_again also.sound, Except.ok.inj (one.symm.trans other)]

/-- The stored evidence decodes to what was executed, and the stored requests to what was asked for. -/
theorem evidence_faithful (platform : Platform) : Faithful platform where
  decodes origin ticker payload ranges observedAt fetchedAt book found := by
    obtain ⟨decoded, loaded, again⟩ := parseBook_evidence found
    exact ⟨decoded, book.again, loaded, again, sameLevels_again found, rfl, sameResults_again found⟩
  tells origin ticker observedAt first firstRanges firstFetched second secondRanges secondFetched book other found also same := by
    obtain ⟨yesBids, noBids, yesDollars, noDollars, yes, no, -, -, yesWritten, noWritten, rfl⟩ := parseBook_ok found
    obtain ⟨yesBids', noBids', yesDollars', noDollars', yes', no', -, -, yesWritten', noWritten', rfl⟩ := parseBook_ok also
    have payloads := Json.object.inj (dumps_injective same)
    unfold evidencePayload at payloads
    simp only [List.cons.injEq, Prod.mk.injEq, true_and, Json.array.injEq, and_true] at payloads
    obtain ⟨rfl, rfl⟩ := payloads
    exact ⟨values_of_evidence platform.digits yes yes' yesWritten yesWritten', values_of_evidence platform.digits no no' noWritten noWritten'⟩
  requests first second json other := requestJson_eq_iff

def passing (accountId : String) : DecisionCall where
  accountId := accountId
  decisionId := "decision"
  opportunityId := "opportunity"
  opportunityRevision := "0000000000000000000000000000000000000000000000000000000000000000"
  action := .pass

/-- White space around an id is stripped, so that calls of different ids can be one request. -/
theorem padded_ids_collide : ∃ json, requestJson asciiDigits (.decision (passing "paper")) = .ok json ∧
    requestJson asciiDigits (.decision (passing " paper")) = .ok json ∧ (passing "paper").accountId ≠ (passing " paper").accountId := by
  have plain : strip "paper" = "paper" := by decide +kernel
  have padded : strip " paper" = "paper" := by decide +kernel
  have accepted : requestJson asciiDigits (.decision (passing "paper")) = .ok (JsonText.dumps (.object (decisionPayload "paper" "decision"
      "opportunity" (passing "paper").opportunityRevision .pass none none .immediateOrCancel))) := by
    have decision : strip "decision" = "decision" := by decide +kernel
    have opportunity : strip "opportunity" = "opportunity" := by decide +kernel
    have revision : normalizedRevision (passing "paper").opportunityRevision = (passing "paper").opportunityRevision := by decide +kernel
    have digest : isDigest (passing "paper").opportunityRevision = true := by decide +kernel
    unfold requestJson decisionRequest
    dsimp only [passing] at *
    rw [plain, decision, opportunity, revision, digest]
    rfl
  have same : requestJson asciiDigits (.decision (passing " paper")) = requestJson asciiDigits (.decision (passing "paper")) := by
    unfold requestJson decisionRequest
    dsimp only [passing]
    rw [plain, padded]
    rfl
  exact ⟨_, accepted, same.trans accepted, by decide⟩

end Callisto.Paper.Spelled
